import Unscramble.Text.Blank

/-!
# Digits and integers

Decimal digits come in sets of ten consecutive code points, one set for each
script.  An integer is read from digits of any of them, with a sign before it,
blanks around it and single underscores between its digits.
-/

namespace Unscramble.Text

/-- Code points of the zeros. -/
def zeroCodes : List Nat :=
  [0x30, 0x660, 0x6F0, 0x7C0, 0x966, 0x9E6, 0xA66, 0xAE6, 0xB66, 0xBE6, 0xC66, 0xCE6, 0xD66,
   0xDE6, 0xE50, 0xED0, 0xF20, 0x1040, 0x1090, 0x17E0, 0x1810, 0x1946, 0x19D0, 0x1A80, 0x1A90,
   0x1B50, 0x1BB0, 0x1C40, 0x1C50, 0xA620, 0xA8D0, 0xA900, 0xA9D0, 0xA9F0, 0xAA50, 0xABF0,
   0xFF10, 0x104A0, 0x10D30, 0x11066, 0x110F0, 0x11136, 0x111D0, 0x112F0, 0x11450, 0x114D0,
   0x11650, 0x116C0, 0x11730, 0x118E0, 0x11950, 0x11C50, 0x11D50, 0x11DA0, 0x16A60, 0x16AC0,
   0x16B50, 0x1D7CE, 0x1D7D8, 0x1D7E2, 0x1D7EC, 0x1D7F6, 0x1E140, 0x1E2F0, 0x1E950, 0x1FBF0]

/-- The value of a digit. -/
def digitValue? (c : Char) : Option Nat :=
  (zeroCodes.find? fun first => first ≤ c.toNat && c.toNat ≤ first + 9).map (c.toNat - ·)

/-- Digits with single underscores between them; `acc` is the value of those read. -/
def digitsFrom (acc : Nat) : List Char → Option Nat
  | [] => some acc
  | '_' :: c :: rest => (digitValue? c).bind fun d => digitsFrom (10 * acc + d) rest
  | c :: rest => (digitValue? c).bind fun d => digitsFrom (10 * acc + d) rest

/-- A text that starts with a digit and holds nothing but a number. -/
def natural? (s : List Char) : Option Nat :=
  match s with
  | [] => none
  | '_' :: _ => none
  | s => digitsFrom 0 s

/-- Blanks that may stand around a number; the separators among the controls may
not. -/
def surroundsNumber (c : Char) : Bool := isBlank c && !(28 ≤ c.toNat && c.toNat ≤ 31)

def trimNumber (s : List Char) : List Char :=
  ((s.dropWhile surroundsNumber).reverse.dropWhile surroundsNumber).reverse

/-- The integer that a text stands for, if it has at most so many digits. -/
def integer? (digitMax : Nat) (s : List Char) : Option Int :=
  let s := trimNumber s
  let (negative, s) := match s with
    | '-' :: rest => (true, rest)
    | '+' :: rest => (false, rest)
    | s => (false, s)
  if digitMax < (s.filter (· ≠ '_')).length then none
  else (natural? s).map fun n => if negative then -(n : Int) else n

end Unscramble.Text
