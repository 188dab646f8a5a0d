import Unscramble.Json.Basic
import Unscramble.Fault

/-!
# Reading JSON

Besides the standard format the reader takes `NaN` and the infinities, and the
last of several members of one name wins.  Nesting and the digits of an integer
are limited, and running into a limit is a fault of its own.
-/

namespace Unscramble

/-- Why a text is not read. -/
inductive JsonFault
  | malformed
  | deepNesting (container : String)
  | longInteger (digits : Nat)
deriving DecidableEq, Repr

namespace Json

/-- Containers inside one another that are still read. -/
def nestingMax : Nat := 970

def isSpace (c : Char) : Bool := c = ' ' || c = '\t' || c = '\n' || c = '\r'

def skipSpace (s : List Char) : List Char := s.dropWhile isSpace

def hexValue? (c : Char) : Option Nat :=
  if '0' ≤ c ∧ c ≤ '9' then some (c.toNat - 48)
  else if 'a' ≤ c ∧ c ≤ 'f' then some (c.toNat - 87)
  else if 'A' ≤ c ∧ c ≤ 'F' then some (c.toNat - 55)
  else none

def escapeValue? (c : Char) : Option Nat :=
  match c with
  | '"' => some 0x22
  | '\\' => some 0x5C
  | '/' => some 0x2F
  | 'b' => some 8
  | 'f' => some 12
  | 'n' => some 10
  | 'r' => some 13
  | 't' => some 9
  | _ => none

/-- The two halves of a surrogate pair make one character. -/
def joinHalves : CodePoints → CodePoints
  | high :: low :: rest =>
    if 0xD800 ≤ high ∧ high < 0xDC00 ∧ 0xDC00 ≤ low ∧ low < 0xE000 then
      (0x10000 + (high - 0xD800) * 0x400 + (low - 0xDC00)) :: joinHalves rest
    else high :: joinHalves (low :: rest)
  | s => s

/-- The rest of a string after its opening quote; `acc` holds what has been read,
the last code point first. -/
def stringBody (acc : CodePoints) : List Char → Option (CodePoints × List Char)
  | '"' :: rest => some (joinHalves acc.reverse, rest)
  | '\\' :: 'u' :: a :: b :: c :: d :: rest =>
    match hexValue? a, hexValue? b, hexValue? c, hexValue? d with
    | some a, some b, some c, some d =>
      stringBody ((((a * 16 + b) * 16 + c) * 16 + d) :: acc) rest
    | _, _, _, _ => none
  | '\\' :: c :: rest =>
    match escapeValue? c with
    | some n => stringBody (n :: acc) rest
    | none => none
  | c :: rest => if c.toNat < 0x20 ∨ c = '\\' then none else stringBody (c.toNat :: acc) rest
  | [] => none

/-- Leading decimal digits and the rest. -/
def spanDigits (s : List Char) : List Char × List Char :=
  (s.takeWhile Char.isDigit, s.dropWhile Char.isDigit)

def digitsValue (digits : List Char) : Nat :=
  digits.foldl (fun n c => 10 * n + (c.toNat - 48)) 0

/-- The digits after a point; none without a digit. -/
def fraction (s : List Char) : List Char × List Char :=
  match s with
  | '.' :: rest =>
    match spanDigits rest with
    | ([], _) => ([], s)
    | (digits, rest) => (digits, rest)
  | _ => ([], s)

/-- A power of ten; none without a digit. -/
def power (s : List Char) : Option Int × List Char :=
  match s with
  | e :: rest =>
    if e = 'e' ∨ e = 'E' then
      let (negative, rest) := match rest with
        | '-' :: rest => (true, rest)
        | '+' :: rest => (false, rest)
        | rest => (false, rest)
      match spanDigits rest with
      | ([], _) => (none, s)
      | (digits, rest) =>
        let n : Int := digitsValue digits
        (some (if negative then -n else n), rest)
    else (none, s)
  | [] => (none, s)

/-- A number without its sign. -/
def magnitude (negative : Bool) (s : List Char) : Except JsonFault (Json × List Char) :=
  let (whole, rest) := match s with
    | '0' :: rest => (['0'], rest)
    | _ => spanDigits s
  if whole = [] then .error .malformed
  else
    let (places, rest) := fraction rest
    match power rest with
    | (none, rest) =>
      if places = [] then
        if digitMax < whole.length then .error (.longInteger whole.length)
        else
          let n : Int := digitsValue whole
          .ok (.int (if negative then -n else n), rest)
      else .ok (.number (.finite negative (digitsValue (whole ++ places)) (-places.length)), rest)
    | (some e, rest) =>
      .ok (.number (.finite negative (digitsValue (whole ++ places)) (e - places.length)), rest)

/-- Words and numbers. -/
def scalar (s : List Char) : Except JsonFault (Json × List Char) :=
  match s with
  | 'n' :: 'u' :: 'l' :: 'l' :: rest => .ok (.null, rest)
  | 't' :: 'r' :: 'u' :: 'e' :: rest => .ok (.bool true, rest)
  | 'f' :: 'a' :: 'l' :: 's' :: 'e' :: rest => .ok (.bool false, rest)
  | 'N' :: 'a' :: 'N' :: rest => .ok (.number .nan, rest)
  | 'I' :: 'n' :: 'f' :: 'i' :: 'n' :: 'i' :: 't' :: 'y' :: rest =>
    .ok (.number (.infinity false), rest)
  | '-' :: 'I' :: 'n' :: 'f' :: 'i' :: 'n' :: 'i' :: 't' :: 'y' :: rest =>
    .ok (.number (.infinity true), rest)
  | '-' :: rest => magnitude true rest
  | _ => magnitude false s

mutual

/-- A value at the start of the text, and what follows it.  Each step takes a
character, so the length of the text is fuel enough. -/
def value : (fuel depth : Nat) → List Char → Except JsonFault (Json × List Char)
  | 0, _, _ => .error .malformed
  | fuel + 1, depth, s =>
    match s with
    | '"' :: rest =>
      match stringBody [] rest with
      | some (text, rest) => .ok (.string text, rest)
      | none => .error .malformed
    | '[' :: rest =>
      match depth with
      | 0 => .error (.deepNesting "array")
      | depth + 1 =>
        match skipSpace rest with
        | ']' :: rest => .ok (.array [], rest)
        | rest => items fuel depth [] rest
    | '{' :: rest =>
      match depth with
      | 0 => .error (.deepNesting "object")
      | depth + 1 =>
        match skipSpace rest with
        | '}' :: rest => .ok (.object [], rest)
        | rest => members fuel depth [] rest
    | _ => scalar s

/-- The items of an array from its first one on; `acc` holds those read, the last
one first. -/
def items : (fuel depth : Nat) → List Json → List Char → Except JsonFault (Json × List Char)
  | 0, _, _, _ => .error .malformed
  | fuel + 1, depth, acc, s =>
    match value fuel depth s with
    | .error fault => .error fault
    | .ok (item, rest) =>
      match skipSpace rest with
      | ',' :: rest => items fuel depth (item :: acc) (skipSpace rest)
      | ']' :: rest => .ok (.array (item :: acc).reverse, rest)
      | _ => .error .malformed

/-- The members of an object from its first one on. -/
def members : (fuel depth : Nat) → List (CodePoints × Json) → List Char →
    Except JsonFault (Json × List Char)
  | 0, _, _, _ => .error .malformed
  | fuel + 1, depth, acc, s =>
    match s with
    | '"' :: rest =>
      match stringBody [] rest with
      | none => .error .malformed
      | some (key, rest) =>
        match skipSpace rest with
        | ':' :: rest =>
          match value fuel depth (skipSpace rest) with
          | .error fault => .error fault
          | .ok (item, rest) =>
            match skipSpace rest with
            | ',' :: rest => members fuel depth (setMember key item acc) (skipSpace rest)
            | '}' :: rest => .ok (.object (setMember key item acc), rest)
            | _ => .error .malformed
        | _ => .error .malformed
    | _ => .error .malformed

end

/-- The one value that the text holds. -/
def read (text : String) : Except JsonFault Json :=
  let s := skipSpace text.toList
  match value (2 * s.length + 2) nestingMax s with
  | .error fault => .error fault
  | .ok (result, rest) => if skipSpace rest = [] then .ok result else .error .malformed

end Json

end Unscramble
