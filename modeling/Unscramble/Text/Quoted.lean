import Unscramble.Text.Printable

/-!
# Quoted text

Texts inside messages stand in quotes, single ones unless only a double pair
avoids escaping.  What cannot be shown as itself is written by its code.
-/

namespace Unscramble.Text

def hexDigit (n : Nat) : Char :=
  if n < 10 then Char.ofNat (48 + n) else Char.ofNat (87 + n)

/-- The last `width` hexadecimal digits of a number. -/
def hexPadded (width n : Nat) : List Char :=
  (List.range width).reverse.map fun place => hexDigit (n / Nat.pow 16 place % 16)

/-- Single quotes, unless the text holds a single quote and no double one. -/
def quoteFor (s : List Char) : Char :=
  if '\'' ∈ s ∧ '"' ∉ s then '"' else '\''

def quotedChar (quote c : Char) : List Char :=
  if c = quote ∨ c = '\\' then ['\\', c]
  else if c = '\t' then ['\\', 't']
  else if c = '\n' then ['\\', 'n']
  else if c = '\r' then ['\\', 'r']
  else if isPrintable c then [c]
  else if c.toNat ≤ 0xFF then '\\' :: 'x' :: hexPadded 2 c.toNat
  else if c.toNat ≤ 0xFFFF then '\\' :: 'u' :: hexPadded 4 c.toNat
  else '\\' :: 'U' :: hexPadded 8 c.toNat

def quoted (s : String) : String :=
  let quote := quoteFor s.toList
  String.ofList (quote :: s.toList.flatMap (quotedChar quote) ++ [quote])

end Unscramble.Text
