import Unscramble.Json.Basic
import Unscramble.Text.Quoted

/-!
# Writing JSON

Values are written without blanks and in ASCII; everything else is escaped.
-/

namespace Unscramble.Json

open Text

/-- A code point outside ASCII, as one escape or as the two halves of a pair. -/
def escapeCode (n : Nat) : List Char :=
  if n < 0x10000 then '\\' :: 'u' :: hexPadded 4 n
  else
    '\\' :: 'u' :: hexPadded 4 (0xD800 + (n - 0x10000) / 0x400)
      ++ '\\' :: 'u' :: hexPadded 4 (0xDC00 + (n - 0x10000) % 0x400)

def writeCode (n : Nat) : List Char :=
  if n = 0x22 then ['\\', '"']
  else if n = 0x5C then ['\\', '\\']
  else if 0x20 ≤ n ∧ n < 0x7F then [Char.ofNat n]
  else escapeCode n

def writeString (s : CodePoints) : List Char := '"' :: s.flatMap writeCode ++ ['"']

/-- A number as the reader takes it; what is too large for a double is infinite. -/
def writeNumber (x : Decimal) : List Char :=
  match Decimal.toString x with
  | "nan" => "NaN".toList
  | "inf" => "Infinity".toList
  | "-inf" => "-Infinity".toList
  | text => text.toList

mutual

def write : Json → List Char
  | null => "null".toList
  | bool b => (if b then "true" else "false").toList
  | int n => (toString n).toList
  | number x => writeNumber x
  | string s => writeString s
  | array items => '[' :: writeItems items ++ [']']
  | object members => '{' :: writeMembers members ++ ['}']

def writeItems : List Json → List Char
  | [] => []
  | [item] => write item
  | item :: rest => write item ++ ',' :: writeItems rest

def writeMembers : List (CodePoints × Json) → List Char
  | [] => []
  | [(key, item)] => writeString key ++ ':' :: write item
  | (key, item) :: rest => writeString key ++ ':' :: write item ++ ',' :: writeMembers rest

end

end Unscramble.Json
