import Unscramble.Decimal.Shortest

/-!
# JSON values

The values of the data format that settings and detectors use.  A string is a
list of code points, because an escape may name half of a surrogate pair, which
is no character.
-/

namespace Unscramble

abbrev CodePoints := List Nat

namespace CodePoints

/-- How far the stand-ins of lone surrogates are from them. -/
def standInOffset : Nat := 0x100000

def isSurrogate (n : Nat) : Bool := 0xD800 ≤ n && n ≤ 0xDFFF

/-- A lone surrogate is no character; a private character of the last plane stands
for it in text. -/
def toChar (n : Nat) : Char := Char.ofNat (if isSurrogate n then n + standInOffset else n)

def ofChar (c : Char) : Nat :=
  if isSurrogate (c.toNat - standInOffset) then c.toNat - standInOffset else c.toNat

def ofString (s : String) : CodePoints := s.toList.map ofChar

def toString (s : CodePoints) : String := String.ofList (s.map toChar)

def isCharacter (n : Nat) : Bool := n < 0xD800 || (0xDFFF < n && n < 0x110000)

/-- The text, if every code point is a character. -/
def toString? (s : CodePoints) : Option String :=
  if s.all isCharacter then some s.toString else none

end CodePoints

inductive Json
  | null
  | bool (value : Bool)
  | int (value : Int)
  | number (value : Decimal)
  | string (value : CodePoints)
  | array (items : List Json)
  | object (members : List (CodePoints × Json))

namespace Json

def ofString (s : String) : Json := .string (CodePoints.ofString s)

/-- A member replaces one of the same name and keeps its place. -/
def setMember (key : CodePoints) (value : Json) :
    List (CodePoints × Json) → List (CodePoints × Json)
  | [] => [(key, value)]
  | (k, old) :: rest =>
    if k = key then (key, value) :: rest else (k, old) :: setMember key value rest

def member? (key : String) : Json → Option Json
  | object members => members.lookup (CodePoints.ofString key)
  | _ => none

end Json

end Unscramble
