import Unscramble.Text.Utf8
import Unscramble.Tree

/-!
# Octets

Scripts, and what they read and write, are bytes in no particular encoding.  They
are kept as characters, one for each byte, so that the marks of the shell can be
written as the characters that they are.
-/

namespace Unscramble.Script

/-- Bytes, each as the character with its number. -/
abbrev Octets := List Char

namespace Octets

def ofBytes (bytes : Bytes) : Octets := bytes.map fun byte => Char.ofNat byte.toNat

def toBytes (s : Octets) : Bytes := s.map fun c => UInt8.ofNat c.toNat

def ofString (s : String) : Octets := ofBytes (Text.encode s)

/-- The text that the bytes encode. -/
def toString? (s : Octets) : Option String := (Text.decode (toBytes s)).toOption

def decimal (n : Int) : Octets := (toString n).toList

/-- The white space of the shell. -/
def isSpace (c : Char) : Bool :=
  c = ' ' || c = '\t' || c = '\n' || c = '\r' || c = '\x0b' || c = '\x0c'

/-- The number that decimal digits stand for. -/
def natural (s : Octets) : Nat := s.foldl (fun n c => 10 * n + (c.toNat - '0'.toNat)) 0

/-- A whole text of decimal digits. -/
def natural? (s : Octets) : Option Nat :=
  if s ≠ [] ∧ s.all Char.isDigit then some (natural s) else none

/-- The whole number of 64 bits that decimal digits with a sign spell, blanks around
them allowed. -/
def integer? (s : Octets) : Option Int :=
  let s := s.dropWhile isSpace
  let (negative, rest) := match s with
    | '-' :: rest => (true, rest)
    | '+' :: rest => (false, rest)
    | rest => (false, rest)
  let digits := rest.takeWhile Char.isDigit
  let n : Int := if negative then -(natural digits : Int) else natural digits
  if digits = [] ∨ ¬ (rest.drop digits.length).all isSpace ∨ n < -0x8000000000000000 ∨ 0x8000000000000000 ≤ n then none
  else some n

end Octets

def isNameStart (c : Char) : Bool := c.isAlpha || c = '_'

def isNameChar (c : Char) : Bool := c.isAlphanum || c = '_'

/-- The text is a name that can be given a value. -/
def isName (s : Octets) : Bool := s.head?.any isNameStart && s.all isNameChar

end Unscramble.Script
