import Unscramble.Text.CharClass

/-!
# Blanks

The characters that count as white space: the Unicode spaces, the ASCII
controls from tab to carriage return and the four ASCII separators.
-/

namespace Unscramble.Text

/-- Code points of white space. -/
def blankRanges : List (Nat × Nat) :=
   [(0x9, 0xD), (0x1C, 0x20), (0x85, 0x85), (0xA0, 0xA0), (0x1680, 0x1680), (0x2000, 0x200A),
    (0x2028, 0x2029), (0x202F, 0x202F), (0x205F, 0x205F), (0x3000, 0x3000)]

def isBlank (c : Char) : Bool := inRanges blankRanges c.toNat

def trimLeft (s : List Char) : List Char := s.dropWhile isBlank

def trimRight (s : List Char) : List Char := (s.reverse.dropWhile isBlank).reverse

/-- The text without the blanks at its two ends. -/
def trim (s : List Char) : List Char := trimRight (trimLeft s)

end Unscramble.Text
