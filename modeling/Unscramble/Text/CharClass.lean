/-!
# Classes of characters

A class is a list of ranges of code points in increasing order.  The classes of
the Unicode standard that the program needs are kept in this form.
-/

namespace Unscramble.Text

def inRanges (ranges : List (Nat × Nat)) (code : Nat) : Bool :=
  ranges.any fun range => range.1 ≤ code && code ≤ range.2

theorem inRanges_eq_true_iff {ranges : List (Nat × Nat)} {code : Nat} :
    inRanges ranges code = true ↔ ∃ range ∈ ranges, range.1 ≤ code ∧ code ≤ range.2 := by
  simp [inRanges]

end Unscramble.Text
