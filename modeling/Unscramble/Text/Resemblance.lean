/-!
# Resemblance of words

Two words resemble each other by the characters they share in order: the longest
common piece, and then the same again to the left and to the right of it.  The
measure is twice what they share over the sum of their lengths.
-/

namespace Unscramble.Text

/-- How long two texts agree from their start. -/
def agreement : List Char → List Char → Nat
  | c :: s, d :: t => if c = d then agreement s t + 1 else 0
  | _, _ => 0

/-- A piece that two texts share: where it starts in each, and its length. -/
structure SharedPiece where
  left : Nat
  right : Nat
  length : Nat
deriving DecidableEq, Repr

/-- The longest shared piece; of several the one that comes first. -/
def longestShared (s t : List Char) : SharedPiece :=
  let starts := (List.range s.length).flatMap fun i => (List.range t.length).map fun j => (i, j)
  starts.foldl
    (fun best (i, j) =>
      let n := agreement (s.drop i) (t.drop j)
      if best.length < n then ⟨i, j, n⟩ else best)
    ⟨0, 0, 0⟩

/-- How many characters two texts share in order; `rounds` bounds how often a
piece is taken out. -/
def sharedCount : (rounds : Nat) → List Char → List Char → Nat
  | 0, _, _ => 0
  | rounds + 1, s, t =>
    let piece := longestShared s t
    if piece.length = 0 then 0
    else
      piece.length
        + sharedCount rounds (s.take piece.left) (t.take piece.right)
        + sharedCount rounds (s.drop (piece.left + piece.length))
            (t.drop (piece.right + piece.length))

/-- The measure as a fraction. -/
def resemblance (s t : String) : Nat × Nat :=
  (2 * sharedCount (s.length + 1) s.toList t.toList, s.length + t.length)

/-- One fraction is at most the other. -/
def fractionLe (x y : Nat × Nat) : Bool := x.1 * y.2 ≤ y.1 * x.2

/-- The three words that resemble `word` best, the best one first, if they do so by
at least three fifths. -/
def closeWords (word : String) (words : List String) : List String :=
  let scored := (words.map fun w => (resemblance w word, w)).filter fun x => fractionLe (3, 5) x.1
  let better (x y : (Nat × Nat) × String) : Bool :=
    if fractionLe y.1 x.1 then !fractionLe x.1 y.1 || y.2 ≤ x.2 else false
  ((scored.mergeSort better).take 3).map (·.2)

end Unscramble.Text
