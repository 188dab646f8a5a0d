import Unscramble.Text.Blank
import Unscramble.Text.Cells

/-!
# Wrapping lines

A line wider than its room is broken before a word that no longer fits.  The
blanks after a word stay on its line as far as there is room.  A word wider
than the room is either folded over several lines or left to be cut.
-/

namespace Unscramble.Text

/-- What becomes of a word that is wider than the room. -/
inductive Overflow
  | fold
  | ellipsis
deriving DecidableEq, Repr

/-- The first word with the blanks around it, and the rest. -/
def firstChunk (s : List Char) : List Char × List Char :=
  let lead := s.takeWhile isBlank
  let rest := s.dropWhile isBlank
  let word := rest.takeWhile (!isBlank ·)
  let rest := rest.dropWhile (!isBlank ·)
  (lead ++ word ++ rest.takeWhile isBlank, rest.dropWhile isBlank)

theorem length_dropWhile_le (p : Char → Bool) (s : List Char) :
    (s.dropWhile p).length ≤ s.length := (List.dropWhile_sublist p).length_le

theorem dropWhile_ne_nil {p : Char → Bool} {s : List Char} (h : s.any (!p ·) = true) :
    s.dropWhile p ≠ [] := by
  induction s with
  | nil => simp at h
  | cons c rest ih =>
    cases hc : p c
    · simp [hc]
    · rw [List.dropWhile_cons, if_pos hc]
      exact ih (by simpa only [List.any_cons, hc, Bool.not_true, Bool.false_or] using h)

theorem length_firstChunk_lt {s : List Char} (h : s.any (!isBlank ·) = true) :
    (firstChunk s).2.length < s.length := by
  obtain ⟨c, rest, hrest⟩ := List.exists_cons_of_ne_nil (dropWhile_ne_nil h)
  have hc : isBlank c = false := by
    have := List.head?_dropWhile_not isBlank s
    rw [hrest] at this
    simpa using this
  have h₁ := length_dropWhile_le isBlank s
  have h₂ := length_dropWhile_le (!isBlank ·) rest
  have h₃ := length_dropWhile_le isBlank (rest.dropWhile (!isBlank ·))
  simp only [firstChunk, hrest, List.dropWhile_cons, hc, Bool.not_false, if_true]
  rw [hrest, List.length_cons] at h₁
  omega

/-- Each word of a line with the blanks after it, the first one also with those
before it.  Blanks alone hold no word. -/
def chunks (s : List Char) : List (List Char) :=
  if h : s.any (!isBlank ·) = true then
    have := length_firstChunk_lt h
    (firstChunk s).1 :: chunks (firstChunk s).2
  else []
termination_by s.length

/-- Cut text into pieces of at most `room` cells, without cutting clusters. -/
def fold (room : Nat) (s : List Char) : List (List Char) :=
  let (pieces, piece, used) := (clusters s).foldl
    (fun (pieces, piece, used) cluster =>
      if room < used + cluster.width then (pieces ++ [piece], cluster.text, cluster.width)
      else (pieces, piece ++ cluster.text, used + cluster.width))
    (([] : List (List Char)), ([] : List Char), 0)
  if used = 0 then pieces else pieces ++ [piece]

/-- A break before the character at `start`, which is none at the start of a line. -/
def breakAt (start : Nat) : List Nat := if start = 0 then [] else [start]

/-- The places before the pieces of a word that starts at `start`. -/
def pieceBreaks (start : Nat) : List (List Char) → List Nat
  | [] => []
  | piece :: rest => breakAt start ++ pieceBreaks (start + piece.length) rest

/-- The places where a line is broken: `start` characters have been taken, and
`used` cells of the line that is being filled. -/
def breaks (overflow : Overflow) (room : Nat) :
    (start used : Nat) → (chunks : List (List Char)) → List Nat
  | _, _, [] => []
  | start, used, chunk :: rest =>
    let wanted := cells (trimRight chunk)
    let next := start + chunk.length
    if used + wanted ≤ room then breaks overflow room next (used + cells chunk) rest
    else if wanted ≤ room ∨ overflow = .ellipsis then
      breakAt start ++ breaks overflow room next (cells chunk) rest
    else
      let pieces := fold room chunk
      pieceBreaks start pieces
        ++ breaks overflow room next (cells (pieces.getLast?.getD [])) rest

/-- The lines between breaks, of text that starts at `start`. -/
def divide (start : Nat) : List Nat → List Char → List (List Char)
  | [], s => [s]
  | next :: rest, s => s.take (next - start) :: divide next rest (s.drop (next - start))

/-- A line that is longer than the room loses blanks at its end. -/
def trimToRoom (room : Nat) (line : List Char) : List Char :=
  let blanks := (line.reverse.takeWhile isBlank).length
  line.take (line.length - min blanks (line.length - room))

/-- A line that is still too wide is cut, with a mark if words are not folded. -/
def cutToRoom (overflow : Overflow) (room : Nat) (line : List Char) : List Char :=
  if cells line ≤ room then line
  else match overflow with
    | .fold => fitCells room line
    | .ellipsis => fitCells (room - 1) line ++ ['…']

/-- Blanks up to the next multiple of eight cells. -/
def toTabStop (used : Nat) : Nat := (8 - used % 8) % 8

/-- The parts of a line between its tabs, each tab a blank at least. -/
def joinTabbed (used : Nat) : List (List Char) → List Char
  | [] => []
  | [part] => part
  | part :: rest =>
    let used := used + cells (part ++ [' '])
    let blanks := toTabStop used
    part ++ ' ' :: List.replicate blanks ' ' ++ joinTabbed (used + blanks) rest

/-- A tab reaches to the next multiple of eight cells. -/
def expandTabs (line : List Char) : List Char := joinTabbed 0 (line.splitOn '\t')

/-- The lines of one line of text in a room of so many cells. -/
def wrapLine (overflow : Overflow) (room : Nat) (line : List Char) : List (List Char) :=
  let line := expandTabs line
  (divide 0 (breaks overflow room 0 0 (chunks line)) line).map fun line =>
    cutToRoom overflow room (trimToRoom room line)

def wrap (overflow : Overflow) (room : Nat) (s : List Char) : List (List Char) :=
  (s.splitOn '\n').flatMap (wrapLine overflow room)

end Unscramble.Text
