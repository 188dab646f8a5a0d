import Unscramble.Text.Wrap

/-!
# Tables

A table has a title, a heavy line around its headers and a light one around its
rows.  Columns are as wide as their widest cell; when there is less room, the
widest columns give way first, down to the next widest, and the text in them is
wrapped.  Headers lie at the bottom of their row, other cells at the top.
-/

namespace Unscramble

structure Table where
  title : List Char
  headers : List (List Char)
  rows : List (List (List Char))
deriving DecidableEq, Repr

namespace Table

open Text

/-- Characters that end a line when text is measured. -/
def endsLine (c : Char) : Bool :=
  inRanges [(0xA, 0xD), (0x1C, 0x1E), (0x85, 0x85), (0x2028, 0x2029)] c.toNat

/-- The cells that a text takes at most. -/
def contentWidth (s : List Char) : Nat :=
  ((s.splitOnP endsLine).map cells).foldl max 0

/-- The cells that a column wants in so much room, the blanks at its sides
included. -/
def columnWidth (room : Nat) (column : List (List Char)) : Nat :=
  if room ≤ 2 then room
  else column.foldl (fun width cell => max width (min room (contentWidth cell + 2))) 0

/-- The column at an index, its header first. -/
def column (table : Table) (index : Nat) : List (List Char) :=
  (table.headers :: table.rows).filterMap (·[index]?)

def columns (table : Table) : List (List (List Char)) :=
  (List.range table.headers.length).map table.column

def total (widths : List Nat) : Nat := widths.foldr (· + ·) 0

/-- The whole number next to `n / d`, the even one of two. -/
def roundedQuotient (n d : Nat) : Nat :=
  let q := n / d
  let twice := 2 * (n % d)
  if twice < d ∨ (twice = d ∧ q % 2 = 0) then q else q + 1

/-- Take `total` from the columns that take part, in even shares and from none
more than its cap.  A column is given as whether it takes part, its cap and its
width; `sharers` of them are still to come. -/
def shareOut : (total sharers : Nat) → List (Bool × Nat × Nat) → List Nat
  | _, _, [] => []
  | total, sharers, (takesPart, cap, width) :: rest =>
    if takesPart ∧ 0 < sharers then
      let share := min cap (roundedQuotient total sharers)
      (width - share) :: shareOut (total - share) (sharers - 1) rest
    else width :: shareOut total sharers rest

def takeFrom (total : Nat) (columns : List (Bool × Nat × Nat)) : List Nat :=
  shareOut total (columns.filter (·.1)).length columns

/-- Let the widest columns give way to the next widest until the widths fit. -/
def collapse (room : Nat) : (rounds : Nat) → List Nat → List Nat
  | 0, widths => widths
  | rounds + 1, widths =>
    let excess := total widths - room
    let widest := widths.foldl max 0
    let next := (widths.filter (· ≠ widest)).foldl max 0
    if excess = 0 ∨ widest = next then widths
    else
      let cap := min excess (widest - next)
      collapse room rounds (takeFrom excess (widths.map fun w => (w = widest, cap, w)))

/-- The widths of the columns in so much room. -/
def widths (table : Table) (room : Nat) : List Nat :=
  let wanted := table.columns.map fun column => max 1 (columnWidth room column)
  if total wanted ≤ room then wanted
  else
    let given := collapse room (total wanted) wanted
    let excess := total given - room
    let given :=
      if excess = 0 then given else takeFrom excess (given.map fun w => (decide (0 < w), w, w))
    List.zipWith columnWidth given table.columns

/-- The lines of a cell that is `width` cells wide, a blank at each side; a cell
without room for text has none. -/
def cellLines (width : Nat) (s : List Char) : List (List Char) :=
  if width ≤ 2 then []
  else (wrap .ellipsis (width - 2) s).map fun line =>
    fitCells width (' ' :: fitCells (width - 2) line ++ [' '])

/-- A horizontal line, with one piece for each column. -/
def rule (left between right piece : Char) (widths : List Nat) : List Char :=
  left :: [between].intercalate (widths.map fun w => List.replicate w piece) ++ [right]

/-- Where the text of a cell lies in a row that is higher than the text. -/
inductive Lie
  | top
  | bottom
deriving DecidableEq, Repr

/-- The lines of a cell in a row of so many lines. -/
def Lie.fill (lie : Lie) (height width : Nat) (block : List (List Char)) : List (List Char) :=
  let missing := List.replicate (height - block.length) (List.replicate width ' ')
  match lie with
  | .top => block ++ missing
  | .bottom => missing ++ block

/-- The lines of a row, one at least. -/
def rowLines (lie : Lie) (border : Char) (widths : List Nat) (row : List (List Char)) :
    List (List Char) :=
  let blocks := List.zipWith cellLines widths row
  let height := (blocks.map List.length).foldl max 1
  let filled := List.zipWith (lie.fill height) widths blocks
  (List.range height).map fun index =>
    border :: [border].intercalate (filled.map fun block => (block[index]?).getD []) ++ [border]

/-- Text in the middle of a line, the odd blank after it. -/
def centred (width : Nat) (s : List Char) : List (List Char) :=
  (wrap .fold width s).map fun line =>
    let line := trimRight line
    fitCells width (List.replicate ((width - cells line) / 2) ' ' ++ line)

/-- The lines of a table on a console of so many columns. -/
def lines (table : Table) (room : Nat) : List (List Char) :=
  let edges := table.headers.length + 1
  let widths := table.widths (room - edges)
  let drawn := centred (total widths + edges) table.title
    ++ [rule '┏' '┳' '┓' '━' widths]
    ++ rowLines .bottom '┃' widths table.headers
    ++ [rule '┡' '╇' '┩' '━' widths]
    ++ table.rows.flatMap (rowLines .top '│' widths)
    ++ [rule '└' '┴' '┘' '─' widths]
  drawn.map fun line => if cells line ≤ room then line else fitCells room line

end Table

end Unscramble
