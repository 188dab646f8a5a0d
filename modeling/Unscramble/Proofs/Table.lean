import Unscramble.Proofs.Text.Wrap
import Unscramble.Table

/-!
# Tables with room

Where there is room for the longest row, no text is wrapped or cut.  Each row is drawn as one
line that shows its texts between borders, and the lines stand in the order of the rows.
-/

namespace Unscramble.Table

open Text

variable {table : Table} {width room : Nat} {text block : List Char} {border : Char}
  {widths : List Nat} {row texts : List (List Char)}

/-- A line that shows the texts between borders: a blank before each of them and nothing but
blanks after it. -/
inductive Shows (border : Char) : List (List Char) → List Char → Prop
  | nil : Shows border [] [border]
  | cons {text blanks rest : List Char} {texts : List (List Char)} (hsome : blanks ≠ [])
      (hblanks : ∀ c ∈ blanks, isBlank c = true) (hrest : Shows border texts rest) :
      Shows border (text :: texts) (border :: ' ' :: trimRight text ++ blanks ++ rest)

/-- A text that is one line, whatever it is measured for. -/
def OneLine (text : List Char) : Prop := ∀ c ∈ text, endsLine c = false ∧ c ≠ '\t'

/-- A text that a cell of the width can hold. -/
structure Holds (width : Nat) (text : List Char) : Prop where
  line : OneLine text
  room : 2 < width
  fits : cells text + 2 ≤ width

/-- What is drawn of a cell that holds its text. -/
structure Drawn (width : Nat) (text block : List Char) : Prop where
  shown : ∃ blanks, block = ' ' :: trimRight text ++ blanks ∧ blanks ≠ [] ∧
    ∀ c ∈ blanks, isBlank c = true
  fits : cells block ≤ width

/-! ## Cells -/

theorem cellLines_of_holds (hholds : Holds width text) :
    ∃ block, cellLines width text = [block] ∧ Drawn width text block := by
  obtain ⟨hline, hroom, hfits⟩ := hholds
  have hnewline : '\n' ∉ text := fun hmem => absurd (hline _ hmem).1 (by decide)
  have htab : '\t' ∉ text := fun hmem => (hline _ hmem).2 rfl
  have hwrap : wrap .ellipsis (width - 2) text = [trimToRoom (width - 2) text] :=
    wrap_of_fits hnewline htab (by omega)
  obtain ⟨blanks, hkept, hblanks⟩ := trimToRoom_eq (width - 2) text
  have hcells := (cells_mono (trimToRoom_isPrefix (width - 2) text)).trans
    (Nat.le_sub_of_add_le hfits)
  rw [hkept] at hwrap hcells
  set kept := trimRight text ++ blanks
  let missing := width - 2 - cells kept
  have hinner : ' ' :: fitCells (width - 2) kept ++ [' '] =
      ' ' :: kept ++ List.replicate (missing + 1) ' ' := by
    rw [fitCells, if_pos hcells, List.replicate_succ']
    simp [missing]
  have hwide : cells (' ' :: fitCells (width - 2) kept ++ [' ']) ≤ width := by
    have hblank := cells_blank_cons kept
    have hpadded := cells_append_blanks_le (' ' :: kept) (missing + 1)
    rw [hinner]
    omega
  refine ⟨fitCells width (' ' :: fitCells (width - 2) kept ++ [' ']), ?_, ?_,
    cells_fitCells_le hwide⟩
  · rw [cellLines, if_neg (by omega), hwrap, List.map_singleton]
  · rw [fitCells, if_pos hwide, hinner]
    generalize width - cells (' ' :: kept ++ List.replicate (missing + 1) ' ') = more
    refine ⟨blanks ++ List.replicate (missing + 1) ' ' ++ List.replicate more ' ', ?_, ?_, ?_⟩
    · simp [kept]
    · simp
    · intro c hc
      rcases List.mem_append.mp hc with hc | hc
      · rcases List.mem_append.mp hc with hc | hc
        · exact hblanks c hc
        · exact List.eq_of_mem_replicate hc ▸ by decide
      · exact List.eq_of_mem_replicate hc ▸ by decide

/-! ## Rows -/

/-- Blocks next to each other, with a border before each and one at the end. -/
def bordered (border : Char) (blocks : List (List Char)) : List Char :=
  blocks.flatMap (border :: ·) ++ [border]

theorem intercalate_bordered {blocks : List (List Char)} (hblocks : blocks ≠ []) :
    border :: [border].intercalate blocks ++ [border] = bordered border blocks := by
  induction blocks with
  | nil => exact absurd rfl hblocks
  | cons block rest ih =>
    cases rest with
    | nil => simp [bordered]
    | cons next rest =>
      have hrest := ih (List.cons_ne_nil _ _)
      rw [List.intercalate_cons_cons]
      simp only [bordered, List.flatMap_cons] at hrest ⊢
      simp [hrest]

@[simp]
theorem bordered_cons (border : Char) (block : List Char) (blocks : List (List Char)) :
    bordered border (block :: blocks) = border :: block ++ bordered border blocks := by
  simp [bordered]

theorem bordered_eq_cons (border : Char) (blocks : List (List Char)) :
    ∃ rest, bordered border blocks = border :: rest := by
  cases blocks with
  | nil => exact ⟨[], rfl⟩
  | cons block blocks => exact ⟨_, bordered_cons border block blocks⟩

theorem cells_bordered_cons_le (hborder : Narrow border) (hdrawn : Drawn width text block)
    (blocks : List (List Char)) :
    cells (bordered border (block :: blocks)) ≤ 1 + width + cells (bordered border blocks) := by
  obtain ⟨rest, hrest⟩ := bordered_eq_cons border blocks
  obtain ⟨⟨blanks, rfl, -⟩, hfits⟩ := hdrawn
  have hblock : cells (border :: ' ' :: (trimRight text ++ blanks)) =
      1 + cells (' ' :: (trimRight text ++ blanks)) := by
    rw [cells, cellsAfter_narrow hborder, cells_blank_cons, cellsAfter_narrow narrow_blank,
      cellsAfter_of_not_widens _ _ (by decide)]
  have happend := cells_append_narrow_le hborder (border :: ' ' :: (trimRight text ++ blanks)) rest
  rw [bordered_cons, hrest]
  simp only [List.cons_append] at hfits happend ⊢
  omega

theorem total_cons (width : Nat) (widths : List Nat) :
    total (width :: widths) = width + total widths := rfl

theorem blocks_of_holds (hborder : Narrow border) (hrow : List.Forall₂ Holds widths row) :
    ∃ blocks, List.zipWith cellLines widths row = blocks.map ([·]) ∧
      widths.length = blocks.length ∧ Shows border row (bordered border blocks) ∧
      cells (bordered border blocks) ≤ total widths + row.length + 1 := by
  induction hrow with
  | nil =>
    exact ⟨[], rfl, rfl, .nil, (cellsAfter_narrow hborder).trans_le (by simp [cellsAfter_nil])⟩
  | @cons width text widths row hholds hrow ih =>
    obtain ⟨blocks, hblocks, hlength, hshows, hcells⟩ := ih
    obtain ⟨block, hblock, hdrawn⟩ := cellLines_of_holds hholds
    refine ⟨block :: blocks, ?_, congrArg (· + 1) hlength, ?_, ?_⟩
    · rw [List.zipWith_cons_cons, hblock, hblocks, List.map_cons]
    · obtain ⟨⟨blanks, rfl, hsome, hblanks⟩, -⟩ := hdrawn
      rw [bordered_cons]
      exact .cons hsome hblanks hshows
    · have := cells_bordered_cons_le hborder hdrawn blocks
      rw [total_cons, List.length_cons]
      omega

theorem height_singles (blocks : List (List Char)) :
    ((blocks.map ([·])).map List.length).foldl max 1 = 1 := by
  induction blocks with
  | nil => rfl
  | cons block blocks ih => simpa using ih

theorem fill_singles (lie : Lie) {blocks : List (List Char)}
    (hlength : widths.length = blocks.length) :
    List.zipWith (lie.fill 1) widths (blocks.map ([·])) = blocks.map ([·]) := by
  induction blocks generalizing widths with
  | nil => exact List.zipWith_nil_right
  | cons block blocks ih =>
    obtain ⟨width, widths, rfl⟩ := List.exists_cons_of_length_eq_add_one hlength
    have hfill : lie.fill 1 width [block] = [block] := by cases lie <;> simp [Lie.fill]
    rw [List.map_cons, List.zipWith_cons_cons, hfill, ih (Nat.succ.inj hlength)]

/-- A row whose texts fit is one line. -/
theorem rowLines_of_holds (lie : Lie) (hborder : Narrow border) (hsome : row ≠ [])
    (hrow : List.Forall₂ Holds widths row) :
    ∃ line, rowLines lie border widths row = [line] ∧ Shows border row line ∧
      cells line ≤ total widths + row.length + 1 := by
  obtain ⟨blocks, hblocks, hlength, hshows, hcells⟩ := blocks_of_holds hborder hrow
  have hne : blocks ≠ [] := by
    rintro rfl
    exact hsome (List.length_eq_zero_iff.mp (hrow.length_eq.symm.trans hlength))
  refine ⟨bordered border blocks, ?_, hshows, hcells⟩
  rw [rowLines, hblocks, height_singles, fill_singles lie hlength, ← intercalate_bordered hne]
  simp [List.map_map, Function.comp_def]

/-! ## Widths -/

/-- The cells that a column needs, however much room there is. -/
def naturalWidth (column : List (List Char)) : Nat :=
  column.foldl (fun width cell => max width (contentWidth cell + 2)) 0

def naturalWidths (table : Table) : List Nat := table.columns.map naturalWidth

theorem le_foldl_max (f : List Char → Nat) (column : List (List Char)) (start : Nat) :
    start ≤ column.foldl (fun width cell => max width (f cell)) start ∧
      ∀ cell ∈ column, f cell ≤ column.foldl (fun width cell => max width (f cell)) start := by
  induction column generalizing start with
  | nil => simp
  | cons cell column ih =>
    obtain ⟨hstart, hrest⟩ := ih (max start (f cell))
    refine ⟨(le_max_left _ _).trans hstart, fun other hother => ?_⟩
    rcases List.mem_cons.mp hother with rfl | hother
    · exact (le_max_right _ _).trans hstart
    · exact hrest other hother

theorem le_naturalWidth {column : List (List Char)} (htext : text ∈ column) :
    contentWidth text + 2 ≤ naturalWidth column :=
  (le_foldl_max (contentWidth · + 2) column 0).2 text htext

/-- A column that fits is as wide as it needs to be. -/
theorem columnWidth_of_room {column : List (List Char)} (hfits : naturalWidth column ≤ room)
    (hroom : 2 < room) : columnWidth room column = naturalWidth column := by
  rw [columnWidth, if_neg (by omega), naturalWidth]
  refine List.foldl_ext _ _ _ fun width cell hcell => ?_
  rw [min_eq_right ((le_naturalWidth hcell).trans hfits)]

/-- A table to be drawn as it stands: its columns are headed, its rows have a text for each
column, and each text is one line. -/
structure Regular (table : Table) : Prop where
  headed : table.headers ≠ []
  header : ∀ text ∈ table.headers, 0 < cells text
  even : ∀ row ∈ table.rows, row.length = table.headers.length
  line : ∀ row ∈ table.headers :: table.rows, ∀ text ∈ row, OneLine text

theorem contentWidth_of_oneLine (hline : OneLine text) : contentWidth text = cells text := by
  have hsplit : text.splitOnP endsLine = [text] :=
    List.splitOnP_eq_singleton fun c hc => by simp [(hline c hc).1]
  simp [contentWidth, hsplit]

theorem mem_column_iff {index : Nat} : text ∈ table.column index ↔
    ∃ row ∈ table.headers :: table.rows, row[index]? = some text := by
  simp only [column, List.mem_filterMap]

namespace Regular

variable (hregular : table.Regular)

include hregular

theorem lt_naturalWidth {index : Nat} (hindex : index < table.headers.length) :
    2 < naturalWidth (table.column index) := by
  have hmem : table.headers[index] ∈ table.column index :=
    mem_column_iff.mpr ⟨_, List.mem_cons_self, List.getElem?_eq_getElem hindex⟩
  have hheader := List.getElem_mem hindex
  have hwidth := le_naturalWidth hmem
  rw [contentWidth_of_oneLine (hregular.line _ List.mem_cons_self _ hheader)] at hwidth
  have := hregular.header _ hheader
  omega

theorem widths_of_room (hroom : total table.naturalWidths ≤ room) :
    table.widths room = table.naturalWidths := by
  have hcolumn : ∀ column ∈ table.columns,
      max 1 (columnWidth room column) = naturalWidth column := by
    intro column hcolumn
    obtain ⟨index, hindex, rfl⟩ := List.mem_map.mp hcolumn
    have hwide := hregular.lt_naturalWidth (List.mem_range.mp hindex)
    have hfits : naturalWidth (table.column index) ≤ total table.naturalWidths :=
      List.single_le_sum (by simp) _ (List.mem_map_of_mem hcolumn)
    rw [columnWidth_of_room (hfits.trans hroom) (by omega), max_eq_right (by omega)]
  have hwanted : table.columns.map (fun column => max 1 (columnWidth room column)) =
      table.naturalWidths := List.map_congr_left hcolumn
  rw [widths, hwanted, if_pos hroom]

/-- Each row of the table holds its texts. -/
theorem holds (hrow : row ∈ table.headers :: table.rows) :
    List.Forall₂ Holds table.naturalWidths row := by
  have hlength : row.length = table.headers.length := by
    rcases List.mem_cons.mp hrow with rfl | hrow
    · rfl
    · exact hregular.even row hrow
  rw [List.forall₂_iff_get]
  refine ⟨by simp [naturalWidths, columns, hlength], fun index hwidth hindex => ?_⟩
  have htext : row[index] ∈ table.column index :=
    mem_column_iff.mpr ⟨row, hrow, List.getElem?_eq_getElem hindex⟩
  have hline := hregular.line row hrow _ (List.getElem_mem hindex)
  have hfits := le_naturalWidth htext
  rw [contentWidth_of_oneLine hline] at hfits
  have hroom := hregular.lt_naturalWidth (hlength ▸ hindex)
  simp only [naturalWidths, columns, List.get_eq_getElem, List.getElem_map, List.getElem_range]
  exact ⟨hline, hroom, hfits⟩

end Regular

/-! ## Lines -/

theorem narrow_light : Narrow '│' := by decide +kernel

theorem narrow_heavy : Narrow '┃' := by decide +kernel

/-- The characters that rules are drawn with. -/
def pieces : List Char := ['┏', '┳', '┓', '━', '┡', '╇', '┩', '└', '┴', '┘', '─']

theorem narrow_of_mem_pieces {c : Char} (hc : c ∈ pieces) : Narrow c := by
  fin_cases hc <;> decide +kernel

theorem intercalate_pieces {between piece : Char} (hbetween : Narrow between)
    (hpiece : Narrow piece) (hwidths : widths ≠ []) :
    (∀ c ∈ [between].intercalate (widths.map fun w => List.replicate w piece), Narrow c) ∧
      ([between].intercalate (widths.map fun w => List.replicate w piece)).length + 1 =
        total widths + widths.length := by
  induction widths with
  | nil => exact absurd rfl hwidths
  | cons width rest ih =>
    have hfirst : ∀ c ∈ List.replicate width piece, Narrow c := fun c hc =>
      List.eq_of_mem_replicate hc ▸ hpiece
    cases rest with
    | nil => exact ⟨by simpa using fun _ => hpiece, by simp [total]⟩
    | cons next rest =>
      obtain ⟨hnarrow, hlength⟩ := ih (List.cons_ne_nil _ _)
      rw [List.map_cons] at hnarrow hlength
      rw [List.map_cons, List.map_cons, List.intercalate_cons_cons]
      refine ⟨fun c hc => ?_, ?_⟩
      · rcases List.mem_append.mp hc with hc | hc
        · rcases List.mem_append.mp hc with hc | hc
          · exact hfirst c hc
          · exact List.mem_singleton.mp hc ▸ hbetween
        · exact hnarrow c hc
      · rw [List.length_append, List.length_append, List.length_replicate, List.length_singleton,
          total_cons, List.length_cons]
        omega

theorem cells_rule {left between right piece : Char}
    (hpieces : [left, between, right, piece] ⊆ pieces) (hwidths : widths ≠ []) :
    cells (rule left between right piece widths) = total widths + (widths.length + 1) := by
  have hchar {c : Char} (hc : c ∈ [left, between, right, piece]) : Narrow c :=
    narrow_of_mem_pieces (hpieces hc)
  obtain ⟨hnarrow, hlength⟩ := intercalate_pieces (hchar (c := between) (by simp))
    (hchar (c := piece) (by simp)) hwidths
  have hline : ∀ c ∈ rule left between right piece widths, Narrow c := by
    intro c hc
    rcases List.mem_cons.mp hc with rfl | hc
    · exact hchar (by simp)
    · rcases List.mem_append.mp hc with hc | hc
      · exact hnarrow c hc
      · exact List.mem_singleton.mp hc ▸ hchar (by simp)
  rw [cells, cellsAfter_of_narrow none hline, rule, List.length_append, List.length_cons,
    List.length_singleton]
  omega

/-- Rows whose texts fit are one line each. -/
theorem rows_of_holds {rows : List (List (List Char))} (hsome : widths ≠ [])
    (hrows : ∀ row ∈ rows, List.Forall₂ Holds widths row) :
    ∃ drawn, rows.flatMap (rowLines .top '│' widths) = drawn ∧
      List.Forall₂ (Shows '│') rows drawn ∧
      ∀ line ∈ drawn, cells line ≤ total widths + (widths.length + 1) := by
  induction rows with
  | nil => exact ⟨[], rfl, .nil, by simp⟩
  | cons row rows ih =>
    obtain ⟨drawn, hdrawn, hshows, hfits⟩ := ih fun other hother =>
      hrows other (List.mem_cons_of_mem _ hother)
    have hrow := hrows row List.mem_cons_self
    have hne : row ≠ [] := by
      rintro rfl
      exact hsome (List.forall₂_nil_right_iff.mp hrow)
    obtain ⟨line, hline, hshown, hcells⟩ := rowLines_of_holds .top narrow_light hne hrow
    refine ⟨line :: drawn, by rw [List.flatMap_cons, hline, hdrawn]; rfl, .cons hshown hshows, ?_⟩
    rw [List.forall_mem_cons, hrow.length_eq]
    exact ⟨hcells, hrow.length_eq ▸ hfits⟩

/-- The title and the lines of a table with room: rules around the line of its headers, and one
line for each row, in the order of the rows. -/
theorem Regular.lines_of_room (hregular : table.Regular)
    (hroom : total table.naturalWidths + (table.headers.length + 1) ≤ room) :
    ∃ title head drawn, table.lines room = title ++
        rule '┏' '┳' '┓' '━' table.naturalWidths :: head ::
        rule '┡' '╇' '┩' '━' table.naturalWidths :: drawn ++
        [rule '└' '┴' '┘' '─' table.naturalWidths] ∧
      Shows '┃' table.headers head ∧ List.Forall₂ (Shows '│') table.rows drawn := by
  have hwidths := hregular.widths_of_room (Nat.le_sub_of_add_le hroom)
  have hlength : table.naturalWidths.length = table.headers.length := by
    simp [naturalWidths, columns]
  have hne : table.naturalWidths ≠ [] := by
    rw [← List.length_pos_iff, hlength]
    exact List.length_pos_iff.mpr hregular.headed
  obtain ⟨head, hhead, hheadShown, hheadFits⟩ := rowLines_of_holds .bottom narrow_heavy
    hregular.headed (hregular.holds List.mem_cons_self)
  obtain ⟨drawn, hdrawn, hshown, hfits⟩ := rows_of_holds hne fun row hrow =>
    hregular.holds (List.mem_cons_of_mem _ hrow)
  rw [hlength] at hfits
  -- no line but those of the title can be wider than the console
  let clip (line : List Char) := if cells line ≤ room then line else fitCells room line
  have hkept {line : List Char} (hline : cells line ≤ room) : clip line = line := if_pos hline
  have hrule {left between right piece : Char}
      (hpieces : [left, between, right, piece] ⊆ pieces) :
      clip (rule left between right piece table.naturalWidths) =
        rule left between right piece table.naturalWidths := by
    refine hkept (le_trans (le_of_eq ?_) hroom)
    rw [cells_rule hpieces hne, hlength]
  have hrows : drawn.map clip = drawn :=
    (List.map_congr_left fun line hline => hkept ((hfits line hline).trans hroom)).trans
      (List.map_id' drawn)
  refine ⟨(centred (total table.naturalWidths + (table.headers.length + 1)) table.title).map clip,
    head, drawn, ?_, hheadShown, hshown⟩
  change (_ : List (List Char)).map clip = _
  rw [hwidths, hhead, hdrawn]
  simp only [List.map_append, List.map_cons, List.map_nil, hrows, hkept (hheadFits.trans hroom),
    hrule (by decide : ['┏', '┳', '┓', '━'] ⊆ pieces),
    hrule (by decide : ['┡', '╇', '┩', '━'] ⊆ pieces),
    hrule (by decide : ['└', '┴', '┘', '─'] ⊆ pieces)]
  simp

end Unscramble.Table
