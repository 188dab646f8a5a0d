import Unscramble.Proofs.Action
import Unscramble.Proofs.Console.Plain
import Unscramble.Proofs.Sample
import Unscramble.Proofs.Table
import Unscramble.Summary

/-!
# What the summary shows

The names of files are put into the summary as markup.  A name that holds a tag is shown without
it, or ends the run before anything is shown; every other name is shown as it is, one line for
each outcome, in the order of the outcomes.
-/

namespace Unscramble

open Console Text

variable {σ : Type} {outcome : Outcome} {outcomes : List Outcome} {table : Table}
  {text : List Char}

/-! ## The texts of a row -/

/-- Control characters, and the characters that separate lines and paragraphs. -/
def Text.isControl (c : Char) : Bool :=
  inRanges [(0x0, 0x1F), (0x7F, 0x9F), (0x2028, 0x2029)] c.toNat

def Text.ControlFree (text : List Char) : Prop := ∀ c ∈ text, isControl c = false

instance (text : List Char) : Decidable (Text.ControlFree text) :=
  decidable_of_iff (text.all (!Text.isControl ·) = true) (by simp [Text.ControlFree])

theorem Text.isControl_eq_false_iff {c : Char} : isControl c = false ↔
    0x1F < c.toNat ∧ ¬(0x7F ≤ c.toNat ∧ c.toNat ≤ 0x9F) ∧
      ¬(0x2028 ≤ c.toNat ∧ c.toNat ≤ 0x2029) := by
  simp [isControl, inRanges]

theorem Text.ControlFree.oneLine (hfree : Text.ControlFree text) : Table.OneLine text := by
  intro c hc
  have hcode := Text.isControl_eq_false_iff.mp (hfree c hc)
  constructor
  · rw [Table.endsLine, Bool.eq_false_iff, ne_eq, inRanges_eq_true_iff]
    simp only [List.mem_cons, List.not_mem_nil, or_false, exists_eq_or_imp, exists_eq_left]
    omega
  · rintro rfl
    exact absurd hcode.1 (by decide)

theorem Text.ControlFree.filter_isDropped (hfree : Text.ControlFree text) :
    text.filter (!isDropped ·) = text := by
  refine List.filter_eq_self.mpr fun c hc => ?_
  have hcode := Text.isControl_eq_false_iff.mp (hfree c hc)
  simp only [isDropped, Bool.not_eq_true', Bool.or_eq_false_iff, decide_eq_false_iff_not]
  omega

theorem Text.ControlFree.of_sublist {other : List Char} (hfree : Text.ControlFree text)
    (hsublist : other.Sublist text) : Text.ControlFree other :=
  fun c hc => hfree c (hsublist.subset hc)

theorem Text.controlFree_append {other : List Char} (hfree : Text.ControlFree text)
    (hother : Text.ControlFree other) : Text.ControlFree (text ++ other) := fun c hc =>
  (List.mem_append.mp hc).elim (hfree c) (hother c)

theorem Text.controlFree_toString (n : Nat) : Text.ControlFree (toString n).toList := by
  intro c hc
  have hdigit : c.isDigit = true :=
    Nat.isDigit_of_mem_toDigits (by decide) (by decide) (Nat.toList_repr ▸ hc)
  have hcode : 48 ≤ c.toNat ∧ c.toNat ≤ 57 := by
    simpa [Char.isDigit, UInt32.le_iff_toNat_le] using hdigit
  rw [Text.isControl_eq_false_iff]
  omega

theorem FileStatus.controlFree_mark (status : FileStatus) :
    Text.ControlFree status.mark.toList := by
  cases status <;> decide

theorem Outcome.controlFree_stepCount (outcome : Outcome) :
    Text.ControlFree outcome.stepCount.toList := by
  unfold stepCount
  cases outcome.report with
  | none => decide
  | some report =>
    simp only [String.toList_append]
    exact Text.controlFree_append
      (Text.controlFree_append (Text.controlFree_toString _) (by decide))
      (Text.controlFree_toString _)

/-! ## The table -/

theorem Outcome.row_of_ok {row : List (List Char)}
    (hfree : Text.ControlFree outcome.file.toString.toList) (hrow : outcome.row = .ok row) :
    ∃ shown, render outcome.file.toString.toList = .ok shown ∧ Text.ControlFree shown ∧
      row = [shown, outcome.status.mark.toList, outcome.stepCount.toList] := by
  unfold Outcome.row at hrow
  split at hrow
  · next shown hshown =>
    cases hrow
    have hshownFree := hfree.of_sublist (render_sublist hshown)
    exact ⟨shown, hshown, hshownFree, by rw [hshownFree.filter_isDropped]⟩
  · cases hrow

theorem Outcome.error_of_row {why : Fault} (hrow : outcome.row = .error why) :
    ∃ fault, render outcome.file.toString.toList = .error fault ∧ why = .markup fault := by
  unfold Outcome.row at hrow
  split at hrow
  · cases hrow
  · next fault hfault =>
    cases hrow
    exact ⟨fault, hfault, rfl⟩

theorem rows_of_summaryTable (htable : summaryTable outcomes = .ok table) :
    table.headers = ["File".toList, "Status".toList, "Steps OK".toList] ∧
      List.Forall₂ (fun outcome row => Outcome.row outcome = .ok row) outcomes table.rows := by
  obtain ⟨rows, hrows, hend⟩ := Except.ok_of_bind htable
  cases hend
  exact ⟨rfl, forall₂_of_mapM hrows⟩

/-- The summary has room for its texts if there is enough for the widest. -/
theorem regular_of_summaryTable
    (hfree : ∀ outcome ∈ outcomes, Text.ControlFree outcome.file.toString.toList)
    (htable : summaryTable outcomes = .ok table) : table.Regular := by
  obtain ⟨hheaders, hrows⟩ := rows_of_summaryTable htable
  have hrow {row : List (List Char)} (hmem : row ∈ table.rows) :
      row.length = 3 ∧ ∀ text ∈ row, Text.ControlFree text := by
    obtain ⟨outcome, houtcome, hmade⟩ := exists_of_forall₂ hrows hmem
    obtain ⟨shown, -, hshown, rfl⟩ := Outcome.row_of_ok (hfree outcome houtcome) hmade
    simp only [List.forall_mem_cons]
    exact ⟨rfl, hshown, outcome.status.controlFree_mark, outcome.controlFree_stepCount, nofun⟩
  have hheader : ∀ text ∈ table.headers, Text.ControlFree text ∧ 0 < cells text := by
    rw [hheaders]
    simp only [List.forall_mem_cons]
    exact ⟨⟨by decide, by cbv⟩, ⟨by decide, by cbv⟩, ⟨by decide, by cbv⟩, nofun⟩
  exact {
    headed := by simp [hheaders]
    header := fun text htext => (hheader text htext).2
    even := fun row hmem => by rw [(hrow hmem).1, hheaders]; rfl
    line := by
      rw [List.forall_mem_cons]
      exact ⟨fun text htext => (hheader text htext).1.oneLine,
        fun row hmem text htext => ((hrow hmem).2 text htext).oneLine⟩ }

/-- The columns that the summary takes where no text is wrapped. -/
def summaryWidth (outcomes : List Outcome) : Nat :=
  match summaryTable outcomes with
  | .ok table => Table.total table.naturalWidths + 4
  | .error _ => 0

/-- A line of the summary shows an outcome: its file as the markup of its path shows it, and so
the path itself just where that is plain. -/
def Outcome.ShownAs (outcome : Outcome) (line : List Char) : Prop :=
  ∃ shown, render outcome.file.toString.toList = .ok shown ∧
    (shown = outcome.file.toString.toList ↔ Plain outcome.file.toString.toList) ∧
    Table.Shows '│' [shown, outcome.status.mark.toList, outcome.stepCount.toList] line

/-- A summary of the outcomes: a title and the line of the headers, and then one line for each
outcome in their order. -/
def Summarises (outcomes : List Outcome) (text : String) : Prop :=
  ∃ title head drawn widths, text = String.ofList ((title ++
      Table.rule '┏' '┳' '┓' '━' widths :: head :: Table.rule '┡' '╇' '┩' '━' widths :: drawn ++
      [Table.rule '└' '┴' '┘' '─' widths]).flatMap (· ++ ['\n'])) ∧
    Table.Shows '┃' ["File".toList, "Status".toList, "Steps OK".toList] head ∧
    List.Forall₂ Outcome.ShownAs outcomes drawn

/-- The summary of outcomes shows each of them in one line, if the console is wide enough and no
path holds a control character.  A path that is no proper markup ends the run instead, and before
anything is shown. -/
theorem showSummary_cases {console : Console} {w : World σ}
    (hfree : ∀ outcome ∈ outcomes, Text.ControlFree outcome.file.toString.toList)
    (hwide : summaryWidth outcomes ≤ console.columns) :
    (∃ text, showSummary console outcomes w = .ok () { w with screen := w.screen ++ [text] } ∧
      Summarises outcomes text) ∨
    ∃ outcome ∈ outcomes, ∃ fault, render outcome.file.toString.toList = .error fault ∧
      ¬Plain outcome.file.toString.toList ∧
      showSummary console outcomes w = .error (.markup fault) w := by
  cases htable : summaryTable outcomes with
  | error why =>
    rcases Except.error_of_bind htable with hrows | ⟨rows, -, hend⟩
    · obtain ⟨outcome, houtcome, hrow⟩ := error_of_mapM hrows
      obtain ⟨fault, hfault, rfl⟩ := Outcome.error_of_row hrow
      refine .inr ⟨outcome, houtcome, fault, hfault, fun hplain => ?_, ?_⟩
      · cases hfault.symm.trans (render_eq_self_iff.mpr hplain)
      · rw [showSummary, htable]
        rfl
    · cases hend
  | ok table =>
    obtain ⟨hheaders, hrows⟩ := rows_of_summaryTable htable
    have hroom :
        Table.total table.naturalWidths + (table.headers.length + 1) ≤ console.columns := by
      rw [summaryWidth, htable] at hwide
      rw [hheaders]
      exact hwide
    obtain ⟨title, head, drawn, hlines, hhead, hdrawn⟩ :=
      (regular_of_summaryTable hfree htable).lines_of_room hroom
    refine .inl ⟨_, ?_, title, head, drawn, table.naturalWidths, rfl, hheaders ▸ hhead, ?_⟩
    · rw [showSummary, htable, ← hlines]
      rfl
    · refine forall₂_comp ?_ ((List.forall₂_and_left _ _).mpr ⟨hfree, hrows⟩) hdrawn
      rintro outcome row line ⟨houtcome, hrow⟩ hline
      obtain ⟨shown, hshown, -, rfl⟩ := Outcome.row_of_ok houtcome hrow
      refine ⟨shown, hshown, ?_, hline⟩
      rw [← render_eq_self_iff, hshown, Except.ok.injEq]

section Samples

/-- Outcomes of two files in one directory. -/
def Sample.fared (first second : String) : List Outcome :=
  [{ file := ⟨.here, ["d", first]⟩, status := .deobfuscated,
      report := some { file := ⟨.here, ["d", first]⟩, results := [⟨1, "tidy", true, none, none⟩] } },
    { file := ⟨.here, ["d", second]⟩, status := .clean }]

theorem plain_names_summarised :
    (∀ outcome ∈ Sample.fared "a.js" "(id).js",
      Text.ControlFree outcome.file.toString.toList) ∧
    summaryWidth (Sample.fared "a.js" "(id).js") ≤ Sample.tidying.reporter.console.columns ∧
    ∃ text, showSummary Sample.tidying.reporter.console (Sample.fared "a.js" "(id).js")
        (Sample.world (Sample.disk [])) =
          .ok () { Sample.world (Sample.disk []) with screen := [text] } ∧
      Summarises (Sample.fared "a.js" "(id).js") text := by
  have hfree : ∀ outcome ∈ Sample.fared "a.js" "(id).js",
      Text.ControlFree outcome.file.toString.toList := by decide
  have hwide : summaryWidth (Sample.fared "a.js" "(id).js") ≤
      Sample.tidying.reporter.console.columns := by decide +kernel
  have hplain : ∀ outcome ∈ Sample.fared "a.js" "(id).js",
      render outcome.file.toString.toList = .ok outcome.file.toString.toList := by decide +kernel
  refine ⟨hfree, hwide, ?_⟩
  rcases showSummary_cases hfree hwide with hshown | ⟨outcome, houtcome, fault, hfault, -⟩
  · exact hshown
  · cases hfault.symm.trans (hplain outcome houtcome)

/-- Brackets in a path are taken for markup: a tag is not shown, and one that closes nothing ends
the run. -/
theorem bracketed_name_is_markup :
    (summaryTable (Sample.fared "a.js" "[id].js")).map Table.rows = .ok
        [["d/a.js".toList, "✓".toList, "1/1".toList],
          ["d/.js".toList, "clean".toList, "-".toList]] ∧
      showSummary Sample.tidying.reporter.console
          [{ file := ⟨.here, ["d[", "e].js"]⟩, status := .clean }] (Sample.world (Sample.disk [])) =
        .error (.markup (.unmatched "/e" 1)) (Sample.world (Sample.disk [])) := by
  refine ⟨by decide +kernel, ?_⟩
  have htable : summaryTable [{ file := ⟨.here, ["d[", "e].js"]⟩, status := .clean }] =
      .error (.markup (.unmatched "/e" 1)) := by
    decide +kernel
  rw [showSummary, htable]
  rfl

end Samples

end Unscramble
