import Unscramble.Proofs.Text.Cells
import Unscramble.Text.Wrap

/-!
# Lines that fit

A line that is no wider than its room is not broken.  All that can be lost of it are blanks at
its end, where it holds more characters than there are cells.
-/

namespace Unscramble.Text

variable {s line : List Char} {room used start : Nat} {overflow : Overflow}

/-! ## Words -/

theorem firstChunk_append (s : List Char) : (firstChunk s).1 ++ (firstChunk s).2 = s := by
  simp only [firstChunk, List.append_assoc, List.takeWhile_append_dropWhile]

/-- A chunk that is not the last one ends with a blank. -/
theorem isBlank_of_getLast?_firstChunk {c : Char} (hnext : (firstChunk s).2 ≠ [])
    (hlast : (firstChunk s).1.getLast? = some c) : isBlank c = true := by
  unfold firstChunk at hnext hlast
  dsimp only at hnext hlast
  cases hrest : (s.dropWhile isBlank).dropWhile (!isBlank ·) with
  | nil =>
    rw [hrest] at hnext
    exact absurd rfl hnext
  | cons d rest =>
    have hd : isBlank d = true := by
      have := List.head?_dropWhile_not (!isBlank ·) (s.dropWhile isBlank)
      rw [hrest] at this
      simpa using this
    rw [hrest, List.takeWhile_cons_of_pos hd] at hlast
    rw [List.getLast?_append_of_ne_nil _ (List.cons_ne_nil _ _)] at hlast
    rcases List.mem_cons.mp (List.mem_of_getLast? hlast) with rfl | hc
    · exact hd
    · exact List.mem_takeWhile_imp hc

theorem cells_firstChunk_add_le (s : List Char) :
    cells (firstChunk s).1 + cells (firstChunk s).2 ≤ cells s := by
  by_cases hnext : (firstChunk s).2 = []
  · rw [hnext, cells_nil, Nat.add_zero]
    exact cells_mono ⟨_, firstChunk_append s⟩
  · have hend : (firstChunk s).1.getLast? ≠ some joiner := fun hjoiner =>
      absurd (isBlank_of_getLast?_firstChunk hnext hjoiner) (by decide)
    calc cells (firstChunk s).1 + cells (firstChunk s).2
        ≤ cells ((firstChunk s).1 ++ (firstChunk s).2) := cells_add_le_append hend _
      _ = cells s := by rw [firstChunk_append]

theorem trimRight_isPrefix (s : List Char) : trimRight s <+: s :=
  List.rdropWhile_prefix isBlank s

/-! ## No breaks -/

theorem breaks_chunks_of_fits (start used : Nat) (hfits : used + cells s ≤ room) :
    breaks overflow room start used (chunks s) = [] := by
  induction s using chunks.induct generalizing start used with
  | case1 s hword _ ih =>
    have hsplit := cells_firstChunk_add_le s
    have htrim : cells (trimRight (firstChunk s).1) ≤ cells (firstChunk s).1 :=
      cells_mono (trimRight_isPrefix _)
    rw [chunks, dif_pos hword]
    simp only [breaks]
    rw [if_pos (by omega)]
    exact ih _ _ (by omega)
  | case2 s hblank =>
    rw [chunks, dif_neg hblank]
    rfl

theorem expandTabs_of_no_tab (htab : '\t' ∉ line) : expandTabs line = line := by
  have hsplit : line.splitOn '\t' = [line] := by
    refine List.splitOnP_eq_singleton fun c hc => ?_
    simpa using fun heq : c = '\t' => htab (heq ▸ hc)
  rw [expandTabs, hsplit]
  rfl

theorem trimToRoom_isPrefix (room : Nat) (line : List Char) : trimToRoom room line <+: line :=
  List.take_prefix _ _

theorem cutToRoom_of_fits (hfits : cells line ≤ room) : cutToRoom overflow room line = line := by
  rw [cutToRoom.eq_def, if_pos hfits]

/-- Text of one line that fits stays on one line. -/
theorem wrap_of_fits (hline : '\n' ∉ s) (htab : '\t' ∉ s) (hfits : cells s ≤ room) :
    wrap overflow room s = [trimToRoom room s] := by
  have hsplit : s.splitOn '\n' = [s] := by
    refine List.splitOnP_eq_singleton fun c hc => ?_
    simpa using fun heq : c = '\n' => hline (heq ▸ hc)
  have hcut : cells (trimToRoom room s) ≤ room :=
    (cells_mono (trimToRoom_isPrefix room s)).trans hfits
  have hbreaks : breaks overflow room 0 0 (chunks s) = [] :=
    breaks_chunks_of_fits 0 0 (by omega)
  rw [wrap, hsplit, List.flatMap_singleton, wrapLine, expandTabs_of_no_tab htab, hbreaks, divide,
    List.map_singleton, cutToRoom_of_fits hcut]

/-! ## Blanks at the end -/

/-- A text ends with blanks after its last word. -/
theorem trimRight_append (s : List Char) : ∃ blanks, s = trimRight s ++ blanks ∧
    blanks.length = (s.reverse.takeWhile isBlank).length ∧ ∀ c ∈ blanks, isBlank c = true := by
  refine ⟨(s.reverse.takeWhile isBlank).reverse, ?_, List.length_reverse, fun c hc => ?_⟩
  · rw [trimRight, ← List.reverse_append, List.takeWhile_append_dropWhile, List.reverse_reverse]
  · exact List.mem_takeWhile_imp (List.mem_reverse.mp hc)

/-- What is left of a line is its text with blanks after it. -/
theorem trimToRoom_eq (room : Nat) (line : List Char) : ∃ blanks,
    trimToRoom room line = trimRight line ++ blanks ∧ ∀ c ∈ blanks, isBlank c = true := by
  obtain ⟨blanks, hline, hlength, hblank⟩ := trimRight_append line
  have htotal := congrArg List.length hline
  rw [List.length_append] at htotal
  set kept := line.length - min (line.reverse.takeWhile isBlank).length (line.length - room)
    with hkept
  have htext : (trimRight line).length ≤ kept := by omega
  refine ⟨blanks.take (kept - (trimRight line).length), ?_, fun c hc =>
    hblank c (List.mem_of_mem_take hc)⟩
  calc trimToRoom room line = (trimRight line ++ blanks).take kept := by rw [← hline]; rfl
    _ = trimRight line ++ blanks.take (kept - (trimRight line).length) := by
      rw [List.take_append, List.take_of_length_le htext]

end Unscramble.Text
