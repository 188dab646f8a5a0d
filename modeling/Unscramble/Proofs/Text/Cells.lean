import Mathlib
import Unscramble.Text.Cells

/-!
# Cells of texts put together

What a text takes on a terminal is not the sum of what its parts take: a joiner at the end of
one part hides the first character of the next, and an emoji selector at the start of one widens
the last character before it.  The sum is a bound from above where the next part starts with a
character of one cell, and from below where no part ends with a joiner.
-/

namespace Unscramble.Text

variable {last : Option Char} {s t : List Char} {c : Char} {n : Nat}

/-- A character of one cell that changes nothing about its neighbours. -/
def Narrow (c : Char) : Prop := c ≠ joiner ∧ c ≠ emojiSelector ∧ charCells c = 1

instance (c : Char) : Decidable (Narrow c) :=
  inferInstanceAs (Decidable (c ≠ joiner ∧ c ≠ emojiSelector ∧ charCells c = 1))

theorem narrow_blank : Narrow ' ' := by decide

/-! ## One character -/

theorem cellsAfter_nil : cellsAfter last [] = 0 := by rw [cellsAfter]

theorem cellsAfter_joiner : cellsAfter last (joiner :: s) = cellsAfter last (s.drop 1) := by
  rw [cellsAfter, if_pos rfl]

theorem cellsAfter_selector : cellsAfter last (emojiSelector :: s) =
    (if last.any widens then 1 else 0) + cellsAfter none s := by
  rw [cellsAfter, if_neg (by decide), if_pos rfl]

theorem cellsAfter_other (hjoiner : c ≠ joiner) (hselector : c ≠ emojiSelector) :
    cellsAfter last (c :: s) =
      charCells c + cellsAfter (if charCells c = 0 then last else some c) s := by
  rw [cellsAfter, if_neg hjoiner, if_neg hselector]
  by_cases hzero : charCells c = 0
  · rw [if_pos hzero, if_pos hzero, hzero, Nat.zero_add]
  · rw [if_neg hzero, if_neg hzero]

theorem cellsAfter_narrow (hc : Narrow c) :
    cellsAfter last (c :: s) = 1 + cellsAfter (some c) s := by
  rw [cellsAfter_other hc.1 hc.2.1, hc.2.2, if_neg Nat.one_ne_zero]

/-- Texts are measured character by character, a joiner together with the one it hides. -/
theorem cellsAfter_induction {P : Option Char → List Char → Prop} (nil : ∀ last, P last [])
    (joiner : ∀ last s, P last (s.drop 1) → P last (joiner :: s))
    (selector : ∀ last s, P none s → P last (emojiSelector :: s))
    (other : ∀ last c s, c ≠ Text.joiner → c ≠ emojiSelector →
      P (if charCells c = 0 then last else some c) s → P last (c :: s)) (last s) : P last s := by
  induction last, s using cellsAfter.induct with
  | case1 last => exact nil last
  | case2 last rest ih => exact joiner last rest ih
  | case3 last rest hne ih => exact selector last rest ih
  | case4 last c rest hjoiner hselector hzero ih =>
    exact other last c rest hjoiner hselector (by rwa [if_pos hzero])
  | case5 last c rest hjoiner hselector hzero ih =>
    exact other last c rest hjoiner hselector (by rwa [if_neg hzero])

/-- A character before a text can only widen it. -/
theorem cells_le_cellsAfter (last : Option Char) (s : List Char) : cells s ≤ cellsAfter last s := by
  unfold cells
  induction last, s using cellsAfter_induction with
  | nil => simp [cellsAfter_nil]
  | joiner last s ih => rwa [cellsAfter_joiner, cellsAfter_joiner]
  | selector last s ih =>
    rw [cellsAfter_selector, cellsAfter_selector]
    simp
  | other last c s hjoiner hselector ih =>
    rw [cellsAfter_other hjoiner hselector, cellsAfter_other hjoiner hselector]
    split_ifs at ih ⊢ <;> omega

/-- It widens it by one cell at most. -/
theorem cellsAfter_le_succ (last : Option Char) (s : List Char) :
    cellsAfter last s ≤ 1 + cells s := by
  unfold cells
  induction last, s using cellsAfter_induction with
  | nil => simp [cellsAfter_nil]
  | joiner last s ih => rwa [cellsAfter_joiner, cellsAfter_joiner]
  | selector last s ih =>
    rw [cellsAfter_selector, cellsAfter_selector]
    split <;> simp
  | other last c s hjoiner hselector ih =>
    rw [cellsAfter_other hjoiner hselector, cellsAfter_other hjoiner hselector]
    split_ifs at ih ⊢ <;> omega

/-- A character that no selector widens leaves the next text as it is. -/
theorem cellsAfter_of_not_widens (last : Option Char) (s : List Char)
    (hlast : last.any widens = false) : cellsAfter last s = cells s := by
  unfold cells
  induction last, s using cellsAfter_induction with
  | nil => simp [cellsAfter_nil]
  | joiner last s ih =>
    rw [cellsAfter_joiner, cellsAfter_joiner]
    exact ih hlast
  | selector last s ih =>
    rw [cellsAfter_selector, cellsAfter_selector, hlast, Option.any_none]
  | other last c s hjoiner hselector ih =>
    rw [cellsAfter_other hjoiner hselector, cellsAfter_other hjoiner hselector]
    split_ifs at ih ⊢
    · rw [ih hlast]
    · rfl

theorem cells_blank_cons (s : List Char) : cells (' ' :: s) = 1 + cells s := by
  rw [cells, cellsAfter_narrow narrow_blank, cellsAfter_of_not_widens _ _ (by decide)]

/-! ## Texts put together -/

theorem getLast?_ne_of_cons {d : Char} (hend : (c :: s).getLast? ≠ some d) :
    s.getLast? ≠ some d := by
  cases s with
  | nil => nofun
  | cons e s => simpa using hend

theorem cellsAfter_le_append (last : Option Char) (s t : List Char) :
    cellsAfter last s ≤ cellsAfter last (s ++ t) := by
  induction last, s using cellsAfter_induction with
  | nil => simp [cellsAfter_nil]
  | joiner last s ih =>
    rw [List.cons_append, cellsAfter_joiner, cellsAfter_joiner]
    cases s with
    | nil => simp [cellsAfter_nil]
    | cons c s => exact ih
  | selector last s ih =>
    rw [List.cons_append, cellsAfter_selector, cellsAfter_selector]
    exact Nat.add_le_add_left ih _
  | other last c s hjoiner hselector ih =>
    rw [List.cons_append, cellsAfter_other hjoiner hselector, cellsAfter_other hjoiner hselector]
    exact Nat.add_le_add_left ih _

theorem cells_mono (hstart : s <+: t) : cells s ≤ cells t := by
  obtain ⟨rest, rfl⟩ := hstart
  exact cellsAfter_le_append none s rest

/-- After a text that ends with no joiner, the next text is measured from its start. -/
theorem cellsAfter_append (last : Option Char) (s : List Char) (hend : s.getLast? ≠ some joiner) :
    ∃ last', ∀ t, cellsAfter last (s ++ t) = cellsAfter last s + cellsAfter last' t := by
  induction last, s using cellsAfter_induction with
  | nil last => exact ⟨last, fun t => by rw [List.nil_append, cellsAfter_nil, Nat.zero_add]⟩
  | joiner last s ih =>
    cases s with
    | nil => exact absurd rfl hend
    | cons c s =>
      obtain ⟨last', hlast'⟩ := ih fun hjoiner => by
        cases s with
        | nil => cases hjoiner
        | cons d s => exact hend (by simpa using hjoiner)
      refine ⟨last', fun t => ?_⟩
      rw [List.cons_append, cellsAfter_joiner, cellsAfter_joiner]
      exact hlast' t
  | selector last s ih =>
    obtain ⟨last', hlast'⟩ := ih (getLast?_ne_of_cons hend)
    refine ⟨last', fun t => ?_⟩
    rw [List.cons_append, cellsAfter_selector, cellsAfter_selector, hlast', Nat.add_assoc]
  | other last c s hjoiner hselector ih =>
    obtain ⟨last', hlast'⟩ := ih (getLast?_ne_of_cons hend)
    refine ⟨last', fun t => ?_⟩
    rw [List.cons_append, cellsAfter_other hjoiner hselector, cellsAfter_other hjoiner hselector,
      hlast', Nat.add_assoc]

theorem cells_add_le_append (hend : s.getLast? ≠ some joiner) (t : List Char) :
    cells s + cells t ≤ cells (s ++ t) := by
  obtain ⟨last, hlast⟩ := cellsAfter_append none s hend
  calc cells s + cells t ≤ cells s + cellsAfter last t :=
        Nat.add_le_add_left (cells_le_cellsAfter last t) _
    _ = cells (s ++ t) := (hlast t).symm

/-- A narrow character takes one cell, unless a joiner before it hides it: then what follows is
widened by one cell at most. -/
theorem cellsAfter_append_narrow (hc : Narrow c) (last : Option Char) (s t : List Char) :
    cellsAfter last (s ++ c :: t) ≤ cellsAfter last s + cells (c :: t) := by
  induction last, s using cellsAfter_induction with
  | nil last =>
    rw [List.nil_append, cellsAfter_nil, cells, cellsAfter_narrow hc, cellsAfter_narrow hc,
      Nat.zero_add]
  | joiner last s ih =>
    rw [List.cons_append, cellsAfter_joiner, cellsAfter_joiner]
    cases s with
    | nil =>
      calc cellsAfter last t ≤ 1 + cells t := cellsAfter_le_succ last t
        _ ≤ 1 + cellsAfter (some c) t := Nat.add_le_add_left (cells_le_cellsAfter _ t) 1
        _ = cells (c :: t) := (cellsAfter_narrow hc).symm
        _ ≤ cellsAfter last [] + cells (c :: t) := Nat.le_add_left _ _
    | cons d s => exact ih
  | selector last s ih =>
    rw [List.cons_append, cellsAfter_selector, cellsAfter_selector]
    omega
  | other last d s hjoiner hselector ih =>
    rw [List.cons_append, cellsAfter_other hjoiner hselector, cellsAfter_other hjoiner hselector]
    omega

theorem cells_append_narrow_le (hc : Narrow c) (s t : List Char) :
    cells (s ++ c :: t) ≤ cells s + cells (c :: t) :=
  cellsAfter_append_narrow hc none s t

/-- Narrow characters are counted. -/
theorem cellsAfter_of_narrow (last : Option Char) (hs : ∀ c ∈ s, Narrow c) :
    cellsAfter last s = s.length := by
  induction s generalizing last with
  | nil => exact cellsAfter_nil
  | cons c s ih =>
    rw [cellsAfter_narrow (hs c List.mem_cons_self), List.length_cons, Nat.add_comm,
      ih _ fun d hd => hs d (List.mem_cons_of_mem _ hd)]

theorem cells_blanks (n : Nat) : cells (List.replicate n ' ') = n := by
  rw [cells, cellsAfter_of_narrow none fun c hc => List.eq_of_mem_replicate hc ▸ narrow_blank,
    List.length_replicate]

theorem cells_append_blanks_le (s : List Char) (n : Nat) :
    cells (s ++ List.replicate n ' ') ≤ cells s + n := by
  cases n with
  | zero => simp
  | succ n =>
    calc cells (s ++ List.replicate (n + 1) ' ')
        ≤ cells s + cells (List.replicate (n + 1) ' ') := cells_append_narrow_le narrow_blank s _
      _ = cells s + (n + 1) := by rw [cells_blanks]

theorem cells_fitCells_le (hs : cells s ≤ n) : cells (fitCells n s) ≤ n := by
  rw [fitCells, if_pos hs]
  have := cells_append_blanks_le s (n - cells s)
  omega

end Unscramble.Text
