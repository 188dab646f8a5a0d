import Mathlib
import Unscramble.Text.Casing

/-!
# Lower case is settled

A text in lower case stays as it is when it is put in lower case once more: no lower form is a
capital.  What comes out for a text does not depend on skipped characters that come before it.
-/

namespace Unscramble.Text

variable {row other : Nat × Nat × Nat × Int} {code : Nat} {c : Char} {s before : List Char}

/-! ## Rows of capitals -/

/-- A row has a capital of this code. -/
def InRow (row : Nat × Nat × Nat × Int) (code : Nat) : Prop :=
  row.1 ≤ code ∧ code ≤ row.2.1 ∧ (code - row.1) % row.2.2.1 = 0

instance (row : Nat × Nat × Nat × Int) (code : Nat) : Decidable (InRow row code) :=
  inferInstanceAs (Decidable (_ ∧ _ ∧ _))

/-- The code of the lower form of a capital in the row. -/
def lowerCode (row : Nat × Nat × Nat × Int) (code : Nat) : Nat := Int.toNat (code + row.2.2.2)

/-- The lower forms of a row lie before the other row, behind it, or between its members. -/
def besides (row other : Nat × Nat × Nat × Int) : Bool :=
  other.2.1 < lowerCode row row.1 || lowerCode row row.2.1 < other.1 ||
    ((row.1 = row.2.1 || row.2.2.1 = 2) && other.2.2.1 = 2 &&
      (lowerCode row row.1 + other.1) % 2 = 1)

theorem besides_of_mem (hrow : row ∈ lowerRows) (hother : other ∈ lowerRows) :
    besides row other = true := by
  have hall : (lowerRows.all fun row => lowerRows.all (besides row)) = true := by decide +kernel
  exact List.all_eq_true.mp (List.all_eq_true.mp hall row hrow) other hother

/-- The lower forms of a row are characters behind the dot, and other than the capital with a lower
form of two. -/
theorem lowerCode_bounds (hrow : row ∈ lowerRows) : '.'.toNat < row.1 + row.2.2.2 ∧
    (lowerCode row row.2.1 < 0xD800 ∨
      0xDFFF < lowerCode row row.1 ∧ lowerCode row row.2.1 < 0x110000) ∧
    (lowerCode row row.2.1 < 'İ'.toNat ∨ 'İ'.toNat < lowerCode row row.1) := by
  revert row
  decide +kernel

theorem not_inRow_lowerCode (hrow : row ∈ lowerRows) (hcode : InRow row code)
    (hother : other ∈ lowerRows) : ¬InRow other (lowerCode row code) := by
  obtain ⟨hfirst, hlast, hstep⟩ := hcode
  obtain ⟨hsize, -, -⟩ := lowerCode_bounds hrow
  have hbesides := besides_of_mem hrow hother
  simp only [besides, Bool.or_eq_true, Bool.and_eq_true, decide_eq_true_eq] at hbesides
  rintro ⟨hfirst', hlast', hstep'⟩
  simp only [lowerCode] at hbesides hfirst' hlast' hstep'
  rcases hbesides with (hbefore | hbehind) | ⟨⟨hrow', hother'⟩, hodd⟩
  · omega
  · omega
  · rw [hother'] at hstep'
    rcases hrow' with hsingle | hrow'
    · omega
    · rw [hrow'] at hstep
      omega

/-! ## Characters -/

/-- A character that is no capital. -/
def Settled (c : Char) : Prop := c ≠ 'İ' ∧ ∀ row ∈ lowerRows, ¬InRow row c.toNat

instance (c : Char) : Decidable (Settled c) := inferInstanceAs (Decidable (_ ∧ _))

theorem lowerChar_cases (c : Char) : lowerChar c = c ∧ (∀ row ∈ lowerRows, ¬InRow row c.toNat) ∨
    ∃ row ∈ lowerRows, InRow row c.toNat ∧ lowerChar c = Char.ofNat (lowerCode row c.toNat) := by
  unfold lowerChar
  split
  · next row hfind =>
    have hrow := List.find?_some hfind
    simp only [Bool.and_eq_true, decide_eq_true_eq, beq_iff_eq] at hrow
    exact .inr ⟨row, List.mem_of_find?_eq_some hfind, ⟨hrow.1.1, hrow.1.2, hrow.2⟩, rfl⟩
  · next hfind =>
    refine .inl ⟨rfl, fun row hrow ⟨hfirst, hlast, hstep⟩ => ?_⟩
    have hnone := List.find?_eq_none.mp hfind row hrow
    simp [hfirst, hlast, hstep] at hnone

theorem lowerChar_of_settled (hsettled : Settled c) : lowerChar c = c := by
  rcases lowerChar_cases c with ⟨hsame, -⟩ | ⟨row, hrow, hcode, -⟩
  · exact hsame
  · exact absurd hcode (hsettled.2 row hrow)

theorem ne_of_settled (hsettled : Settled c) : c ≠ 'Σ' := by
  rintro rfl
  exact hsettled.2 (0x3A3, 0x3AB, 1, 32) (by decide) ⟨by decide, by decide, by decide⟩

theorem lowerCode_mem (hcode : InRow row code) : lowerCode row row.1 ≤ lowerCode row code ∧
    lowerCode row code ≤ lowerCode row row.2.1 := by
  obtain ⟨hfirst, hlast, -⟩ := hcode
  unfold lowerCode
  omega

theorem toNat_lowerCode (hrow : row ∈ lowerRows) (hcode : InRow row code) :
    (Char.ofNat (lowerCode row code)).toNat = lowerCode row code := by
  obtain ⟨hleft, hright⟩ := lowerCode_mem hcode
  obtain ⟨-, hvalid, -⟩ := lowerCode_bounds hrow
  have hchar : (lowerCode row code).isValidChar := by
    unfold Nat.isValidChar
    omega
  rw [Char.toNat_ofNat, if_pos hchar]

theorem settled_lowerChar (hc : c ≠ 'İ') : Settled (lowerChar c) := by
  rcases lowerChar_cases c with ⟨hsame, hnone⟩ | ⟨row, hrow, hcode, hlower⟩
  · rw [hsame]
    exact ⟨hc, hnone⟩
  · have hchar := toNat_lowerCode hrow hcode
    obtain ⟨hleft, hright⟩ := lowerCode_mem hcode
    obtain ⟨-, -, hdotted⟩ := lowerCode_bounds hrow
    rw [hlower]
    refine ⟨fun heq => ?_, fun other hother => ?_⟩
    · rw [heq] at hchar
      omega
    · rw [hchar]
      exact not_inRow_lowerCode hrow hcode hother

/-- No other character has a dot for its lower form. -/
theorem lowerChar_eq_dot_iff : lowerChar c = '.' ↔ c = '.' := by
  rcases lowerChar_cases c with ⟨hsame, -⟩ | ⟨row, hrow, hcode, hlower⟩
  · rw [hsame]
  · obtain ⟨hleft, -⟩ := lowerCode_mem hcode
    obtain ⟨hdot, -⟩ := lowerCode_bounds hrow
    refine iff_of_false (fun heq => ?_) fun heq => ?_
    · have hchar := toNat_lowerCode hrow hcode
      rw [← hlower, heq] at hchar
      unfold lowerCode at hleft hchar
      omega
    · subst heq
      have hnone : ∀ row ∈ lowerRows, ¬InRow row '.'.toNat := by decide +kernel
      exact hnone row hrow hcode

/-! ## Texts -/

theorem settled_of_mem_lowerFrom (hc : c ∈ lowerFrom before s) : Settled c := by
  induction s generalizing before with
  | nil => cases hc
  | cons first rest ih =>
    rcases List.mem_append.mp hc with hform | hrest
    · have hsingle {d : Char} (hd : Settled d) (hmem : c ∈ [d]) : Settled c :=
        List.mem_singleton.mp hmem ▸ hd
      split at hform
      · split at hform
        · exact hsingle (by decide +kernel) hform
        · exact hsingle (by decide +kernel) hform
      split at hform
      · rcases List.mem_cons.mp hform with rfl | hform
        · decide +kernel
        · exact hsingle (by decide +kernel) hform
      · next hdotted => exact hsingle (settled_lowerChar hdotted) hform
    · exact ih hrest

theorem lowerFrom_of_settled (hsettled : ∀ c ∈ s, Settled c) : lowerFrom before s = s := by
  induction s generalizing before with
  | nil => rfl
  | cons first rest ih =>
    obtain ⟨hfirst, hrest⟩ := List.forall_mem_cons.mp hsettled
    simp only [lowerFrom, if_neg (ne_of_settled hfirst), if_neg hfirst.1,
      lowerChar_of_settled hfirst, ih hrest, List.cons_append, List.nil_append]

/-- Lower case is final. -/
theorem lower_lower (s : List Char) : lower (lower s) = lower s :=
  lowerFrom_of_settled fun _ hc => settled_of_mem_lowerFrom hc

theorem meetsCased_append (hskipped : isCaseIgnorable c = true) (before : List Char) :
    meetsCased (before ++ [c]) = meetsCased before := by
  unfold meetsCased
  rw [List.dropWhile_append, List.dropWhile_cons_of_pos hskipped]
  cases before.dropWhile isCaseIgnorable <;> rfl

/-- Characters that are skipped when a word is looked at may come before a text. -/
theorem lowerFrom_append (hskipped : isCaseIgnorable c = true) (before s : List Char) :
    lowerFrom (before ++ [c]) s = lowerFrom before s := by
  induction s generalizing before with
  | nil => rfl
  | cons first rest ih =>
    simp only [lowerFrom, meetsCased_append hskipped, ← List.cons_append, ih]

theorem dot_mem_lowerFrom_iff : '.' ∈ lowerFrom before s ↔ '.' ∈ s := by
  induction s generalizing before with
  | nil => rfl
  | cons first rest ih =>
    rw [lowerFrom, List.mem_append, ih, List.mem_cons]
    refine or_congr_left ?_
    split
    · next hfirst =>
      subst hfirst
      split <;> decide
    split
    · next hfirst =>
      subst hfirst
      decide
    · rw [List.mem_singleton, eq_comm, lowerChar_eq_dot_iff, eq_comm]

theorem lowerFrom_eq_nil_iff : lowerFrom before s = [] ↔ s = [] := by
  cases s with
  | nil => exact iff_of_true rfl rfl
  | cons first rest =>
    refine iff_of_false (fun hnil => ?_) (List.cons_ne_nil _ _)
    have hform := (List.append_eq_nil_iff.mp hnil).1
    split at hform
    · split at hform <;> cases hform
    · split at hform <;> cases hform

theorem lower_cons_dot (s : List Char) : lower ('.' :: s) = '.' :: lower s := by
  have hlower : lowerFrom [] ('.' :: s) = lowerChar '.' :: lowerFrom ([] ++ ['.']) s := rfl
  rw [lower, hlower, lowerFrom_append (by decide +kernel)]
  rfl

end Unscramble.Text
