import Mathlib

/-!
# Results of tests

A result is a value or a fault.  What is made of several results is a value only if all of them
are, and its fault is the fault of one of them.
-/

namespace Unscramble

theorem Except.ok_of_bind {ε α β : Type} {result : Except ε α} {next : α → Except ε β} {value : β}
    (hbind : (result >>= next) = .ok value) :
    ∃ first, result = .ok first ∧ next first = .ok value := by
  cases result with
  | error why => cases hbind
  | ok first => exact ⟨first, rfl, hbind⟩

theorem Except.error_of_bind {ε α β : Type} {result : Except ε α} {next : α → Except ε β} {why : ε}
    (hbind : (result >>= next) = .error why) :
    result = .error why ∨ ∃ value, result = .ok value ∧ next value = .error why := by
  cases result with
  | error other => cases hbind; exact .inl rfl
  | ok value => exact .inr ⟨value, rfl, hbind⟩

theorem Except.eq_ok_of_toOption {ε α : Type} {result : Except ε α} {value : α}
    (hsome : result.toOption = some value) : result = .ok value := by
  cases result with
  | error why => cases hsome
  | ok found =>
    cases hsome
    rfl

theorem Except.exists_ok_of_isOk {ε α : Type} {result : Except ε α} (hok : result.isOk = true) :
    ∃ value, result = .ok value := by
  cases result with
  | error why => cases hok
  | ok value => exact ⟨value, rfl⟩

theorem Except.cases_of_map_eq {ε α β : Type} {f : α → β} {result result' : Except ε α}
    (hmap : result.map f = result'.map f) :
    (∃ why, result = .error why ∧ result' = .error why) ∨
      ∃ value value', result = .ok value ∧ result' = .ok value' ∧ f value = f value' := by
  cases result with
  | error why =>
    cases result' with
    | error why' =>
      cases hmap
      exact .inl ⟨why, rfl, rfl⟩
    | ok value' => cases hmap
  | ok value =>
    cases result' with
    | error why' => cases hmap
    | ok value' => exact .inr ⟨value, value', rfl, rfl, Except.ok.inj hmap⟩

section Lists

variable {ε α β : Type} {items : List α}

theorem forall₂_of_mapM {make : α → Except ε β} {made : List β}
    (hmade : items.mapM make = .ok made) :
    List.Forall₂ (fun item value => make item = .ok value) items made := by
  induction items generalizing made with
  | nil =>
    cases hmade
    exact .nil
  | cons item rest ih =>
    rw [List.mapM_cons] at hmade
    obtain ⟨value, hvalue, hnext⟩ := Except.ok_of_bind hmade
    obtain ⟨others, hothers, hend⟩ := Except.ok_of_bind hnext
    cases hend
    exact .cons hvalue (ih hothers)

theorem exists_of_forall₂ {R : α → β → Prop} {made : List β} (hmade : List.Forall₂ R items made)
    {value : β} (hvalue : value ∈ made) : ∃ item ∈ items, R item value := by
  induction hmade with
  | nil => cases hvalue
  | @cons item _ _ _ hitem _ ih =>
    rcases List.mem_cons.mp hvalue with rfl | hvalue
    · exact ⟨item, List.mem_cons_self, hitem⟩
    · obtain ⟨other, hother, hmade⟩ := ih hvalue
      exact ⟨other, List.mem_cons_of_mem _ hother, hmade⟩

theorem forall₂_comp {γ : Type} {R : α → β → Prop} {S : β → γ → Prop} {T : α → γ → Prop}
    {made : List β} {shown : List γ} (hboth : ∀ item value image, R item value → S value image →
      T item image) (hmade : List.Forall₂ R items made) (hshown : List.Forall₂ S made shown) :
    List.Forall₂ T items shown := by
  induction hmade generalizing shown with
  | nil =>
    cases hshown
    exact .nil
  | cons hitem _ ih =>
    cases hshown with
    | cons hvalue hrest => exact .cons (hboth _ _ _ hitem hvalue) (ih hrest)

theorem error_of_mapM {make : α → Except ε β} {why : ε}
    (herror : items.mapM make = .error why) : ∃ item ∈ items, make item = .error why := by
  induction items with
  | nil => cases herror
  | cons item rest ih =>
    rw [List.mapM_cons] at herror
    rcases Except.error_of_bind herror with hitem | ⟨value, -, hnext⟩
    · exact ⟨item, List.mem_cons_self, hitem⟩
    rcases Except.error_of_bind hnext with hrest | ⟨others, -, hend⟩
    · obtain ⟨other, hother, hwhy⟩ := ih hrest
      exact ⟨other, List.mem_cons_of_mem _ hother, hwhy⟩
    · cases hend

/-- Items at which a fold stands still can be left out. -/
theorem foldlM_filter {step step' : β → α → Except ε β} {keep : α → Bool}
    (hkept : ∀ item ∈ items, keep item = true → ∀ acc, step' acc item = step acc item)
    (hidle : ∀ item ∈ items, keep item = false → ∀ acc, step acc item = .ok acc) (acc : β) :
    (items.filter keep).foldlM step' acc = items.foldlM step acc := by
  induction items generalizing acc with
  | nil => rfl
  | cons item rest ih =>
    obtain ⟨hsame, hkept⟩ := List.forall_mem_cons.mp hkept
    obtain ⟨hstill, hidle⟩ := List.forall_mem_cons.mp hidle
    cases hitem : keep item with
    | true =>
      rw [List.filter_cons_of_pos hitem, List.foldlM_cons, List.foldlM_cons, hsame hitem]
      exact congrArg (step acc item >>= ·) (funext (ih hkept hidle))
    | false =>
      rw [List.filter_cons_of_neg (by simp [hitem]), List.foldlM_cons, hstill hitem]
      exact ih hkept hidle acc

variable {test : α → Except ε (Option β)} {kept : List β}

/-- Items that have no answer can be left out. -/
theorem filterMapM_filter {test' : α → Except ε (Option β)} {keep : α → Bool}
    (hkept : ∀ item ∈ items, keep item = true → test' item = test item)
    (hidle : ∀ item ∈ items, keep item = false → test item = .ok none) :
    (items.filter keep).filterMapM test' = items.filterMapM test := by
  induction items with
  | nil => rfl
  | cons item rest ih =>
    obtain ⟨hsame, hkept⟩ := List.forall_mem_cons.mp hkept
    obtain ⟨hstill, hidle⟩ := List.forall_mem_cons.mp hidle
    cases hitem : keep item with
    | true =>
      rw [List.filter_cons_of_pos hitem, List.filterMapM_cons, List.filterMapM_cons, hsame hitem,
        ih hkept hidle]
    | false =>
      rw [List.filter_cons_of_neg (by simp [hitem]), List.filterMapM_cons, hstill hitem]
      exact ih hkept hidle

theorem ok_of_filterMapM (htest : ∀ item ∈ items, ∃ answer, test item = .ok answer) :
    ∃ kept, items.filterMapM test = .ok kept := by
  induction items with
  | nil => exact ⟨[], rfl⟩
  | cons item rest ih =>
    obtain ⟨answer, hanswer⟩ := htest item List.mem_cons_self
    obtain ⟨others, hothers⟩ := ih fun other hother => htest other (List.mem_cons_of_mem _ hother)
    rw [List.filterMapM_cons, hanswer]
    cases answer with
    | none => exact ⟨others, hothers⟩
    | some found => exact ⟨found :: others, by simp [hothers, bind, Except.bind, pure, Except.pure]⟩

theorem forall_ok_of_filterMapM (hkept : items.filterMapM test = .ok kept) :
    ∀ item ∈ items, ∃ answer, test item = .ok answer := by
  induction items generalizing kept with
  | nil => exact fun item hitem => by cases hitem
  | cons item rest ih =>
    rw [List.filterMapM_cons] at hkept
    obtain ⟨answer, hanswer, hnext⟩ := Except.ok_of_bind hkept
    refine List.forall_mem_cons.mpr ⟨⟨answer, hanswer⟩, ?_⟩
    cases answer with
    | none => exact ih hnext
    | some found =>
      obtain ⟨others, hothers, -⟩ := Except.ok_of_bind hnext
      exact ih hothers

/-- Tests that differ only where both have an answer are refused for the same reason. -/
theorem filterMapM_alike {test' : α → Except ε (Option β)} (halike : ∀ item ∈ items, test item = test' item ∨
      ∃ answer answer', test item = .ok answer ∧ test' item = .ok answer') :
    (∃ why, items.filterMapM test = .error why ∧ items.filterMapM test' = .error why) ∨
      ∃ kept kept', items.filterMapM test = .ok kept ∧ items.filterMapM test' = .ok kept' := by
  induction items with
  | nil => exact .inr ⟨[], [], rfl, rfl⟩
  | cons item rest ih =>
    obtain ⟨hitem, hrest⟩ := List.forall_mem_cons.mp halike
    rw [List.filterMapM_cons, List.filterMapM_cons]
    have hboth : (∃ why, test item = .error why ∧ test' item = .error why) ∨
        ∃ answer answer', test item = .ok answer ∧ test' item = .ok answer' := by
      rcases hitem with hsame | hanswers
      · rw [← hsame]
        cases test item with
        | error why => exact .inl ⟨why, rfl, rfl⟩
        | ok answer => exact .inr ⟨answer, answer, rfl, rfl⟩
      · exact .inr hanswers
    rcases hboth with ⟨why, herror, herror'⟩ | ⟨answer, answer', hanswer, hanswer'⟩
    · exact .inl ⟨why, by rw [herror]; rfl, by rw [herror']; rfl⟩
    · rw [hanswer, hanswer']
      rcases ih hrest with ⟨why, herror, herror'⟩ | ⟨kept, kept', hkept, hkept'⟩
      · rw [herror, herror']
        refine .inl ⟨why, ?_, ?_⟩
        · cases answer <;> rfl
        · cases answer' <;> rfl
      · rw [hkept, hkept']
        refine .inr ⟨answer.toList ++ kept, answer'.toList ++ kept', ?_, ?_⟩
        · cases answer <;> rfl
        · cases answer' <;> rfl

theorem Except.join_toOption_eq_some_iff {result : Except ε (Option β)} {value : β} :
    result.toOption.join = some value ↔ result = .ok (some value) := by
  rcases result with why | _ | found <;> simp [Except.toOption]

/-- What is kept is what the items have for an answer. -/
theorem eq_filterMap_of_filterMapM (hkept : items.filterMapM test = .ok kept) :
    kept = items.filterMap fun item => (test item).toOption.join := by
  induction items generalizing kept with
  | nil =>
    cases hkept
    rfl
  | cons item rest ih =>
    rw [List.filterMapM_cons] at hkept
    obtain ⟨answer, hanswer, hnext⟩ := Except.ok_of_bind hkept
    rw [List.filterMap_cons, hanswer]
    cases answer with
    | none => exact ih hnext
    | some found =>
      obtain ⟨others, hothers, hend⟩ := Except.ok_of_bind hnext
      cases hend
      exact congrArg (found :: ·) (ih hothers)

theorem mem_filterMapM_iff {value : β} (hkept : items.filterMapM test = .ok kept) :
    value ∈ kept ↔ ∃ item ∈ items, test item = .ok (some value) := by
  simp only [eq_filterMap_of_filterMapM hkept, List.mem_filterMap,
    Except.join_toOption_eq_some_iff]

theorem pairwise_of_filterMapM {R : α → α → Prop} {S : β → β → Prop}
    (hitems : items.Pairwise R) (hkept : items.filterMapM test = .ok kept)
    (htest : ∀ item other found found', R item other → test item = .ok (some found) →
      test other = .ok (some found') → S found found') : kept.Pairwise S := by
  rw [eq_filterMap_of_filterMapM hkept, List.pairwise_filterMap]
  refine hitems.imp fun {item other} hordered found hfound found' hfound' => ?_
  exact htest item other found found' hordered (Except.join_toOption_eq_some_iff.mp hfound)
    (Except.join_toOption_eq_some_iff.mp hfound')

end Lists

end Unscramble
