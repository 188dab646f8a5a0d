import Unscramble.Proofs.Attempt

/-!
# Going from file to file

What a report and every visit stay within, a whole tour stays within.  So a run over
targets is a row of visits with nothing between them but reports, and what holds of a
visit holds of each of them.
-/

namespace Unscramble

open Disk

variable {σ : Type}

section Within

variable {R : World σ → World σ → Prop} [IsPreorder (World σ) R]

/-- What the visits of a scan stay within, the scan stays within. -/
theorem Scan.within_foldM {β : Type} {rules : Rules} {visit : β → Path → Act σ β}
    (hvisit : ∀ acc path, (visit acc path).Within R) (depth : Nat) (dir : Path) (acc : β) :
    (foldM Act.look rules visit depth dir acc : Act σ β).Within R := by
  induction depth generalizing dir acc with
  | zero =>
    unfold foldM
    exact Act.within_look _
  | succ depth ih =>
    unfold foldM
    refine Act.within_bind (Act.within_look _) fun entries =>
      Act.within_foldlM (fun entry _ acc => ?_) acc
    split
    · split
      · exact Act.within_pure acc
      · exact ih _ acc
    · refine Act.within_bind (Act.within_look _) fun script => ?_
      split
      · exact hvisit acc _
      · exact Act.within_pure acc

namespace Tour

variable {tour : Tour σ}
  (hsay : ∀ level message, (tour.reporter.say level message : Act σ Unit).Within R)
  (hvisit : ∀ outcomes file, (tour.visit outcomes file).Within R)

include hsay hvisit

theorem within_directory (directory : Path) : (tour.directory directory).Within R :=
  Act.within_bind (Act.within_look _) fun _ => Act.within_bind (hsay _ _) fun _ =>
    Act.within_bind (Scan.within_foldM hvisit _ _ _) fun _ =>
      Act.within_bind (hsay _ _) fun _ => Act.within_pure _

theorem within_target (target : Path) : (tour.target target).Within R := by
  unfold Tour.target
  refine Act.within_bind (Act.within_look _) fun present => ?_
  cases present with
  | false => exact Act.within_bind (hsay _ _) fun _ => Act.within_pure _
  | true =>
    refine Act.within_bind (Act.within_look _) fun directory => ?_
    cases directory with
    | true => exact within_directory hsay hvisit target
    | false =>
      refine Act.within_bind (Act.within_look _) fun script => ?_
      cases script with
      | true => exact Act.within_bind (hsay _ _) fun _ => within_directory hsay hvisit _
      | false => exact Act.within_bind (hsay _ _) fun _ => Act.within_pure _

/-- What reports and visits stay within, a tour of targets stays within. -/
theorem within_targets (targets : List Path) : (tour.targets targets).Within R :=
  Act.within_foldlM (fun target _ _ =>
    Act.within_bind (within_target hsay hvisit target) fun _ => Act.within_pure _) []

end Tour

end Within

/-! ## Visits -/

/-- A visit to a file, with the worlds before and after it. -/
structure Visit (σ : Type) where
  file : Path
  before : World σ
  after : World σ

namespace Engine

/-- From one world to another these visits are made, in this order, and nothing else is
done but reporting. -/
inductive Visits (engine : Engine σ) : World σ → List (Visit σ) → World σ → Prop
  | idle {w w' : World σ} (hidle : w.Idle OnlyLogs w') : Visits engine w [] w'
  | visit {w before w' : World σ} {rest : List (Visit σ)} (outcomes : List Outcome) (file : Path)
      (hidle : w.Idle OnlyLogs before)
      (hrest : Visits engine ((engine.visit outcomes file).final before) rest w') :
      Visits engine w (⟨file, before, (engine.visit outcomes file).final before⟩ :: rest) w'

variable {engine : Engine σ} {w w₁ w' : World σ} {visits visits' : List (Visit σ)}

theorem Visits.after_idle (hidle : w.Idle OnlyLogs w₁) (hvisits : engine.Visits w₁ visits w') :
    engine.Visits w visits w' := by
  cases hvisits with
  | idle hidle' => exact .idle (IsTrans.trans _ _ _ hidle hidle')
  | visit outcomes file hidle' hrest =>
    exact .visit outcomes file (IsTrans.trans _ _ _ hidle hidle') hrest

theorem Visits.append (hfirst : engine.Visits w visits w₁) (hsecond : engine.Visits w₁ visits' w') :
    engine.Visits w (visits ++ visits') w' := by
  induction hfirst with
  | idle hidle => exact hsecond.after_idle hidle
  | visit outcomes file hidle _ ih => exact .visit outcomes file hidle (ih hsecond)

/-- A row of visits that all have a property lies between two worlds. -/
def VisitsWith (engine : Engine σ) (P : Visit σ → Prop) (w w' : World σ) : Prop :=
  ∃ visits, engine.Visits w visits w' ∧ ∀ visit ∈ visits, P visit

instance (engine : Engine σ) (P : Visit σ → Prop) :
    IsPreorder (World σ) (engine.VisitsWith P) where
  refl w := ⟨[], .idle (refl w), by simp⟩
  trans w₁ w₂ w₃ := by
    rintro ⟨visits, hvisits, hall⟩ ⟨visits', hvisits', hall'⟩
    exact ⟨visits ++ visits', hvisits.append hvisits', List.forall_mem_append.mpr ⟨hall, hall'⟩⟩

/-- What holds of every visit holds of the visits of a run over targets. -/
theorem processTargets_visitsWith (engine : Engine σ) {P : Visit σ → Prop}
    (hvisit : ∀ outcomes file w, P ⟨file, w, (engine.visit outcomes file).final w⟩)
    (targets : List Path) : (engine.processTargets targets).Within (engine.VisitsWith P) := by
  apply Tour.within_targets
  · intro level message w
    exact ⟨[], .idle (say_idle _ level message w), by simp⟩
  · intro outcomes file w
    refine ⟨_, .visit outcomes file (refl w) (.idle (refl _)), ?_⟩
    intro visit hmem
    obtain rfl := List.mem_singleton.mp hmem
    exact hvisit outcomes file w

end Engine

end Unscramble
