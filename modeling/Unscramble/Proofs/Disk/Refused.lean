import Unscramble.Disk.Change
import Unscramble.Proofs.Disk.Thinner

/-!
# What is refused

The system refuses a path with a NUL in a way of its own, which is no fault of the disk.
At any other path a question or a change is refused, if at all, because of what is there.
-/

namespace Unscramble

variable {α : Type}

namespace Disk

variable {tree : Tree} {manner : Manner} {disk : Disk} {path : Path}

theorem walk_ne_nul {jump : Loc → String → List String → Except Refusal Found} {here : Loc}
    {names : List String} (hjump : ∀ dir target rest, jump dir target rest ≠ .error .nul) :
    walk jump tree manner here names ≠ .error .nul := by
  induction names generalizing here with
  | nil => unfold walk; split <;> simp
  | cons name rest ih =>
    unfold walk
    repeat' split
    all_goals first | exact ih | exact hjump _ _ _ | simp

theorem route_ne_nul {links : Nat} {here : Loc} {names : List String} :
    route tree manner links here names ≠ .error .nul := by
  induction links generalizing here names with
  | zero => exact walk_ne_nul fun _ _ _ => by simp
  | succ links ih => exact walk_ne_nul fun _ _ _ => ih

theorem find_ne_nul (hpath : path.hasNul = false) : disk.find manner path ≠ .error .nul := by
  by_cases hnameable : path.Nameable
  · rw [find_of_nameable hnameable]
    unfold reach
    split
    · split
      · exact route_ne_nul
      · simp
      · next hclimb => rw [climb_error hclimb]; simp
    · exact route_ne_nul
  · rw [find_of_not_nameable hnameable, hpath]
    simp

/-- What is asked about what a path leads to, or done with it, is refused as the path is or
because of what it leads to. -/
theorem bind_find_ne_nul {next : Found → Except Refusal α} (hpath : path.hasNul = false)
    (hnext : ∀ found, next found ≠ .error .nul) :
    (disk.find manner path >>= next) ≠ .error .nul := by
  cases hfind : disk.find manner path with
  | error why =>
    intro hwhy
    cases hwhy
    exact find_ne_nul hpath hfind
  | ok found => exact hnext found

theorem ask_ne_nul (hpath : path.hasNul = false) (question : Entry → Bool) :
    disk.ask manner path question ≠ .error .nul := by
  have hstat : disk.stat manner path ≠ .error .nul :=
    bind_find_ne_nul hpath fun found => by cases found <;> simp
  unfold ask
  split
  · simp
  · next why hwhy =>
    split
    · simp
    · intro hnul
      cases hnul
      exact hstat hwhy

theorem clear_ne_nul (hpath : path.hasNul = false) : disk.clear path ≠ .error .nul :=
  bind_find_ne_nul hpath fun found => by split <;> simp

theorem unlink_ne_nul (hpath : path.hasNul = false) : disk.unlink path ≠ .error .nul :=
  bind_find_ne_nul hpath fun found => by split <;> simp

theorem isEmptyFile_ne_nul (hpath : path.hasNul = false) : disk.isEmptyFile path ≠ .error .nul := by
  intro hnul
  simp only [isEmptyFile, stat, bind_assoc] at hnul
  refine bind_find_ne_nul hpath (fun found => ?_) hnul
  rcases found with ⟨-, entry⟩ | _ | _
  · cases entry <;> simp [bind, Except.bind, pure, Except.pure]
  · simp [bind, Except.bind]
  · simp [bind, Except.bind, pure, Except.pure]

theorem rename_ne_nul {source target : Path} (hsource : source.hasNul = false)
    (htarget : target.hasNul = false) : disk.rename source target ≠ .error .nul := by
  refine bind_find_ne_nul hsource fun found => bind_find_ne_nul htarget fun goal => ?_
  by_cases hends : endsUnnamed source = true ∨ endsUnnamed target = true
  · split <;> simp [hends, throw, throwThe, MonadExceptOf.throw, bind, Except.bind]
  · simp only [if_neg hends]
    repeat' split
    all_goals simp

theorem removeDirectory_ne_nul (hpath : path.hasNul = false) :
    disk.removeDirectory path ≠ .error .nul := by
  unfold removeDirectory
  split
  · split <;> simp
  · refine bind_find_ne_nul hpath fun found => ?_
    repeat' split
    all_goals simp

end Disk

end Unscramble
