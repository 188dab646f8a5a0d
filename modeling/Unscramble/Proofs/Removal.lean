import Mathlib
import Unscramble.Proofs.Action
import Unscramble.Proofs.Disk.Query

/-!
# Removing what lies at a path

Removing looks at the entry a path leads to, itself and followed, and takes it
away with all it holds.  On a sound disk this erases one location, unless the path
runs through what is removed: then the way to it is cut off half-way.  Either way
nothing is left at the path.
-/

namespace Unscramble

variable {σ : Type}

namespace Act

open Disk

theorem remove_eq (path : Path) : (remove path : Act σ Bool) =
    ask Disk.isDirectory path >>= fun directory => ask Disk.isLink path >>= fun link =>
      if directory && !link then
        change Disk.clear path >>= fun _ => change Disk.removeDirectory path >>= fun _ => pure true
      else ask Disk.present path >>= fun present => ask Disk.isLink path >>= fun link =>
        if present || link then change Disk.unlink path >>= fun _ => pure true
        else pure false := rfl

variable {path : Path} {w : World σ}

theorem remove_of_missing (hmissing : Missing (w.disk.find .itself path)) :
    (remove path : Act σ Bool) w = .ok false w := by
  have hdirectory : w.disk.isDirectory path = .ok false := ask_of_missing hmissing.followed _
  have hlink : w.disk.isLink path = .ok false := ask_of_missing hmissing _
  have hpresent : w.disk.present path = .ok false := ask_of_missing hmissing.followed _
  rw [remove_eq, bind_of_ok (ask_of_ok hdirectory), bind_of_ok (ask_of_ok hlink)]
  simp only [Bool.false_and, Bool.false_eq_true, if_false]
  rw [bind_of_ok (ask_of_ok hpresent), bind_of_ok (ask_of_ok hlink)]
  rfl

theorem remove_of_file {loc : Loc} {bytes : Bytes} {access : Access}
    (hfind : w.disk.find .itself path = .ok (.present loc (.file bytes access))) :
    (remove path : Act σ Bool) w = .ok true { w with disk := w.disk.eraseWithin loc } := by
  have hfollowed := find_followed_of_ne_link hfind (by simp)
  have hdirectory : w.disk.isDirectory path = .ok false := ask_of_present hfollowed _
  have hlink : w.disk.isLink path = .ok false := ask_of_present hfind _
  have hpresent : w.disk.present path = .ok true := ask_of_present hfollowed _
  have hunlink : w.disk.unlink path = .ok (w.disk.eraseWithin loc) := by
    simp [unlink, hfind, bind, Except.bind]
  rw [remove_eq, bind_of_ok (ask_of_ok hdirectory), bind_of_ok (ask_of_ok hlink)]
  simp only [Bool.false_and, Bool.false_eq_true, if_false]
  rw [bind_of_ok (ask_of_ok hpresent), bind_of_ok (ask_of_ok hlink)]
  simp only [Bool.true_or, if_true]
  rw [bind_of_ok (change_of_ok hunlink)]
  rfl

theorem remove_of_link {loc : Loc} {target : String}
    (hfind : w.disk.find .itself path = .ok (.present loc (.link target)))
    (hpath : w.disk.Resolvable path) :
    (remove path : Act σ Bool) w = .ok true { w with disk := w.disk.eraseWithin loc } := by
  obtain ⟨directory, hdirectory⟩ := hpath.ask (·.kind = .directory)
  obtain ⟨present, hpresent⟩ := hpath.ask fun _ => true
  have hlink : w.disk.isLink path = .ok true := ask_of_present hfind _
  have hunlink : w.disk.unlink path = .ok (w.disk.eraseWithin loc) := by
    simp [unlink, hfind, bind, Except.bind]
  rw [remove_eq, bind_of_ok (ask_of_ok hdirectory), bind_of_ok (ask_of_ok hlink)]
  simp only [Bool.not_true, Bool.and_false, Bool.false_eq_true, if_false]
  rw [bind_of_ok (ask_of_ok hpresent), bind_of_ok (ask_of_ok hlink)]
  simp only [Bool.or_true, if_true]
  rw [bind_of_ok (change_of_ok hunlink)]
  rfl

/-- A path that cannot be resolved is left alone. -/
theorem remove_of_refused {why : Refusal} (hfind : w.disk.find .followed path = .error why)
    (hwhy : why.isAbsence = false) :
    (remove path : Act σ Bool) w = .error (.refused why (some path.toString) none) w := by
  have hdirectory : w.disk.isDirectory path = .error why := ask_of_refused hfind hwhy _
  rw [remove_eq, bind_of_error (ask_of_error hdirectory)]

theorem remove_of_directory {loc : Loc}
    (hfind : w.disk.find .itself path = .ok (.present loc .directory)) :
    (remove path : Act σ Bool) w =
      (change Disk.removeDirectory path >>= fun _ => pure true)
        { w with disk := w.disk.eraseBelow loc } := by
  have hfollowed := find_followed_of_ne_link hfind (by simp)
  have hdirectory : w.disk.isDirectory path = .ok true := ask_of_present hfollowed _
  have hlink : w.disk.isLink path = .ok false := ask_of_present hfind _
  have hclear : w.disk.clear path = .ok (w.disk.eraseBelow loc) := by
    simp [clear, hfind, bind, Except.bind]
  rw [remove_eq, bind_of_ok (ask_of_ok hdirectory), bind_of_ok (ask_of_ok hlink)]
  simp only [Bool.not_false, Bool.and_true, if_true]
  rw [bind_of_ok (change_of_ok hclear)]

/-! ### A name in a directory -/

variable {dir : Path} {name : String}

theorem getLast?_child (dir : Path) (name : String) :
    (dir.child name).parts.getLast? = some name := by
  simp [Path.child]

theorem removeDirectory_child {disk : Disk} {loc : Loc} (hname : Path.Ordinary name)
    (hfind : disk.find .itself (dir.child name) = .ok (.present loc .directory))
    (hempty : disk.tree.listing loc = []) :
    disk.removeDirectory (dir.child name) = .ok (disk.eraseWithin loc) := by
  simp only [Disk.removeDirectory, getLast?_child, hfind, bind, Except.bind]
  rw [if_neg (by simp [hname.2, hempty])]

/-- A directory is erased, unless its path runs through what it held. -/
theorem remove_directory_cases (hsound : w.disk.Sound) (hname : Path.Ordinary name) {loc : Loc}
    (hfind : w.disk.find .itself (dir.child name) = .ok (.present loc .directory)) :
    (remove (dir.child name) : Act σ Bool) w =
        .ok true { w with disk := w.disk.eraseWithin loc } ∨
      (∀ p, (w.disk.eraseBelow loc).find .followed dir ≠ .ok (.present p .directory)) ∧
        ∃ fault, (remove (dir.child name) : Act σ Bool) w =
          .error fault { w with disk := w.disk.eraseBelow loc } := by
  obtain ⟨p, hp, hshort, ⟨h, -⟩ | ⟨_, h, hentry⟩⟩ := reached_of_find_child hname hfind
  · cases h
  cases h
  rw [remove_of_directory hfind]
  by_cases hdir : ∀ q, (w.disk.eraseBelow (p ++ [name])).find .followed dir ≠
      .ok (.present q .directory)
  · obtain ⟨why, hwhy⟩ := find_child_of_not_reached hname hdir
    have hrmdir : (w.disk.eraseBelow (p ++ [name])).removeDirectory (dir.child name) =
        .error why := by
      simp only [Disk.removeDirectory, getLast?_child, hwhy, bind, Except.bind]
    exact .inr ⟨hdir, _, bind_of_error (change_of_error hrmdir)⟩
  · push Not at hdir
    obtain ⟨q, hq⟩ := hdir
    -- the directory is the one that was reached before
    have hback := (w.disk.thinner_eraseBelow (p ++ [name])).directory hsound hq
    rw [hp] at hback
    cases hback
    have hstill : (w.disk.eraseBelow (p ++ [name])).find .itself (dir.child name) =
        .ok (.present (p ++ [name]) .directory) := by
      rw [find_child_of_reached hname hshort (nameable_of_find hfind) hq, get?_below,
        if_neg fun h => h.2 rfl, hentry]
    have hrmdir := removeDirectory_child hname hstill (listing_eraseBelow _ _)
    rw [eraseWithin_eraseBelow] at hrmdir
    exact .inl (bind_of_ok (change_of_ok hrmdir))

/-- The ways to remove what a name leads to: nothing is there, the name cannot be
resolved, the entry is erased, or the way to it is cut off half-way. -/
theorem remove_child_cases (dir : Path) (hsound : w.disk.Sound) (hname : Path.Ordinary name) :
    (Missing (w.disk.find .itself (dir.child name)) ∧
      (remove (dir.child name) : Act σ Bool) w = .ok false w) ∨
    (¬w.disk.Resolvable (dir.child name) ∧
      ∃ fault, (remove (dir.child name) : Act σ Bool) w = .error fault w) ∨
    (∃ loc entry, w.disk.find .itself (dir.child name) = .ok (.present loc entry) ∧
      (remove (dir.child name) : Act σ Bool) w =
        .ok true { w with disk := w.disk.eraseWithin loc }) ∨
    ∃ loc, w.disk.find .itself (dir.child name) = .ok (.present loc .directory) ∧
      (∀ p, (w.disk.eraseBelow loc).find .followed dir ≠ .ok (.present p .directory)) ∧
      ∃ fault, (remove (dir.child name) : Act σ Bool) w =
        .error fault { w with disk := w.disk.eraseBelow loc } := by
  by_cases hpath : w.disk.Resolvable (dir.child name)
  · rcases hpath.present_or_missing hname with ⟨loc, entry, hfind⟩ | hmissing
    · cases entry with
      | file bytes access => exact .inr (.inr (.inl ⟨loc, _, hfind, remove_of_file hfind⟩))
      | link target => exact .inr (.inr (.inl ⟨loc, _, hfind, remove_of_link hfind hpath⟩))
      | directory =>
          refine (remove_directory_cases hsound hname hfind).elim (fun hremove => ?_) fun hcut => ?_
          · exact .inr (.inr (.inl ⟨loc, _, hfind, hremove⟩))
          · exact .inr (.inr (.inr ⟨loc, hfind, hcut⟩))
    · exact .inl ⟨hmissing, remove_of_missing hmissing⟩
  · simp only [Resolvable, not_forall] at hpath
    obtain ⟨why, hfind, hwhy⟩ := hpath
    refine .inr (.inl ⟨fun h => hwhy (h why hfind), _, remove_of_refused hfind ?_⟩)
    simpa using hwhy

end Act

end Unscramble
