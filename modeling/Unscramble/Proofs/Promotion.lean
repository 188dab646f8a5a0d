import Mathlib
import Unscramble.Proofs.Removal
import Unscramble.Step

/-!
# Bringing output back

Promoting an artifact moves one entry that is no directory over the file, or
throws an empty one away.  Nothing else on the disk changes.
-/

namespace Unscramble

variable {σ : Type}

open Disk

/-- The last part of a promotion, once nothing is in the way. -/
def moveOver (artifact target : Path) : Act σ Bool := do
  match (← get).disk.rename artifact target with
  | .ok disk => modify fun w => { w with disk }
  | .error why =>
    throw (.refused why (some artifact.toString) (some target.toString))
  return true

theorem moveOver_run (artifact target : Path) (w : World σ) :
    moveOver artifact target w =
      match w.disk.rename artifact target with
      | .ok disk => .ok true { w with disk }
      | .error why =>
        .error (.refused why (some artifact.toString) (some target.toString)) w := by
  unfold moveOver
  rw [Act.bind_of_ok (rfl : (get : Act σ (World σ)) w = .ok w w)]
  cases w.disk.rename artifact target <;> rfl

section Run

variable {artifact target : Path} {w : World σ}

theorem promote_of_no_file (hfile : w.disk.isFile artifact = .ok false) :
    (promote artifact target : Act σ Bool) w = .ok false w := by
  unfold promote
  rw [Act.bind_of_ok (Act.ask_of_ok hfile)]
  rfl

theorem promote_of_refused {why : Refusal} (hfile : w.disk.isFile artifact = .error why) :
    (promote artifact target : Act σ Bool) w =
      .error (.refused why (some artifact.toString) none) w := by
  unfold promote
  rw [Act.bind_of_error (Act.ask_of_error hfile)]

theorem promote_of_unanswered {why : Refusal} (hfile : w.disk.isFile artifact = .ok true)
    (hempty : w.disk.isEmptyFile artifact = .ok false)
    (hpresent : w.disk.present target = .error why) :
    (promote artifact target : Act σ Bool) w =
      .error (.refused why (some target.toString) none) w := by
  unfold promote
  rw [Act.bind_of_ok (Act.ask_of_ok hfile)]
  refine (Act.bind_of_ok (Act.ask_of_ok hempty)).trans ?_
  exact Act.bind_of_error (Act.ask_of_error hpresent)

theorem promote_of_empty (target : Path) (hfile : w.disk.isFile artifact = .ok true)
    (hempty : w.disk.isEmptyFile artifact = .ok true) :
    (promote artifact target : Act σ Bool) w =
      (Act.change Disk.unlink artifact >>= fun _ => pure false) w := by
  unfold promote
  rw [Act.bind_of_ok (Act.ask_of_ok hfile)]
  exact Act.bind_of_ok (Act.ask_of_ok hempty)

theorem promote_of_present (hfile : w.disk.isFile artifact = .ok true)
    (hempty : w.disk.isEmptyFile artifact = .ok false)
    (hpresent : w.disk.present target = .ok true) :
    (promote artifact target : Act σ Bool) w =
      (Act.change Disk.unlink target >>= fun _ => moveOver artifact target) w := by
  unfold promote
  rw [Act.bind_of_ok (Act.ask_of_ok hfile)]
  refine (Act.bind_of_ok (Act.ask_of_ok hempty)).trans ?_
  exact Act.bind_of_ok (Act.ask_of_ok hpresent)

theorem promote_of_absent (hfile : w.disk.isFile artifact = .ok true)
    (hempty : w.disk.isEmptyFile artifact = .ok false)
    (hpresent : w.disk.present target = .ok false) :
    (promote artifact target : Act σ Bool) w = moveOver artifact target w := by
  unfold promote
  rw [Act.bind_of_ok (Act.ask_of_ok hfile)]
  refine (Act.bind_of_ok (Act.ask_of_ok hempty)).trans ?_
  exact Act.bind_of_ok (Act.ask_of_ok hpresent)

end Run

/-! ## What a promotion changes -/

namespace Disk

variable {disk disk' : Disk} {source target path : Path}

theorem unlink_cases (hunlink : disk.unlink path = .ok disk') :
    ∃ loc entry, disk.find .itself path = .ok (.present loc entry) ∧ entry ≠ .directory ∧
      disk' = disk.eraseWithin loc := by
  simp only [unlink, bind, Except.bind] at hunlink
  split at hunlink
  · cases hunlink
  · next found hfind =>
      split at hunlink
      · cases hunlink
      · cases hunlink
      · next loc entry hentry =>
          cases hunlink
          exact ⟨loc, entry, hfind, hentry, rfl⟩
      · cases hunlink

/-- What a path for an entry that is no directory leads to. -/
def Free (disk : Disk) (path : Path) (loc : Loc) : Prop :=
  disk.find .itself path = .ok (.vacant loc) ∨
    ∃ entry, disk.find .itself path = .ok (.present loc entry) ∧ entry ≠ .directory

/-- A renaming takes an entry that is no directory to a free place, or leaves it where it is. -/
theorem rename_eq (hsource : ∀ loc, disk.find .itself source ≠ .ok (.present loc .directory))
    (hrename : disk.rename source target = .ok disk') :
    ∃ a b entry, disk.find .itself source = .ok (.present a entry) ∧ entry ≠ .directory ∧
      disk.Free target b ∧ disk' = if a = b then disk else disk.move a b entry := by
  simp only [rename, bind, Except.bind] at hrename
  split at hrename
  · cases hrename
  next found hfound =>
  split at hrename
  · cases hrename
  next goal hgoal =>
  by_cases hunnamed : endsUnnamed source = true ∨ endsUnnamed target = true
  · simp only [if_pos hunnamed] at hrename
    cases hrename
  simp only [if_neg hunnamed] at hrename
  rcases found with ⟨a, entry⟩ | a | _
  · have hentry : entry ≠ .directory := by
      rintro rfl
      exact hsource a hfound
    have hmove (b : Loc) (hfree : disk.Free target b)
        (hend : (if a = b then Except.ok disk else .ok (disk.move a b entry)) =
          (.ok disk' : Except Refusal Disk)) :
        ∃ a b entry, disk.find .itself source = .ok (.present a entry) ∧ entry ≠ .directory ∧
          disk.Free target b ∧ disk' = if a = b then disk else disk.move a b entry := by
      refine ⟨a, b, entry, hfound, hentry, hfree, ?_⟩
      split at hend <;> cases hend
      · next hab => rw [if_pos hab]
      · next hab => rw [if_neg hab]
    rcases goal with ⟨b, held⟩ | b | _
    · by_cases hheld : held = .directory
      · subst hheld
        cases entry <;> first | exact absurd rfl hentry | cases hrename
      · refine hmove b (.inr ⟨held, hgoal, hheld⟩) ?_
        cases entry <;> cases held <;>
          first | exact absurd rfl hentry | exact absurd rfl hheld | exact hrename
    · refine hmove b (.inl hgoal) ?_
      cases entry <;> first | exact absurd rfl hentry | exact hrename
    · cases entry <;> cases hrename
  · cases goal <;> cases hrename
  · cases hrename

theorem rename_cases (hsource : ∀ loc, disk.find .itself source ≠ .ok (.present loc .directory))
    (hrename : disk.rename source target = .ok disk') :
    disk' = disk ∨ ∃ a b entry, disk.find .itself source = .ok (.present a entry) ∧
      entry ≠ .directory ∧ disk.Free target b ∧ a ≠ b ∧ disk' = disk.move a b entry := by
  obtain ⟨a, b, entry, hfind, hentry, hfree, rfl⟩ := rename_eq hsource hrename
  split
  · exact .inl rfl
  · next hab => exact .inr ⟨a, b, entry, hfind, hentry, hfree, hab, rfl⟩

/-- What a promotion of `artifact` over `target` leaves. -/
inductive Promoted (artifact target : Path) (disk : Disk) : Disk → Prop
  | unchanged : Promoted artifact target disk disk
  | discarded {loc : Loc} {entry : Entry}
      (hfind : disk.find .itself artifact = .ok (.present loc entry))
      (hentry : entry ≠ .directory) : Promoted artifact target disk (disk.eraseWithin loc)
  | cleared {loc : Loc} {entry : Entry}
      (hfind : disk.find .itself target = .ok (.present loc entry))
      (hentry : entry ≠ .directory) : Promoted artifact target disk (disk.eraseWithin loc)
  | moved {a b : Loc} {entry : Entry}
      (hfind : disk.find .itself artifact = .ok (.present a entry)) (hentry : entry ≠ .directory)
      (hfree : disk.Free target b) (hab : a ≠ b) :
      Promoted artifact target disk (disk.move a b entry)

theorem Sound.erase_entry (hsound : disk.Sound) {loc : Loc} {entry : Entry}
    (hfind : disk.find .itself path = .ok (.present loc entry)) (hentry : entry ≠ .directory) :
    (disk.eraseWithin loc).Sound :=
  hsound.eraseWithin (Tree.ne_nil_of_get? (find_fits hfind) hentry)

/-- What may take a free place does so in a directory. -/
theorem Free.place (hsound : disk.Sound) {loc : Loc} (hfree : disk.Free path loc) :
    ∃ dir name, loc = dir ++ [name] ∧ Path.Ordinary name ∧
      disk.tree.get? dir = some .directory ∧ disk.tree.get? loc ≠ some .directory := by
  rcases hfree with hvacant | ⟨entry, hpresent, hentry⟩
  · obtain ⟨hnone, dir, name, rfl, hname, hdir⟩ := find_fits hvacant
    exact ⟨dir, name, rfl, hname, hdir, by simp [hnone]⟩
  · have hheld := find_fits hpresent
    obtain ⟨dir, name, rfl⟩ :=
      (List.eq_nil_or_concat' loc).resolve_left (Tree.ne_nil_of_get? hheld hentry)
    exact ⟨dir, name, rfl, hsound.named hheld, hsound.closed hheld,
      fun h => hentry (Option.some.inj (hheld.symm.trans h))⟩

theorem Promoted.sound (hsound : disk.Sound) (hpromoted : Promoted source target disk disk') :
    disk'.Sound := by
  cases hpromoted with
  | unchanged => exact hsound
  | discarded hfind hentry => exact hsound.erase_entry hfind hentry
  | cleared hfind hentry => exact hsound.erase_entry hfind hentry
  | moved hfind hentry hfree hab =>
      obtain ⟨dir, name, rfl, hname, hdir, hleaf⟩ := hfree.place hsound
      exact hsound.move (find_fits hfind) hentry hdir hname hleaf

/-- Erasing what a moved entry replaces changes nothing about the move. -/
theorem Sound.move_eraseWithin (hsound : disk.Sound) {a b : Loc} {entry : Entry}
    (hb : disk.tree.get? b ≠ some .directory) :
    (disk.eraseWithin b).move a b entry = disk.move a b entry := by
  have hbnil : b ≠ [] := by
    rintro rfl
    exact hb disk.tree.get?_nil
  have hgone : (disk.eraseWithin b).tree.get? b = none := by
    rw [get?_within _ hbnil, if_pos List.prefix_rfl]
  simp only [Disk.move, (hsound.eraseWithin hbnil).eraseWithin_of_missing hgone]

end Disk

namespace Disk

variable {disk : Disk} {artifact dir : Path} {name : String}

theorem isEmptyFile_of_find {path : Path} {loc : Loc} {bytes : Bytes} {access : Access}
    (hfind : disk.find .followed path = .ok (.present loc (.file bytes access))) :
    disk.isEmptyFile path = .ok (decide (bytes = [])) := by
  simp [isEmptyFile, stat, hfind, bind, Except.bind, pure, Except.pure]

theorem ne_directory_of_isFile {path : Path} (hfile : disk.isFile path = .ok true) (loc : Loc) :
    disk.find .itself path ≠ .ok (.present loc .directory) := by
  intro hfind
  obtain ⟨_, bytes, access, hfollowed⟩ := isFile_eq_true_iff.mp hfile
  rw [find_followed_of_ne_link hfind (by simp)] at hfollowed
  cases hfollowed

/-- The place of a file that has been taken away is the place of its path. -/
theorem Sound.free_after_unlink (hsound : disk.Sound) (hname : Path.Ordinary name) {t b : Loc}
    {held : Entry} (htarget : disk.find .itself (dir.child name) = .ok (.present t held))
    (hheld : held ≠ .directory) (hfree : (disk.eraseWithin t).Free (dir.child name) b) : b = t := by
  have hthin := disk.thinner_eraseWithin (Tree.ne_nil_of_get? (find_fits htarget) hheld)
  rcases hfree with hvacant | ⟨other, hother, -⟩
  · obtain ⟨p, hp, -, ⟨h, -⟩ | ⟨_, h, -⟩⟩ := reached_of_find_child hname hvacant <;> cases h
    obtain ⟨q, hq, -, ⟨h, -⟩ | ⟨_, h, -⟩⟩ := reached_of_find_child hname htarget <;> cases h
    have hback := hthin.directory hsound hp
    rw [hq] at hback
    cases hback
    rfl
  · have hmissing := hsound.missing_eraseWithin hname htarget
    rw [hother] at hmissing
    exact absurd hmissing not_missing_present

/-- What was moved after the file had been taken away could have been moved over it. -/
theorem Sound.moved_after_unlink (hsound : disk.Sound) (hname : Path.Ordinary name)
    {t a b : Loc} {held entry : Entry}
    (htarget : disk.find .itself (dir.child name) = .ok (.present t held))
    (hheld : held ≠ .directory)
    (hfind : (disk.eraseWithin t).find .itself artifact = .ok (.present a entry))
    (hentry : entry ≠ .directory) (hfree : (disk.eraseWithin t).Free (dir.child name) b)
    (hab : a ≠ b) :
    Promoted artifact (dir.child name) disk ((disk.eraseWithin t).move a b entry) := by
  have htnil : t ≠ [] := Tree.ne_nil_of_get? (find_fits htarget) hheld
  have hthin := disk.thinner_eraseWithin htnil
  obtain ⟨old, hold, -⟩ := hthin.present hsound hfind
  have hsame : old = entry := by
    have hafter := find_fits hfind
    rw [Fits, get?_within _ htnil] at hafter
    split at hafter
    · cases hafter
    · exact Option.some.inj ((find_fits hold).symm.trans hafter)
  subst hsame
  obtain rfl := hsound.free_after_unlink hname htarget hheld hfree
  have hleaf : disk.tree.get? b ≠ some .directory := fun h =>
    hheld (Option.some.inj ((find_fits htarget).symm.trans h))
  rw [hsound.move_eraseWithin hleaf]
  exact .moved hold hentry (.inr ⟨held, htarget, hheld⟩) hab

end Disk

/-- The ways in which a promotion can go: nothing happens, an empty artifact is thrown away,
or the place of the target is made free and the artifact is moved there if that can be done. -/
theorem promote_cases (artifact target : Path) (w : World σ) :
    ((promote artifact target : Act σ Bool) w = .ok false w ∨
      ∃ fault, (promote artifact target : Act σ Bool) w = .error fault w) ∨
    (∃ loc access disk', w.disk.find .followed artifact = .ok (.present loc (.file [] access)) ∧
      w.disk.unlink artifact = .ok disk' ∧
        (promote artifact target : Act σ Bool) w = .ok false { w with disk := disk' }) ∨
    ∃ loc bytes access disk',
      w.disk.find .followed artifact = .ok (.present loc (.file bytes access)) ∧ bytes ≠ [] ∧
      (w.disk.present target = .ok false ∧ disk' = w.disk ∨
        w.disk.present target = .ok true ∧ w.disk.unlink target = .ok disk') ∧
      ((∃ disk'', disk'.rename artifact target = .ok disk'' ∧
          (promote artifact target : Act σ Bool) w = .ok true { w with disk := disk'' }) ∨
        ∃ why fault, disk'.rename artifact target = .error why ∧
          (promote artifact target : Act σ Bool) w = .error fault { w with disk := disk' }) := by
  cases hfile : w.disk.isFile artifact with
  | error why => exact .inl (.inr ⟨_, promote_of_refused hfile⟩)
  | ok isFile =>
  cases isFile with
  | false => exact .inl (.inl (promote_of_no_file hfile))
  | true =>
  obtain ⟨loc, bytes, access, hfollowed⟩ := isFile_eq_true_iff.mp hfile
  have hempty := isEmptyFile_of_find hfollowed
  by_cases hbytes : bytes = []
  · subst hbytes
    have hrun := promote_of_empty target hfile (by simpa using hempty)
    cases hunlink : w.disk.unlink artifact with
    | error why =>
        exact .inl (.inr ⟨_, hrun.trans (Act.bind_of_error (Act.change_of_error hunlink))⟩)
    | ok disk' =>
        exact .inr (.inl ⟨loc, access, disk', hfollowed, rfl,
          hrun.trans (Act.bind_of_ok (Act.change_of_ok hunlink))⟩)
  · have hfull : w.disk.isEmptyFile artifact = .ok false := by simpa [hbytes] using hempty
    have hmove {disk' : Disk} (hrun : (promote artifact target : Act σ Bool) w =
        moveOver artifact target { w with disk := disk' }) :
        (∃ disk'', disk'.rename artifact target = .ok disk'' ∧
          (promote artifact target : Act σ Bool) w = .ok true { w with disk := disk'' }) ∨
        ∃ why fault, disk'.rename artifact target = .error why ∧
          (promote artifact target : Act σ Bool) w = .error fault { w with disk := disk' } := by
      rw [moveOver_run] at hrun
      cases hrename : disk'.rename artifact target with
      | error why =>
          rw [hrename] at hrun
          exact .inr ⟨why, _, rfl, hrun⟩
      | ok disk'' =>
          rw [hrename] at hrun
          exact .inl ⟨disk'', rfl, hrun⟩
    cases hpresent : w.disk.present target with
    | error why => exact .inl (.inr ⟨_, promote_of_unanswered hfile hfull hpresent⟩)
    | ok present =>
    cases present with
    | false =>
        exact .inr (.inr ⟨loc, bytes, access, w.disk, hfollowed, hbytes, .inl ⟨rfl, rfl⟩,
          hmove (promote_of_absent hfile hfull hpresent)⟩)
    | true =>
        have hrun := promote_of_present hfile hfull hpresent
        cases hunlink : w.disk.unlink target with
        | error why =>
            exact .inl (.inr ⟨_, hrun.trans (Act.bind_of_error (Act.change_of_error hunlink))⟩)
        | ok disk' =>
            exact .inr (.inr ⟨loc, bytes, access, disk', hfollowed, hbytes, .inr ⟨rfl, rfl⟩,
              hmove (hrun.trans (Act.bind_of_ok (Act.change_of_ok hunlink)))⟩)

theorem find_itself_ne_directory {disk : Disk} {path : Path} {loc : Loc} {bytes : Bytes}
    {access : Access} (hfile : disk.find .followed path = .ok (.present loc (.file bytes access)))
    (p : Loc) : disk.find .itself path ≠ .ok (.present p .directory) :=
  ne_directory_of_isFile (isFile_eq_true_iff.mpr ⟨loc, bytes, access, hfile⟩) p

/-- A promotion touches the disk only, and there nothing but the two entries. -/
theorem promote_final (artifact dir : Path) {name : String} {w : World σ}
    (hsound : w.disk.Sound) (hname : Path.Ordinary name) :
    ∃ disk', (promote artifact (dir.child name) : Act σ Bool).final w = { w with disk := disk' } ∧
      Promoted artifact (dir.child name) w.disk disk' := by
  rcases promote_cases artifact (dir.child name) w with (hrun | ⟨fault, hrun⟩) |
    ⟨loc, access, disk', hfile, hunlink, hrun⟩ |
      ⟨loc, bytes, access, disk', hfile, -, hfirst, hmove⟩
  · exact ⟨w.disk, Act.final_of_ok hrun, .unchanged⟩
  · exact ⟨w.disk, Act.final_of_error hrun, .unchanged⟩
  · obtain ⟨a, entry, hfind, hentry, rfl⟩ := unlink_cases hunlink
    exact ⟨_, Act.final_of_ok hrun, .discarded hfind hentry⟩
  have hsource := find_itself_ne_directory hfile
  rcases hfirst with ⟨-, rfl⟩ | ⟨-, hunlink⟩
  · rcases hmove with ⟨disk'', hrename, hrun⟩ | ⟨why, fault, hrename, hrun⟩
    · refine ⟨disk'', Act.final_of_ok hrun, ?_⟩
      rcases rename_cases hsource hrename with rfl | ⟨a, b, entry, hfind, hentry, hfree, hab, rfl⟩
      · exact .unchanged
      · exact .moved hfind hentry hfree hab
    · exact ⟨w.disk, Act.final_of_error hrun, .unchanged⟩
  · obtain ⟨t, held, htarget, hheld, rfl⟩ := unlink_cases hunlink
    have hthin := w.disk.thinner_eraseWithin (Tree.ne_nil_of_get? (find_fits htarget) hheld)
    rcases hmove with ⟨disk'', hrename, hrun⟩ | ⟨why, fault, hrename, hrun⟩
    · refine ⟨disk'', Act.final_of_ok hrun, ?_⟩
      rcases rename_cases (fun p hfind => hsource p (hthin.directory hsound hfind)) hrename with
        rfl | ⟨a, b, entry, hfind, hentry, hfree, hab, rfl⟩
      · exact .cleared htarget hheld
      · exact hsound.moved_after_unlink hname htarget hheld hfind hentry hfree hab
    · exact ⟨_, Act.final_of_error hrun, .cleared htarget hheld⟩

end Unscramble
