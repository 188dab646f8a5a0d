import Mathlib
import Unscramble.Proofs.Disk.Clearing
import Unscramble.Proofs.Preflight

/-!
# Well-formed disks

A disk is well-formed if it is sound and no name on it has a NUL.  Whatever the settings
are, and whatever becomes of a walk, all that the program does to the disk itself keeps it
so.  If the commands do too, the disk is well-formed when the cleanup begins.
-/

namespace Unscramble

open Disk

variable {σ α : Type}

namespace Disk

structure WellFormed (disk : Disk) : Prop where
  sound : disk.Sound
  nulFree : disk.tree.NulFree

variable {disk disk' : Disk} {path source target : Path} {loc : Loc}

theorem WellFormed.thinner (hformed : disk.WellFormed) (hsound : disk'.Sound)
    (hthin : disk'.Thinner disk) : disk'.WellFormed :=
  ⟨hsound, NulFree.thinner hformed.nulFree hthin⟩

theorem WellFormed.noted (hformed : disk.WellFormed) (lines : List String) :
    (disk.noted lines).WellFormed :=
  hformed.thinner (hformed.sound.noted lines)
    (.of_shape (disk.shape_noted lines) (disk.noted_places lines).1)

/-- A name that is free can be told to the system. -/
theorem Sound.nulFree_of_vacant (hsound : disk.Sound) {dir : Loc} {name : String}
    (hvacant : disk.find .itself path = .ok (.vacant (dir ++ [name]))) :
    '\x00' ∉ name.toList := by
  have hname := hsound.ordinary_of_find hvacant nofun nofun
  have hnul := (nameable_of_find hvacant).1
  rw [← Path.child_parent (Path.ordinary_ne_empty hname)] at hvacant hnul
  obtain ⟨p, -, -, ⟨h, -⟩ | ⟨_, h, -⟩⟩ := reached_of_find_child hname hvacant
  · obtain ⟨-, hlast⟩ := List.append_inj' (Found.vacant.inj h) rfl
    rw [List.singleton_inj.mp hlast]
    rw [Path.hasNul_child, Bool.or_eq_false_iff] at hnul
    simpa using hnul.2
  · cases h

theorem WellFormed.makeDirectory (hformed : disk.WellFormed)
    (hmake : disk.makeDirectory path = .ok disk') : disk'.WellFormed := by
  refine ⟨hformed.sound.makeDirectory hmake, fun dir name entry hentry => ?_⟩
  unfold Disk.makeDirectory at hmake
  cases hfind : disk.find .itself path with
  | error why => rw [hfind] at hmake; cases hmake
  | ok found =>
      rw [hfind] at hmake
      cases found with
      | present loc entry => cases hmake
      | removed => cases hmake
      | vacant loc =>
          cases hmake
          obtain ⟨-, p, last, rfl, -, -⟩ := find_fits hfind
          rw [get?_insert _ (by simp)] at hentry
          split at hentry
          · next hplace =>
              rw [List.singleton_inj.mp (List.append_inj' hplace rfl).2]
              exact hformed.sound.nulFree_of_vacant hfind
          · exact hformed.nulFree dir name entry hentry

theorem WellFormed.unlink (hformed : disk.WellFormed) (hunlink : disk.unlink path = .ok disk') :
    disk'.WellFormed := by
  obtain ⟨loc, entry, hfind, hentry, rfl⟩ := unlink_cases hunlink
  have hloc := Tree.ne_nil_of_get? (find_fits hfind) hentry
  exact hformed.thinner (hformed.sound.eraseWithin hloc) (disk.thinner_eraseWithin hloc)

/-- Nothing is left of a disk without its root but the root. -/
theorem wellFormed_eraseWithin_nil (disk : Disk) : (disk.eraseWithin []).WellFormed := by
  have hget (q : Loc) : (disk.eraseWithin []).tree.get? q = if q = [] then some .directory else none := by
    have hempty : (disk.eraseWithin []).tree = ∅ := by
      simp [Disk.eraseWithin, Tree.eraseWithin]
      rfl
    rw [hempty]
    rfl
  have hplace (place : Standpoint) : (place.within []).above = [] := by
    simp [Standpoint.within]
  refine ⟨?_, ?_⟩
  · constructor
    case rooted => simp [Disk.eraseWithin, Tree.eraseWithin, Tree.Rooted]
    case closed => simp [hget]
    case named => simp [hget]
    case working => simp [Disk.eraseWithin, hplace]
    case waiting => simp [Disk.eraseWithin, hplace]
    case logging => simp [Disk.eraseWithin]
  · simp [Tree.NulFree, hget]

theorem WellFormed.removeDirectory (hformed : disk.WellFormed)
    (hremove : disk.removeDirectory path = .ok disk') : disk'.WellFormed := by
  obtain ⟨loc, rfl⟩ : ∃ loc, disk' = disk.eraseWithin loc := by
    simp only [Disk.removeDirectory, bind, Except.bind] at hremove
    split at hremove
    · cases hremove
    split at hremove
    · cases hremove
    split at hremove
    · split at hremove <;> cases hremove
      exact ⟨_, rfl⟩
    all_goals cases hremove
  by_cases hloc : loc = []
  · subst hloc
    exact wellFormed_eraseWithin_nil disk
  · exact hformed.thinner (hformed.sound.eraseWithin hloc) (disk.thinner_eraseWithin hloc)

theorem WellFormed.clear (hformed : disk.WellFormed) (hclear : disk.clear path = .ok disk') :
    disk'.WellFormed := by
  simp only [Disk.clear, bind, Except.bind] at hclear
  split at hclear
  · cases hclear
  next found hfind =>
  split at hclear <;> cases hclear
  · exact hformed.thinner (hformed.sound.eraseBelow (find_fits hfind)) (disk.thinner_eraseBelow _)
  · exact hformed

/-- A file or a link is given another name. -/
theorem WellFormed.rename (hformed : disk.WellFormed)
    (hsource : ∀ loc, disk.find .itself source ≠ .ok (.present loc .directory))
    (hrename : disk.rename source target = .ok disk') : disk'.WellFormed := by
  rcases rename_cases hsource hrename with rfl | ⟨a, b, entry, hfind, hentry, hfree, -, rfl⟩
  · exact hformed
  obtain ⟨dir, name, rfl, hname, hdir, hleaf⟩ := hfree.place hformed.sound
  refine ⟨hformed.sound.move (find_fits hfind) hentry hdir hname hleaf, fun p n held hheld => ?_⟩
  rw [hformed.sound.get?_move (find_fits hfind) hentry hleaf] at hheld
  split at hheld
  · next hplace =>
      rw [List.singleton_inj.mp (List.append_inj' hplace rfl).2]
      rcases hfree with hvacant | ⟨other, hother, -⟩
      · exact hformed.sound.nulFree_of_vacant hvacant
      · exact hformed.nulFree _ _ other (find_fits hother)
  · split at hheld
    · cases hheld
    · exact hformed.nulFree p n held hheld

end Disk

/-- A well-formed disk stays well-formed. -/
def World.StaysWellFormed (w w' : World σ) : Prop := w.disk.WellFormed → w'.disk.WellFormed

instance : IsPreorder (World σ) World.StaysWellFormed where
  refl _ := id
  trans _ _ _ hab hbc := hbc ∘ hab

/-- Every command leaves a well-formed disk well-formed. -/
def Runner.KeepsWellFormed (runner : Runner σ) : Prop :=
  ∀ command disk tools, disk.WellFormed → (runner command disk tools).2.1.WellFormed

/-! ## The work of the program -/

theorem idle_staysWellFormed {w w' : World σ} (hidle : w.Idle OnlyLogs w') :
    w.StaysWellFormed w' := by
  intro hformed
  obtain ⟨lines, hlines⟩ := hidle.disk
  rw [hlines]
  exact hformed.noted lines

theorem change_staysWellFormed {operation : Disk → Path → Except Refusal Disk} {path : Path}
    (hoperation : ∀ disk disk', disk.WellFormed → operation disk path = .ok disk' →
      disk'.WellFormed) :
    (Act.change operation path : Act σ Unit).Within World.StaysWellFormed := by
  intro w hformed
  cases hdisk : operation w.disk path with
  | ok disk' =>
    rw [Act.final_of_ok (Act.change_of_ok hdisk)]
    exact hoperation _ _ hformed hdisk
  | error why =>
    rw [Act.final_of_error (Act.change_of_error hdisk)]
    exact hformed

theorem promote_staysWellFormed (artifact target : Path) :
    (promote artifact target : Act σ Bool).Within World.StaysWellFormed := by
  intro w hformed
  rcases promote_cases artifact target w with (hrun | ⟨fault, hrun⟩) |
    ⟨-, -, disk', -, hunlink, hrun⟩ | ⟨loc, bytes, access, disk', hfile, -, hfirst, hmove⟩
  · rwa [Act.final_of_ok hrun]
  · rwa [Act.final_of_error hrun]
  · rw [Act.final_of_ok hrun]
    exact hformed.unlink hunlink
  have hsource := find_itself_ne_directory hfile
  obtain ⟨hformed', hsource'⟩ : disk'.WellFormed ∧
      ∀ p, disk'.find .itself artifact ≠ .ok (.present p .directory) := by
    rcases hfirst with ⟨-, rfl⟩ | ⟨-, hunlink⟩
    · exact ⟨hformed, hsource⟩
    · refine ⟨hformed.unlink hunlink, fun p hfind => ?_⟩
      obtain ⟨t, held, htarget, hheld, rfl⟩ := unlink_cases hunlink
      have hthin := w.disk.thinner_eraseWithin (Tree.ne_nil_of_get? (find_fits htarget) hheld)
      exact hsource p (hthin.directory hformed.sound hfind)
  rcases hmove with ⟨disk'', hrename, hrun⟩ | ⟨why, fault, -, hrun⟩
  · rw [Act.final_of_ok hrun]
    exact hformed'.rename hsource' hrename
  · rw [Act.final_of_error hrun]
    exact hformed'

/-- The work on the disk keeps a disk well-formed. -/
theorem wellFormed_covers (reporter : Reporter) :
    World.Covers (World.StaysWellFormed : World σ → World σ → Prop) reporter where
  say level message w := idle_staysWellFormed (say_idle reporter level message w)
  make _ _ _ hmake hformed := hformed.makeDirectory hmake
  remove _ := remove_within (change_staysWellFormed fun _ _ => WellFormed.clear)
    (change_staysWellFormed fun _ _ => WellFormed.removeDirectory)
    (change_staysWellFormed fun _ _ => WellFormed.unlink)
  promote := promote_staysWellFormed

/-! ## A walk -/

section Walk

variable {R : World σ → World σ → Prop} [IsPreorder (World σ) R] {engine : Engine σ}
  (hidle : ∀ w w' : World σ, w.Idle OnlyLogs w' → R w w')
  (hrun : ∀ command, (engine.run command).Within R)

include hidle hrun

/-- What commands and lines in the log stay within, a row of commands stays within. -/
theorem Runner.Ran.within {w w' : World σ} {es : List Exchange}
    (hran : engine.runner.Ran OnlyLogs w es w') : R w w' := by
  induction hran with
  | idle hnone => exact hidle _ _ hnone
  | command hnone _ ih =>
    exact IsTrans.trans _ _ _ (hidle _ _ hnone) (IsTrans.trans _ _ _ (hrun _ _) ih)

namespace Engine

theorem judge_within (file : Path) : (engine.judge file).Within R := by
  intro w
  rcases engine.judge_cases file w with ⟨hfinal, -⟩ | ⟨text, -, hasked⟩
  · rw [hfinal]
    exact refl w
  · cases hasked with
    | missing _ hran _ => exact hran.within hidle hrun
    | answered _ _ hran _ => exact hran.within hidle hrun

theorem visit_within (hcovers : World.Covers R engine.reporter) (outcomes : List Outcome)
    (file : Path) : (engine.visit outcomes file).Within R := by
  intro w
  refine IsTrans.trans _ _ _ ?_ (hidle _ _ (engine.visit_idle outcomes file w))
  split
  · rw [processFile_eq]
    refine Act.within_bind (judge_within hidle hrun file) (fun obfuscated => ?_) w
    cases obfuscated with
    | false => exact Act.within_pure _
    | true =>
      exact Act.within_bind (hcovers.deobfuscate file fun _ _ _ _ => hrun _) fun _ =>
        Act.within_bind (hcovers.say _ _) fun _ => Act.within_pure _
  · exact refl w

/-- What commands, lines in the log and the work on the disk stay within, a walk that is
guarded stays within. -/
theorem guarded_within (hcovers : World.Covers R engine.reporter) (targets : List Path) :
    (engine.guarded targets).Within R := by
  intro w
  refine IsTrans.trans _ _ _ ?_ (hidle _ _ (engine.guarded_idle targets w))
  rw [walk_eq]
  refine Act.within_bind (fun w => ?_) (fun _ => Act.within_bind (hcovers.say _ _) fun _ =>
    Tour.within_targets hcovers.say (visit_within hidle hrun hcovers) targets) w
  obtain ⟨es, hran, -⟩ := engine.preflight_only w
  exact hran.within hidle hrun

end Engine

end Walk

/-- A disk that is well-formed in the beginning is so when the walk has ended, however that
has come about. -/
theorem Engine.guarded_staysWellFormed {engine : Engine σ} (hkeeps : engine.runner.KeepsWellFormed)
    (targets : List Path) : (engine.guarded targets).Within World.StaysWellFormed := by
  refine guarded_within (fun _ _ => idle_staysWellFormed) (fun command w hformed => ?_)
    (wellFormed_covers _) targets
  rw [final_run]
  exact hkeeps command w.disk w.tools hformed

end Unscramble
