import Mathlib
import Unscramble.Proofs.Clearing
import Unscramble.Proofs.WellFormed

/-!
# The final cleanup

However a walk ends, the roots of the job are swept after it, one after the other.  A sweep
makes the disk thinner, so what it has cleared stays clear.  The cleanup is cut short only
at a root about which the system does not tell whether it is a directory.
-/

namespace Unscramble

open Disk

variable {σ : Type} {name : String}

namespace Disk

variable {disk disk' : Disk}

/-- A line is logged, an entry called `name` that leads to a directory is removed with all it
holds, or a directory of that name is emptied. -/
inductive Strips (name : String) (disk : Disk) : Disk → Prop
  | logged (line : String) : Strips name disk (disk.logged line)
  | removed {path : Path} {dir : Loc} {entry : Entry}
      (hfind : disk.find .itself path = .ok (.present (dir ++ [name]) entry))
      (hleads : disk.isDirectory path = .ok true) :
      Strips name disk (disk.eraseWithin (dir ++ [name]))
  | emptied {dir : Loc} (hheld : disk.tree.get? (dir ++ [name]) = some .directory) :
      Strips name disk (disk.eraseBelow (dir ++ [name]))

/-- Nothing has become of the disk but that entries called `name` that lead to directories
have been removed, and lines have been logged. -/
abbrev Stripped (name : String) : Disk → Disk → Prop := Relation.ReflTransGen (Strips name)

theorem Strips.thins (hstrips : Strips name disk disk') (hformed : disk.WellFormed) :
    disk'.WellFormed ∧ disk'.Thinner disk := by
  have hthins (hsound : disk'.Sound) (hthin : disk'.Thinner disk) :
      disk'.WellFormed ∧ disk'.Thinner disk := ⟨hformed.thinner hsound hthin, hthin⟩
  cases hstrips with
  | logged line => exact hthins (hformed.sound.logged line) (disk.thinner_logged line)
  | removed _ _ =>
    exact hthins (hformed.sound.eraseWithin (by simp)) (disk.thinner_eraseWithin (by simp))
  | emptied hheld => exact hthins (hformed.sound.eraseBelow hheld) (disk.thinner_eraseBelow _)

theorem Stripped.thins (hstripped : Stripped name disk disk') (hformed : disk.WellFormed) :
    disk'.WellFormed ∧ disk'.Thinner disk := by
  induction hstripped with
  | refl => exact ⟨hformed, .refl _⟩
  | tail _ hlast ih =>
    obtain ⟨hformed', hthin⟩ := hlast.thins ih.1
    exact ⟨hformed', hthin.trans ih.2⟩

end Disk

/-- Work on a well-formed disk that only strips it. -/
def World.StrippedTo (name : String) (w w' : World σ) : Prop :=
  w.disk.WellFormed → Stripped name w.disk w'.disk

instance (name : String) : IsPreorder (World σ) (World.StrippedTo name) where
  refl _ _ := .refl
  trans _ _ _ hab hbc hformed :=
    have hb := hab hformed
    hb.trans (hbc (hb.thins hformed).1)

section Cleanup

theorem say_strippedTo (reporter : Reporter) (level : Level) (message : String) :
    (reporter.say level message : Act σ Unit).Within (World.StrippedTo name) := by
  intro w _
  rw [Act.final_of_ok (reporter.say_eq level message w)]
  exact .single (.logged _)

/-- What a listing tells to lead to a directory is removed as such. -/
theorem remove_strippedTo {dir : Path} {entries : List (String × Kind)} {w : World σ}
    (hlist : w.disk.list dir = .ok entries)
    (hmem : name ∈ Sweep.directoryNames w.disk dir entries) :
    w.StrippedTo name ((Act.remove (dir.child name) : Act σ Bool).final w) := by
  intro hformed
  obtain ⟨p, held, hp, hheld, hasked⟩ := Sweep.listed_of_mem hformed.sound hlist hmem
  have hname := hformed.sound.named hheld
  rcases Act.remove_child_cases dir hformed.sound hname with
    ⟨-, hremove⟩ | ⟨-, fault, hremove⟩ | ⟨loc, entry, hfind, hremove⟩ |
      ⟨loc, hfind, -, fault, hremove⟩
  · rw [Act.final_of_ok hremove]
  · rw [Act.final_of_error hremove]
  · obtain ⟨q, -, hshort, ⟨h, -⟩ | ⟨_, h, -⟩⟩ := reached_of_find_child hname hfind <;> cases h
    rw [Act.final_of_ok hremove]
    exact .single (.removed hfind (hasked (nameable_of_find hfind) hshort))
  · obtain ⟨q, -, -, ⟨h, -⟩ | ⟨_, h, hdirectory⟩⟩ := reached_of_find_child hname hfind <;> cases h
    rw [Act.final_of_error hremove]
    exact .single (.emptied hdirectory)

theorem sweep_strippedTo (reporter : Reporter) (name : String) (root : Path) :
    (Sweep.sweep reporter name root : Act σ (List Path)).Within (World.StrippedTo name) :=
  sweep_within (fun _ _ _ hlist hmem => Sweep.removeOne_final (say_strippedTo reporter)
    (remove_strippedTo hlist hmem)) root

/-- Sweep one root after the other. -/
def sweepAll (reporter : Reporter) (name : String) (roots : List Path) : Act σ Unit :=
  roots.forM fun root => discard (Sweep.sweep reporter name root)

theorem sweepAll_cons (reporter : Reporter) (name : String) (root : Path) (roots : List Path) :
    (sweepAll reporter name (root :: roots) : Act σ Unit) =
      discard (Sweep.sweep reporter name root) >>= fun _ => sweepAll reporter name roots := rfl

theorem sweepAll_strippedTo (reporter : Reporter) (name : String) (roots : List Path) :
    (sweepAll reporter name roots : Act σ Unit).Within (World.StrippedTo name) :=
  Act.within_forM fun root _ =>
    Act.within_bind (sweep_strippedTo reporter name root) fun _ => Act.within_pure _

variable {reporter : Reporter} {root : Path} {before after : List Path} {base : Loc}
  {w : World σ}

/-- A root that is reached in the end has been cleared, if the system has told of all roots
before it whether they are directories. -/
theorem sweepAll_clears (hformed : w.disk.WellFormed)
    (hbefore : ∀ other ∈ before, w.disk.Resolvable other)
    (hend : ((sweepAll reporter name (before ++ root :: after)).final w).disk.find .followed root =
      .ok (.present base .directory)) :
    Clean root base name [] ((sweepAll reporter name (before ++ root :: after)).final w).disk := by
  induction before generalizing w with
  | nil =>
    have hstripped := sweepAll_strippedTo reporter name (root :: after) w hformed
    have hroot : w.disk.Resolvable root := resolvable_of_found
      ((hstripped.thins hformed).2.directory hformed.sound hend)
    obtain ⟨removed, w₁, hrun, hclears⟩ :=
      Sweep.sweep_clears reporter name hformed.sound hformed.nulFree hroot
    have hformed₁ : w₁.disk.WellFormed := by
      have hfirst := sweep_strippedTo reporter name root w hformed
      rw [Act.final_of_ok hrun] at hfirst
      exact (hfirst.thins hformed).1
    rw [List.nil_append, sweepAll_cons, Act.final_bind_of_ok (Act.discard_of_ok hrun)] at hend ⊢
    have hthin := ((sweepAll_strippedTo reporter name after w₁ hformed₁).thins hformed₁).2
    have hclean := (hclears base (hthin.directory hformed₁.sound hend)).2
    exact hclean.thinner hthin hformed₁.sound
  | cons other before ih =>
    obtain ⟨hother, hbefore⟩ := List.forall_mem_cons.mp hbefore
    obtain ⟨removed, w₁, hrun, -⟩ :=
      Sweep.sweep_clears reporter name hformed.sound hformed.nulFree hother
    have hfirst := sweep_strippedTo reporter name other w hformed
    rw [Act.final_of_ok hrun] at hfirst
    obtain ⟨hformed₁, hthin₁⟩ := hfirst.thins hformed
    rw [List.cons_append, sweepAll_cons, Act.final_bind_of_ok (Act.discard_of_ok hrun)] at hend ⊢
    exact ih hformed₁ (fun path hpath => hthin₁.resolvable hformed.sound (hbefore path hpath)) hend

end Cleanup

/-! ## The end of a job -/

/-- What a cleanup of the roots leaves of a disk: nothing is removed but entries called `name`
that lead to directories, with what they hold.  A root that is reached in the end has no
directory of that name below it, as far as paths can be told to the system, if the system
has told of the roots before it whether they are directories. -/
structure Disk.CleanedUp (name : String) (roots : List Path) (disk disk' : Disk) : Prop where
  stripped : Stripped name disk disk'
  cleared : ∀ before root after, roots = before ++ root :: after →
    (∀ other ∈ before, disk.Resolvable other) →
      ∀ base, disk'.find .followed root = .ok (.present base .directory) →
        ∀ dir, (root.below (dir ++ [name])).Fitting →
          disk'.tree.get? (base ++ (dir ++ [name])) ≠ some .directory

theorem Engine.finalCleanup_cleans (engine : Engine σ) (roots : List Path) {w : World σ}
    (hformed : w.disk.WellFormed) :
    CleanedUp engine.settings.outputDirName roots w.disk
      ((engine.finalCleanup roots).final w).disk := by
  let started := w.said engine.reporter .info "Cleaning up temporary data..."
  have hstart : Stripped engine.settings.outputDirName w.disk started.disk := .single (.logged _)
  obtain ⟨hformed₁, hthin₁⟩ := hstart.thins hformed
  have hswept := sweepAll_strippedTo engine.reporter engine.settings.outputDirName roots started
    hformed₁
  obtain ⟨hformed₂, -⟩ := hswept.thins hformed₁
  have hlast : ((sweepAll engine.reporter engine.settings.outputDirName roots).final
      started).StrippedTo engine.settings.outputDirName ((engine.finalCleanup roots).final w) := by
    rw [finalCleanup, Act.final_bind_of_ok (engine.reporter.info_eq _ w)]
    exact Act.final_bind_after (fun _ => say_strippedTo _ _ _) started
  obtain ⟨hformed₃, hthin₃⟩ := (hlast hformed₂).thins hformed₂
  refine ⟨(hstart.trans hswept).trans (hlast hformed₂), ?_⟩
  rintro before root after rfl hbefore base hend dir hpath
  have hclean := sweepAll_clears hformed₁
    (fun other hother => hthin₁.resolvable hformed.sound (hbefore other hother))
    (hthin₃.directory hformed₂.sound hend)
  exact (hclean.thinner hthin₃ hformed₂.sound).not_directory hformed₃.sound hend hpath

/-- However the walk of a job ends, by its own end, by a fault or by an interrupt, its roots are
cleaned up after it. -/
theorem cleanedUp_of_perform (job : Job) (around : Surroundings) {runner : Runner σ} {w : World σ}
    (hkeeps : runner.KeepsWellFormed) (hformed : w.disk.WellFormed) :
    (∃ fault, job.perform around runner w = .error fault w) ∨
      ∃ projectDir roots, job.settings.resolvedProjectDir.result w = .ok projectDir ∧
        job.roots.result w = .ok roots ∧
        CleanedUp job.settings.outputDirName roots
          (((job.engine around runner projectDir).guarded job.targets).final w).disk
          ((job.perform around runner).final w).disk := by
  refine (job.perform_cases around runner w).imp_right ?_
  rintro ⟨projectDir, roots, hdir, hroots, hperform⟩
  refine ⟨projectDir, roots, hdir, hroots, ?_⟩
  let engine := job.engine around runner projectDir
  have hwalked : ((engine.guarded job.targets).final w).disk.WellFormed :=
    Engine.guarded_staysWellFormed hkeeps job.targets w hformed
  have hsession : (job.perform around runner).final w =
      (engine.session job.targets roots around.console).final w := by
    rw [Act.final, hperform, Act.final]
  rw [hsession, ← (engine.session_idle job.targets roots around.console w Eq).disk]
  exact engine.finalCleanup_cleans roots hwalked

/-- An interrupt of the preflight, from a tool that has made a staging directory. -/
def Sample.hasty : Runner Unit :=
  Sample.interrupted (Sample.making ⟨.here, ["d", "output_dir"]⟩)

theorem cleanedUp_of_interrupted_job :
    let start := Sample.world (Sample.disk [(["d"], .directory), (["d", "a.js"], .file [97] {})])
    let final := (Sample.job.perform Sample.around Sample.hasty).final start
    Sample.hasty.KeepsWellFormed ∧ start.disk.WellFormed ∧
      (∃ projectDir roots, Sample.job.settings.resolvedProjectDir.result start = .ok projectDir ∧
        Sample.job.roots.result start = .ok roots ∧
        CleanedUp "output_dir" roots
          (((Sample.job.engine Sample.around Sample.hasty projectDir).guarded
            Sample.job.targets).final start).disk final.disk) ∧
      final.disk.tree.entries = [(["d"], .directory), (["d", "a.js"], .file [97] {})] := by
  intro start final
  have hkeeps : Sample.hasty.KeepsWellFormed := by
    intro command disk tools hformed
    change (Sample.making _ disk).WellFormed
    unfold Sample.making
    split
    · next hmake => exact hformed.makeDirectory hmake
    · exact hformed
  have hformed : start.disk.WellFormed := ⟨by decide, by decide⟩
  have hcommands : final.commands ≠ [] := by decide +kernel
  refine ⟨hkeeps, hformed, ?_, by decide +kernel⟩
  apply (cleanedUp_of_perform Sample.job Sample.around hkeeps hformed).resolve_left
  rintro ⟨fault, hperform⟩
  have hfinal := Act.final_of_error hperform
  exact hcommands (by rw [show final = start from hfinal]; rfl)

/-- A root that has become a link to a name that is too long ends the cleanup: the roots after
it are not swept. -/
theorem cleanup_stops_at_unanswered_root :
    let root : Path := ⟨.here, ["r"]⟩
    let relink (disk : Disk) : Disk :=
      match disk.removeDirectory root with
      | .ok disk' => (disk'.makeLink root (String.ofList (List.replicate 256 'a'))).toOption.getD disk
      | .error _ => disk
    let job : Job := { Sample.job with targets := [root, ⟨.here, ["s"]⟩] }
    let start := Sample.disk [(["r"], .directory), (["s"], .directory), (["s", "output_dir"], .directory)]
    let final := (job.perform Sample.around (Sample.interrupted relink)).final (Sample.world start)
    start.WellFormed ∧ final.disk.Sound ∧
      final.disk.find .followed ⟨.here, ["s"]⟩ = .ok (.present ["s"] .directory) ∧
      final.disk.tree.get? ["s", "output_dir"] = some .directory := by
  exact ⟨⟨by decide, by decide⟩, by decide +kernel⟩

end Unscramble
