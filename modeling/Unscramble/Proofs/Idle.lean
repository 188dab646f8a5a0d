import Unscramble.Proofs.Exchange

/-!
# Work without tools

Staging, bringing output back and sweeping work on the disk alone.  What their removals,
promotions and new directories stay within, all of it stays within.  They run no command,
so the only commands of a run over a file are those of its steps.
-/

namespace Unscramble

open Disk Workspace

variable {σ α : Type}

/-! ## Sweeps -/

section Within

variable {R : World σ → World σ → Prop} [IsPreorder (World σ) R] {reporter : Reporter}
  {name : String}
  (hone : ∀ (dir : Path) (entries : List (String × Kind)) (w : World σ),
    w.disk.list dir = .ok entries → name ∈ Sweep.directoryNames w.disk dir entries →
      R w ((Sweep.removeOne reporter (dir.child name)).final w))

include hone

/-- What the removals of a sweep stay within, the sweep stays within. -/
theorem sweepBelow_within (depth : Nat) (dir : Path) :
    (Sweep.sweepBelow reporter name depth dir : Act σ (List Path)).Within R := by
  induction depth generalizing dir with
  | zero => exact Act.within_pure _
  | succ depth ih =>
    intro w
    cases hlist : w.disk.list dir with
    | error why =>
      rw [Act.final_of_ok (Sweep.sweepBelow_of_unlisted hlist)]
      exact refl w
    | ok entries =>
      rw [Act.final, Sweep.sweepBelow_of_list hlist]
      apply Act.final_bind_within
      · split
        · next hmem => exact hone dir entries w hlist hmem
        · exact refl w
      · refine fun here => Act.within_foldlM (fun next _ removed => ?_) here
        refine Act.within_get_bind fun w => ?_
        split
        · exact refl w
        · exact Act.within_bind (ih _) (fun _ => Act.within_pure _) w

theorem sweep_within (root : Path) :
    (Sweep.sweep reporter name root : Act σ (List Path)).Within R := by
  refine Act.within_bind (Act.within_look _) fun isDirectory => ?_
  split
  · exact sweepBelow_within hone _ root
  · exact Act.within_pure _

end Within

/-- What is needed of a relation for a run over a file to stay within it, apart from its
commands: reports, removals, promotions and new directories stay within it. -/
structure World.Covers (R : World σ → World σ → Prop) (reporter : Reporter) : Prop where
  say : ∀ level message, (reporter.say level message : Act σ Unit).Within R
  make : ∀ (w : World σ) path disk', w.disk.makeDirectory path = .ok disk' →
    R w { w with disk := disk' }
  remove : ∀ path, (Act.remove path : Act σ Bool).Within R
  promote : ∀ artifact target, (promote artifact target : Act σ Bool).Within R

namespace World.Covers

variable {R R' : World σ → World σ → Prop} {reporter : Reporter} {engine : Engine σ}

theorem mono (hcovers : World.Covers R reporter) (hle : ∀ w w', R w w' → R' w w') :
    World.Covers R' reporter where
  say level message w := hle _ _ (hcovers.say level message w)
  make w path disk' hmake := hle _ _ (hcovers.make w path disk' hmake)
  remove path w := hle _ _ (hcovers.remove path w)
  promote artifact target w := hle _ _ (hcovers.promote artifact target w)

variable [IsPreorder (World σ) R]

theorem sweep (hcovers : World.Covers R reporter) (name : String) (root : Path) :
    (Sweep.sweep reporter name root : Act σ (List Path)).Within R :=
  sweep_within (fun dir _ w _ _ => Sweep.removeOne_final hcovers.say
    (hcovers.remove (dir.child name) w)) root

theorem sweepAfter (hcovers : World.Covers R engine.reporter) (file : Path) :
    (engine.sweepAfter file).Within R := by
  have hroot (root : Path) : (engine.reporter.debug "Cleaning up temporary data..." >>= fun _ =>
      Sweep.sweep engine.reporter engine.settings.outputDirName root :
        Act σ (List Path)).Within R :=
    Act.within_bind (hcovers.say _ _) fun _ => hcovers.sweep _ root
  unfold Engine.sweepAfter
  cases engine.settings.cleanupScope with
  | workingDirectory => exact Act.within_bind (Act.within_look _) hroot
  | file => exact hroot file.parent

/-- What the work on the disk and the commands of its steps stay within, a run over a file
stays within. -/
theorem deobfuscate (hcovers : World.Covers R engine.reporter) (file : Path)
    (hrun : ∀ step ∈ engine.steps, ∀ argv,
      step.command (.ofFile file engine.settings.outputDirName) = .ok argv →
        (engine.run { argv, cwd := file.parent }).Within R) :
    (engine.deobfuscate file).Within R := by
  have hsteps : (engine.runSteps (.ofFile file engine.settings.outputDirName)
      engine.steps.length 1 engine.steps).Within R :=
    (Act.composes_within R).runSteps hcovers.say hrun
      (reconcile_within hcovers.remove hcovers.promote _)
  exact Act.within_bind (hcovers.say _ _) fun _ =>
    Act.within_bind (Act.within_bind (release_within hcovers.remove _) fun _ =>
      Act.within_bind (makeDirectories_within hcovers.make _ _) fun _ =>
        Act.within_always hsteps (release_within hcovers.remove _)) fun _ =>
      Act.within_bind (Act.within_bind (hcovers.sweepAfter file) fun _ => Act.within_pure _)
        fun _ => Act.within_bind (hcovers.say _ _) fun _ => Act.within_pure _

end World.Covers

/-! ## Nothing is run -/

/-- Nothing is run. -/
abbrev Act.RunsNothing (act : Act σ α) : Prop := act.Within (World.Idle Anyhow)

theorem say_runsNothing (reporter : Reporter) (level : Level) (message : String) :
    (reporter.say level message : Act σ Unit).RunsNothing := by
  intro w
  exact { say_idle reporter level message w with disk := trivial }

theorem change_runsNothing (operation : Disk → Path → Except Refusal Disk) (path : Path) :
    (Act.change operation path : Act σ Unit).RunsNothing := by
  intro w
  cases hdisk : operation w.disk path with
  | ok disk =>
    rw [Act.final_of_ok (Act.change_of_ok hdisk)]
    exact ⟨trivial, rfl, rfl, List.Subset.refl _⟩
  | error why =>
    rw [Act.final_of_error (Act.change_of_error hdisk)]
    exact refl w

theorem promote_runsNothing (artifact target : Path) :
    (promote artifact target : Act σ Bool).RunsNothing := by
  intro w
  rcases promote_cases artifact target w with (hrun | ⟨fault, hrun⟩) |
    ⟨-, -, disk', -, -, hrun⟩ | ⟨-, -, -, disk', -, -, -, ⟨disk'', -, hrun⟩ | ⟨-, fault, -, hrun⟩⟩
  · rw [Act.final_of_ok hrun]
    exact refl w
  · rw [Act.final_of_error hrun]
    exact refl w
  · rw [Act.final_of_ok hrun]
    exact ⟨trivial, rfl, rfl, List.Subset.refl _⟩
  · rw [Act.final_of_ok hrun]
    exact ⟨trivial, rfl, rfl, List.Subset.refl _⟩
  · rw [Act.final_of_error hrun]
    exact ⟨trivial, rfl, rfl, List.Subset.refl _⟩

/-- Work on the disk runs nothing. -/
theorem idle_covers (reporter : Reporter) :
    World.Covers (World.Idle Anyhow : World σ → World σ → Prop) reporter where
  say := say_runsNothing reporter
  make _ _ _ _ := ⟨trivial, rfl, rfl, List.Subset.refl _⟩
  remove path := remove_within (change_runsNothing _ path) (change_runsNothing _ path)
    (change_runsNothing _ path)
  promote := promote_runsNothing

/-! ## A run over a file -/

namespace Engine

variable {engine : Engine σ}

theorem only_of_runsNothing (engine : Engine σ) {act : Act σ α} (hact : act.RunsNothing) (P : Command → Prop) :
    act.Within (engine.runner.Only Anyhow P) :=
  fun w => Runner.only_of_idle (hact w)

/-- The commands of a run over a file are those of its steps. -/
theorem deobfuscate_only (engine : Engine σ) (file : Path) :
    (engine.deobfuscate file).Within (engine.runner.Only Anyhow (engine.IsFor file)) := by
  have hcovers := (idle_covers engine.reporter).mono fun _ _ hidle =>
    (Runner.only_of_idle hidle : engine.runner.Only Anyhow (engine.IsFor file) _ _)
  refine hcovers.deobfuscate file fun step hstep argv hargv w => ?_
  refine ⟨_, .one engine.runner _ w, fun exchange hmem => ?_⟩
  rw [List.mem_singleton.mp hmem]
  exact ⟨step, hstep, argv, hargv, rfl⟩

end Engine

end Unscramble
