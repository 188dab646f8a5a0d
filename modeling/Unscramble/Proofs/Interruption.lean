import Mathlib
import Unscramble.Proofs.Fold
import Unscramble.Proofs.Idle

/-!
# Interrupted runs

A run that is cut short by the command of a step has come to the end of the steps before it:
whether their commands completed or failed, their outputs have been brought back.  The step
itself is lost, and nothing that would have come after its command is done but the release of
the workspace.
-/

namespace Unscramble

open Disk Workspace

variable {σ : Type}

/-! ## What a release takes away -/

namespace Disk

variable {disk : Disk} {dir : Path} {name : String} {loc : Loc}

end Disk

namespace Act

variable {dir : Path} {name : String}

end Act

namespace Workspace

variable {file : Path} {outputName : String} {w w' : World σ}

end Workspace

/-! ## Bringing output back -/

section Refused

variable {file : Path} {outputName : String}

theorem promote_refused {artifact target : Path} (hartifact : artifact.hasNul = false)
    (htarget : target.hasNul = false) :
    (promote artifact target : Act σ Bool).Fails fun fault => fault.isRefusal = true := by
  have hmove : (moveOver artifact target : Act σ Bool).Fails
      fun fault => fault.isRefusal = true := by
    intro w fault w' hrun
    rw [moveOver_run] at hrun
    split at hrun <;> cases hrun
    next why hrename =>
      have hwhy : why ≠ .nul := fun hnul => rename_ne_nul hartifact htarget (hnul ▸ hrename)
      simpa [Fault.isRefusal] using hwhy
  have hat {α : Type} {path : Path} {act : Act σ α} (hpath : path.hasNul = false)
      (hact : act.Fails (Fault.RefusedAt path)) : act.Fails fun fault => fault.isRefusal = true :=
    hact.imp fun _ hfault => hfault.isRefusal hpath
  unfold promote
  refine Act.fails_bind (hat hartifact (ask_refused fun _ hpath => ask_ne_nul hpath _))
    fun isFile => ?_
  have hover : (Act.ask Disk.isEmptyFile artifact >>= fun isEmpty =>
      if isEmpty then Act.change Disk.unlink artifact >>= fun _ => pure false
      else Act.ask Disk.present target >>= fun present =>
        if present then Act.change Disk.unlink target >>= fun _ => moveOver artifact target
        else moveOver artifact target : Act σ Bool).Fails fun fault => fault.isRefusal = true := by
    refine Act.fails_bind (hat hartifact (ask_refused fun _ => isEmptyFile_ne_nul))
      fun isEmpty => ?_
    split
    · exact Act.fails_bind (hat hartifact (change_refused fun _ => unlink_ne_nul)) fun _ =>
        Act.fails_pure _
    · refine Act.fails_bind (hat htarget (ask_refused fun _ hpath => ask_ne_nul hpath _))
        fun present => ?_
      split
      · exact Act.fails_bind (hat htarget (change_refused fun _ => unlink_ne_nul)) fun _ => hmove
      · exact hmove
  cases isFile with
  | false => exact Act.fails_pure _
  | true => exact hover

/-- Output of a file without NUL is brought back, or some path is refused. -/
theorem reconcile_refused (hfile : file.name ≠ "")
    (hout : (ofFile file outputName).outputDir.hasNul = false) (hnul : file.hasNul = false)
    (convention : Convention) :
    (convention.reconcile (ofFile file outputName) : Act σ (Option Path)).Fails
      fun fault => fault.isRefusal = true := by
  have hplace {path : Path} {inner : String} (hpath : path.hasNul = false)
      (hinner : '\x00' ∉ inner.toList) : (path.child inner).hasNul = false := by
    rw [Path.hasNul_child, hpath]
    simpa using hinner
  have hfrom {produced : Path} (hproduced : produced.hasNul = false) :
      (Convention.promoteFrom produced file : Act σ (Option Path)).Fails
        fun fault => fault.isRefusal = true :=
    Act.fails_bind (promote_refused hproduced hnul) fun _ => by split <;> exact Act.fails_pure _
  have htemp : (ofFile file outputName).sibling ".temp" =
      .ok (file.parent.child (file.name ++ ".temp")) := sibling_ofFile hfile ".temp"
  have hdeobfuscated : (ofFile file outputName).sibling ".deobfuscated.js" =
      .ok (file.parent.child (file.name ++ ".deobfuscated.js")) :=
    sibling_ofFile hfile ".deobfuscated.js"
  cases convention with
  | inPlace => exact Act.fails_pure _
  | outputDir => exact hfrom (hplace hout (by decide))
  | tempSibling =>
    have hpath : (file.parent.child (file.name ++ ".temp")).hasNul = false :=
      hasNul_sibling hfile hnul (by decide)
    unfold Convention.reconcile
    rw [temp, htemp]
    change (Act.ask Disk.isDirectory (file.parent.child (file.name ++ ".temp")) >>= _ :
      Act σ (Option Path)).Fails _
    refine Act.fails_bind ((ask_refused fun _ hpath => ask_ne_nul hpath _).imp
      fun _ hfault => hfault.isRefusal hpath) fun isDirectory => ?_
    split
    · exact Act.fails_bind (hfrom (hplace hpath (by decide))) fun promoted =>
        Act.fails_bind (Act.fails_bind ((remove_refused _).imp
          fun _ hfault => hfault.isRefusal hpath) fun _ => Act.fails_pure _)
          fun _ => Act.fails_pure _
    · exact hfrom hpath
  | siblingFile =>
    unfold Convention.reconcile
    rw [deobfuscated, hdeobfuscated]
    exact hfrom (hasNul_sibling hfile hnul (by decide))

end Refused

/-! ## The steps before -/

/-- The command that a step runs in a workspace. -/
def Step.Issues (ws : Workspace) (step : Step) (command : Command) : Prop :=
  ∃ argv, step.command ws = .ok argv ∧ command = { argv, cwd := ws.file.parent }

namespace Engine

variable {engine : Engine σ} {ws : Workspace} {file : Path} {total index : Nat} {step : Step}
  {w w' : World σ}

theorem announce_runsNothing (engine : Engine σ) (ws : Workspace) (total index : Nat)
    (step : Step) : (engine.announce ws total index step).RunsNothing :=
  Act.within_bind (say_runsNothing _ _ _) fun _ => Act.within_bind (Act.within_lift _) fun _ =>
    Act.within_bind (say_runsNothing _ _ _) fun _ => Act.within_pure _

theorem prepare_runsNothing (engine : Engine σ) (file : Path) :
    (engine.prepare file).RunsNothing :=
  have hcovers := idle_covers engine.reporter
  Act.within_bind (say_runsNothing _ _ _) fun _ =>
    Act.within_bind (release_within hcovers.remove _) fun _ =>
      makeDirectories_within hcovers.make _ _

theorem noteEnd_runsNothing (engine : Engine σ) (label name : String)
    (ran : Except Fault Completed) : (engine.noteEnd label name ran).RunsNothing :=
  (Act.composes_within _).noteEnd ran (idle_covers engine.reporter).say

theorem settle_runsNothing (engine : Engine σ) (ws : Workspace) (index total : Nat) (step : Step)
    (error : Option String) : (engine.settle ws index total step error).RunsNothing :=
  (Act.composes_within _).settle (idle_covers engine.reporter).say
    (reconcile_within (idle_covers engine.reporter).remove (idle_covers engine.reporter).promote ws
      step.convention)

/-- A command that completes or fails as a command is that of its step. -/
theorem issues_of_issue {ran : Except Fault Completed}
    (hissue : engine.issue ws total index step w = .ok ran w') :
    ∃ command, step.Issues ws command ∧ w'.commands = w.commands ++ [command] := by
  obtain ⟨argv, w₁, hannounce, htry⟩ := Act.ok_of_bind hissue
  refine ⟨{ argv, cwd := ws.file.parent }, ⟨argv, ?_, rfl⟩, ?_⟩
  · obtain ⟨_, w₂, -, hrest⟩ := Act.ok_of_bind hannounce
    obtain ⟨argv', w₃, hlift, hlast⟩ := Act.ok_of_bind hrest
    obtain ⟨_, w₄, -, hpure⟩ := Act.ok_of_bind hlast
    cases hpure
    cases hargv : step.command ws with
    | error fault =>
      rw [hargv] at hlift
      cases hlift
    | ok argv'' =>
      rw [hargv] at hlift
      cases hlift
      rfl
  · have hsame := (engine.announce_runsNothing ws total index step w).commands
    rw [Act.final_of_ok hannounce] at hsame
    rw [← hsame]
    rcases engine.tryRun_cases { argv, cwd := ws.file.parent } w₁ with
      ⟨completed, -, hrun⟩ | ⟨fault, -, -, hrun⟩ | ⟨fault, -, -, hrun⟩ <;>
      cases hrun.symm.trans htry
    all_goals exact congrArg World.commands (engine.final_run _ w₁)

section Settled

variable (hfile : file.name ≠ "")
  (hout : (ofFile file engine.settings.outputDirName).outputDir.hasNul = false)
  (hnul : file.hasNul = false)

include hfile hout hnul

/-- Whatever a command has left, its step is settled. -/
theorem settle_succeeds (step : Step) (index total : Nat) (error : Option String) (w : World σ) :
    ∃ result w',
      engine.settle (.ofFile file engine.settings.outputDirName) index total step error w =
        .ok result w' := by
  cases hrun : (step.convention.reconcile (.ofFile file engine.settings.outputDirName) :
      Act σ (Option Path)) w with
  | ok promoted w₁ =>
    rw [settle, Act.bind_of_ok (Act.attempt_of_ok hrun)]
    exact ⟨_, _, rfl⟩
  | error fault w₁ =>
    have hrefusal := reconcile_refused hfile hout hnul step.convention w fault w₁ hrun
    rw [settle, Act.bind_of_ok (Act.attempt_of_error hrun)]
    simp only [hrefusal, if_true]
    rw [Act.bind_of_ok (Reporter.error_eq _ _ _)]
    exact ⟨_, _, rfl⟩

/-- A step whose command completes or fails as a command comes to its end and runs nothing else. -/
theorem runStep_of_issue {ran : Except Fault Completed}
    (hissue : engine.issue (.ofFile file engine.settings.outputDirName) total index step w =
      .ok ran w') :
    ∃ result w'' command,
      engine.runStep (.ofFile file engine.settings.outputDirName) index total step w =
        .ok result w'' ∧
      step.Issues (.ofFile file engine.settings.outputDirName) command ∧
      w''.commands = w.commands ++ [command] := by
  obtain ⟨command, hissues, hcommands⟩ := issues_of_issue hissue
  have ⟨argv, hargv, _⟩ := hissues
  obtain ⟨error, lines, w₁, hnote, -⟩ :=
    noteEnd_eq engine (stepLabel index total) step.name ran w'
  obtain ⟨result, w₂, hsettle⟩ := settle_succeeds hfile hout hnul step index total error w₁
  have hnoted := (engine.noteEnd_runsNothing (stepLabel index total) step.name ran w').commands
  have hsettled := (engine.settle_runsNothing (.ofFile file engine.settings.outputDirName) index
    total step error w₁).commands
  rw [Act.final_of_ok hnote] at hnoted
  rw [Act.final_of_ok hsettle] at hsettled
  refine ⟨result, w₂, command, ?_, hissues, by rw [hsettled, hnoted, hcommands]⟩
  rw [runStep_eq hargv, Act.bind_of_ok hissue, Act.bind_of_ok hnote, hsettle]

end Settled

/-- The commands of the steps from the given one on complete or fail as commands. -/
def Lasts (engine : Engine σ) (ws : Workspace) (total : Nat) :
    (index : Nat) → List Step → World σ → Prop
  | _, [], _ => True
  | index, step :: rest, w =>
    (∃ ran w', engine.issue ws total index step w = .ok ran w') ∧
      Lasts engine ws total (index + 1) rest ((engine.runStep ws index total step).final w)

/-- Steps whose commands complete or fail as commands come to their end, and these are the
commands that they run. -/
theorem runSteps_succeed {steps : List Step} (hfile : file.name ≠ "")
    (hout : (ofFile file engine.settings.outputDirName).outputDir.hasNul = false)
    (hnul : file.hasNul = false)
    (hlasts : engine.Lasts (.ofFile file engine.settings.outputDirName) total index steps w) :
    ∃ results w' commands,
      engine.runSteps (.ofFile file engine.settings.outputDirName) total index steps w =
        .ok results w' ∧
      List.Forall₂ (Step.Issues (.ofFile file engine.settings.outputDirName)) steps commands ∧
      w'.commands = w.commands ++ commands := by
  induction steps generalizing index w with
  | nil => exact ⟨[], w, [], rfl, .nil, (List.append_nil _).symm⟩
  | cons step rest ih =>
    obtain ⟨⟨ran, w₁, hissue⟩, hrest⟩ := hlasts
    obtain ⟨result, w₂, command, hstep, hissues, hcommand⟩ :=
      runStep_of_issue hfile hout hnul hissue
    rw [Act.final_of_ok hstep] at hrest
    obtain ⟨results, w₃, commands, hsteps, hall, hcommands⟩ := ih hrest
    refine ⟨result :: results, w₃, command :: commands, ?_, .cons hissues hall, ?_⟩
    · rw [runSteps, Act.bind_of_ok hstep, Act.bind_of_ok hsteps]
      rfl
    · rw [hcommands, hcommand, List.append_assoc, List.singleton_append]

/-- A run that has entered its workspace goes on with its steps and then releases it. -/
theorem work_of_prepared {w₁ : World σ} (hprepare : engine.prepare file w = .ok () w₁) :
    engine.work file w =
      Act.always (engine.runSteps (.ofFile file engine.settings.outputDirName)
          engine.steps.length 1 engine.steps)
        (ofFile file engine.settings.outputDirName).release w₁ := by
  obtain ⟨_, w₂, hinfo, hrest⟩ := Act.ok_of_bind hprepare
  obtain ⟨_, w₃, hrelease, hmake⟩ := Act.ok_of_bind hrest
  exact (Act.bind_of_ok hinfo).trans ((Act.bind_of_ok hrelease).trans (Act.bind_of_ok hmake))

end Engine

section Samples

/-- The program called `name` makes a directory and is interrupted; every other program writes
its name to the path that is its last argument. -/
def Sample.stoppedBy (name : String) (path : Path) : Runner Unit := fun command disk tools =>
  if command.argv.head? = some name then
    (.error (.interrupt ""), Sample.making path disk, tools)
  else Sample.writing command disk tools

def Sample.stopped : Engine Unit :=
  Sample.engine (Sample.stoppedBy "synchrony" ⟨.here, ["d", "a.js.temp"]⟩)
    [Step.custom ["tidy"], Step.synchrony, Step.webcrack]

end Samples

end Unscramble
