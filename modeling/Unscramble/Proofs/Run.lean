import Mathlib
import Unscramble.Pipeline
import Unscramble.Proofs.Promotion
import Unscramble.Proofs.Sweep
import Unscramble.Proofs.Workspace

/-!
# What a run of the steps keeps

A property that reports, commands and promotions have, and that goes over from the
parts of an action to the whole, a run of the steps has as well.  So it is with a
relation between worlds that all parts stay within: sound disks stay sound, and a
sweep only makes a disk thinner.
-/

namespace Unscramble

variable {σ : Type}

/-! ## From the parts to a run -/

/-- A property that goes over from the parts of an action to the whole. -/
structure Act.Composes (P : {α : Type} → Act σ α → Prop) : Prop where
  pure {α : Type} (value : α) : P (pure value : Act σ α)
  throw {α : Type} (fault : Fault) : P (throw fault : Act σ α)
  bind {α β : Type} {act : Act σ α} {next : α → Act σ β} :
    P act → (∀ value, P (next value)) → P (act >>= next)
  attempt {α : Type} {act : Act σ α} : P act → P (attempt act)

theorem Act.composes_within (R : World σ → World σ → Prop) [IsPreorder (World σ) R] :
    Act.Composes fun {α} (act : Act σ α) => act.Within R where
  pure := Act.within_pure
  throw := Act.within_throw
  bind := Act.within_bind
  attempt := Act.within_attempt

/-- The places that output is brought back from. -/
def Convention.sources (ws : Workspace) (temp deobfuscated : Path) : List Path :=
  [ws.outputDir.child "entry.js", temp.child "deobfuscated.js", temp, deobfuscated]

namespace Engine

/-- How the lines about a step start. -/
def stepLabel (index total : Nat) : String :=
  "Step " ++ toString index ++ "/" ++ toString total ++ ":"

/-- Report how a command has ended; the message of its failure. -/
def noteEnd (engine : Engine σ) (label name : String) :
    Except Fault Completed → Act σ (Option String)
  | .ok _ => do
    engine.reporter.info (label ++ " deobfuscate using " ++ name ++ " completed.")
    return none
  | .error fault => do
    engine.reporter.error (label ++ " Error during deobfuscate using " ++ name ++ "!")
    engine.reporter.debug fault.message
    return some fault.message

/-- Bring the output of a step back; its result. -/
def settle (engine : Engine σ) (ws : Workspace) (index total : Nat) (step : Step)
    (error : Option String) : Act σ StepResult := do
  match ← Act.attempt (step.convention.reconcile ws) with
  | .ok promoted => return { index, name := step.name, ok := error.isNone, promoted, error }
  | .error fault =>
    if fault.isRefusal then
      engine.reporter.error
        (stepLabel index total ++ " Could not reconcile output of " ++ step.name ++ ": "
          ++ fault.message)
      return { index, name := step.name, ok := false, error := some fault.message }
    else throw fault

theorem runStep_of_command {engine : Engine σ} {ws : Workspace} {step : Step} {argv : List String}
    (hargv : step.command ws = .ok argv) (index total : Nat) :
    engine.runStep ws index total step =
      engine.reporter.info
          (stepLabel index total ++ " deobfuscate using " ++ step.name ++ " started.") >>= fun _ =>
        engine.reporter.debug (" ".intercalate argv) >>= fun _ =>
          engine.tryRun { argv, cwd := ws.file.parent } >>= fun ran =>
            engine.noteEnd (stepLabel index total) step.name ran >>= fun error =>
              engine.settle ws index total step error := by
  unfold runStep
  rw [hargv]
  refine bind_congr fun _ => ?_
  change (engine.reporter.debug (" ".intercalate argv) >>= _) = _
  refine bind_congr fun _ => bind_congr fun ran => ?_
  cases ran <;> simp only [noteEnd, bind_assoc, pure_bind] <;> rfl

end Engine

namespace Act.Composes

variable {P : {α : Type} → Act σ α → Prop} (hcompose : Act.Composes P) {engine : Engine σ}
  {ws : Workspace}

include hcompose

theorem promoteFrom {produced file : Path} (hpromote : P (promote produced file : Act σ Bool)) :
    P (Convention.promoteFrom produced file : Act σ (Option Path)) := by
  refine hcompose.bind hpromote fun promoted => ?_
  cases promoted <;> exact hcompose.pure _

theorem reconcile {temp deobfuscated : Path} (convention : Convention)
    (htemp : ws.temp = .ok temp) (hdeobfuscated : ws.deobfuscated = .ok deobfuscated)
    (hpromote : ∀ source ∈ Convention.sources ws temp deobfuscated,
      P (promote source ws.file : Act σ Bool))
    (hask : P (Act.ask Disk.isDirectory temp : Act σ Bool))
    (hremove : P (Act.remove temp : Act σ Bool)) : P (convention.reconcile ws : Act σ _) := by
  simp only [Convention.sources, List.forall_mem_cons] at hpromote
  obtain ⟨hentry, hproduced, hwhole, hsibling, -⟩ := hpromote
  cases convention with
  | inPlace => exact hcompose.pure _
  | outputDir => exact hcompose.promoteFrom hentry
  | tempSibling =>
      unfold Convention.reconcile
      rw [htemp]
      change P (Act.ask Disk.isDirectory temp >>= _ : Act σ _)
      refine hcompose.bind hask fun isDirectory => ?_
      split
      · refine hcompose.bind (hcompose.promoteFrom hproduced) fun promoted => ?_
        exact hcompose.bind (hcompose.bind hremove fun _ => hcompose.pure _)
          fun _ => hcompose.pure _
      · exact hcompose.promoteFrom hwhole
  | siblingFile =>
      unfold Convention.reconcile
      rw [hdeobfuscated]
      exact hcompose.promoteFrom hsibling

theorem tryRun {command : Command} (hrun : P (engine.run command)) : P (engine.tryRun command) := by
  refine hcompose.bind (hcompose.attempt hrun) fun result => ?_
  split
  · exact hcompose.pure _
  · exact hcompose.pure _
  · exact hcompose.throw _

theorem noteEnd {label name : String} (ran : Except Fault Completed)
    (hsay : ∀ level message, P (engine.reporter.say level message : Act σ Unit)) :
    P (engine.noteEnd label name ran) := by
  cases ran with
  | ok completed => exact hcompose.bind (hsay _ _) fun _ => hcompose.pure _
  | error fault =>
      exact hcompose.bind (hsay _ _) fun _ =>
        hcompose.bind (hsay _ _) fun _ => hcompose.pure _

theorem settle {step : Step} {index total : Nat} {error : Option String}
    (hsay : ∀ level message, P (engine.reporter.say level message : Act σ Unit))
    (hreconcile : P (step.convention.reconcile ws : Act σ _)) :
    P (engine.settle ws index total step error) := by
  refine hcompose.bind (hcompose.attempt hreconcile) fun result => ?_
  cases result with
  | ok promoted => exact hcompose.pure _
  | error fault =>
      by_cases hrefusal : fault.isRefusal = true
      · simp only [if_pos hrefusal]
        exact hcompose.bind (hsay _ _) fun _ => hcompose.pure _
      · simp only [if_neg hrefusal]
        exact hcompose.throw _

theorem runStep {step : Step} {index total : Nat}
    (hsay : ∀ level message, P (engine.reporter.say level message : Act σ Unit))
    (hrun : ∀ argv, step.command ws = .ok argv → P (engine.run { argv, cwd := ws.file.parent }))
    (hreconcile : P (step.convention.reconcile ws : Act σ _)) :
    P (engine.runStep ws index total step) := by
  cases hargv : step.command ws with
  | error fault =>
      unfold Engine.runStep
      rw [hargv]
      exact hcompose.bind (hsay _ _) fun _ => hcompose.throw fault
  | ok argv =>
      rw [Engine.runStep_of_command hargv]
      refine hcompose.bind (hsay _ _) fun _ => hcompose.bind (hsay _ _) fun _ => ?_
      refine hcompose.bind (hcompose.tryRun (hrun argv hargv)) fun ran => ?_
      exact hcompose.bind (hcompose.noteEnd ran hsay) fun _ => hcompose.settle hsay hreconcile

/-- What reports, commands and the bringing back of output have, a run of the steps has. -/
theorem runSteps {steps : List Step} {index total : Nat}
    (hsay : ∀ level message, P (engine.reporter.say level message : Act σ Unit))
    (hrun : ∀ step ∈ steps, ∀ argv, step.command ws = .ok argv →
      P (engine.run { argv, cwd := ws.file.parent }))
    (hreconcile : ∀ convention : Convention, P (convention.reconcile ws : Act σ _)) :
    P (engine.runSteps ws total index steps) := by
  induction steps generalizing index with
  | nil => exact hcompose.pure _
  | cons step rest ih =>
      refine hcompose.bind (hcompose.runStep hsay (hrun step List.mem_cons_self)
        (hreconcile _)) fun result => ?_
      refine hcompose.bind ?_ fun results => hcompose.pure _
      exact ih fun other hother => hrun other (List.mem_cons_of_mem _ hother)

end Act.Composes

/-! ## From removals, promotions and new directories -/

section Within

variable {R : World σ → World σ → Prop} [IsPreorder (World σ) R]

theorem remove_within {path : Path} (hclear : (Act.change Disk.clear path : Act σ Unit).Within R)
    (hdrop : (Act.change Disk.removeDirectory path : Act σ Unit).Within R)
    (hunlink : (Act.change Disk.unlink path : Act σ Unit).Within R) :
    (Act.remove path : Act σ Bool).Within R := by
  rw [Act.remove_eq]
  refine Act.within_bind (Act.within_look _) fun directory =>
    Act.within_bind (Act.within_look _) fun link => ?_
  split
  · exact Act.within_bind hclear fun _ => Act.within_bind hdrop fun _ => Act.within_pure _
  · refine Act.within_bind (Act.within_look _) fun present =>
      Act.within_bind (Act.within_look _) fun link => ?_
    split
    · exact Act.within_bind hunlink fun _ => Act.within_pure _
    · exact Act.within_pure _

theorem release_within (hremove : ∀ path, (Act.remove path : Act σ Bool).Within R)
    (ws : Workspace) : (ws.release : Act σ Unit).Within R :=
  Act.within_bind (Act.within_lift _) fun _ => Act.within_forM fun artifact _ =>
    Act.within_bind (hremove artifact) fun _ => Act.within_pure _

section Make

variable (hmake : ∀ (w : World σ) path disk', w.disk.makeDirectory path = .ok disk' →
  R w { w with disk := disk' })

include hmake

theorem ensureDirectory_within (path : Path) {onMissing : Act σ Unit}
    (hmissing : onMissing.Within R) : (Act.ensureDirectory path onMissing).Within R := by
  have hask (why : Refusal) : (Act.ask Disk.isDirectory path >>= fun answer =>
      if why = .nul ∨ answer = false then throw (.refused why (some path.toString) none)
      else pure () : Act σ Unit).Within R := by
    refine Act.within_bind (Act.within_look _) fun answer => ?_
    split
    · exact Act.within_throw _
    · exact Act.within_pure _
  unfold Act.ensureDirectory
  refine Act.within_get_bind fun w => ?_
  split
  · next disk' hdisk => exact hmake w path disk' hdisk
  · exact hmissing w
  · exact hask _ w

theorem makeDirectories_within (levels : Nat) (path : Path) :
    (Act.makeDirectories levels path : Act σ Unit).Within R := by
  induction levels generalizing path with
  | zero => exact ensureDirectory_within hmake path (Act.within_throw _)
  | succ levels ih =>
    refine ensureDirectory_within hmake path ?_
    have hlast : (Act.makeDirectories levels path.parent >>= fun _ =>
        Act.ensureDirectory path (throw (.refused .notFound (some path.toString) none)) :
          Act σ Unit).Within R :=
      Act.within_bind (ih path.parent) fun _ =>
        ensureDirectory_within hmake path (Act.within_throw _)
    by_cases hpath : path.parent = path
    · simp only [if_pos hpath]
      exact Act.within_bind (Act.within_throw _) fun _ => hlast
    · simp only [if_neg hpath]
      exact hlast

end Make

/-- Bringing output back, also where a path has no name to add to. -/
theorem reconcile_within (hremove : ∀ path, (Act.remove path : Act σ Bool).Within R)
    (hpromote : ∀ artifact target, (promote artifact target : Act σ Bool).Within R)
    (ws : Workspace) (convention : Convention) :
    (convention.reconcile ws : Act σ (Option Path)).Within R := by
  have hfrom (source : Path) :
      (Convention.promoteFrom source ws.file : Act σ (Option Path)).Within R :=
    (Act.composes_within R).promoteFrom (hpromote source ws.file)
  cases convention with
  | inPlace => exact Act.within_pure _
  | outputDir => exact hfrom _
  | tempSibling =>
    refine Act.within_bind (Act.within_lift _) fun temp =>
      Act.within_bind (Act.within_look _) fun isDirectory => ?_
    split
    · exact Act.within_bind (hfrom _) fun promoted =>
        Act.within_bind (Act.within_bind (hremove temp) fun _ => Act.within_pure _)
          fun _ => Act.within_pure _
    · exact hfrom _
  | siblingFile => exact Act.within_bind (Act.within_lift _) fun _ => hfrom _

end Within

/-! ## Sound disks -/

/-- A sound disk stays sound. -/
def World.StaysSound (w w' : World σ) : Prop := w.disk.Sound → w'.disk.Sound

/-- A sound disk stays sound and only gets thinner. -/
def World.Fades (w w' : World σ) : Prop :=
  w.disk.Sound → w'.disk.Sound ∧ w'.disk.Thinner w.disk

instance : IsPreorder (World σ) World.StaysSound where
  refl _ := id
  trans _ _ _ hab hbc := hbc ∘ hab

instance : IsPreorder (World σ) World.Fades where
  refl _ hsound := ⟨hsound, .refl _⟩
  trans _ _ _ hab hbc hsound :=
    have hb := hab hsound
    have hc := hbc hb.1
    ⟨hc.1, hc.2.trans hb.2⟩

/-- Commands fail in no other way than as commands. -/
def Runner.FailsAsCommand (runner : Runner σ) : Prop :=
  ∀ command disk tools fault, (runner command disk tools).1 = .error fault →
    ∃ argv detail status, fault = .command argv detail status

/-- Every command leaves a sound disk sound. -/
def Runner.KeepsSound (runner : Runner σ) : Prop :=
  ∀ command disk tools, disk.Sound → (runner command disk tools).2.1.Sound

theorem say_fades (reporter : Reporter) (level : Level) (message : String) :
    (reporter.say level message : Act σ Unit).Within World.Fades := by
  intro w hsound
  rw [Act.final_of_ok (reporter.say_eq level message w)]
  exact ⟨hsound.logged _, w.disk.thinner_logged _⟩

theorem remove_fades (dir : Path) {name : String} (hname : Path.Ordinary name) :
    (Act.remove (dir.child name) : Act σ Bool).Within World.Fades := by
  intro w hsound
  rcases Act.remove_child_cases dir hsound hname with
    ⟨-, hremove⟩ | ⟨-, fault, hremove⟩ | ⟨loc, entry, hfind, hremove⟩ |
      ⟨loc, hfind, -, fault, hremove⟩
  · rw [Act.final_of_ok hremove]
    exact ⟨hsound, .refl _⟩
  · rw [Act.final_of_error hremove]
    exact ⟨hsound, .refl _⟩
  · obtain ⟨p, -, -, ⟨h, -⟩ | ⟨_, h, -⟩⟩ := Disk.reached_of_find_child hname hfind <;> cases h
    rw [Act.final_of_ok hremove]
    exact ⟨hsound.eraseWithin (by simp), w.disk.thinner_eraseWithin (by simp)⟩
  · rw [Act.final_of_error hremove]
    exact ⟨hsound.eraseBelow (Disk.find_fits hfind), w.disk.thinner_eraseBelow loc⟩

theorem Act.Within.staysSound {α : Type} {act : Act σ α} (hact : act.Within World.Fades) :
    act.Within World.StaysSound :=
  fun w hsound => (hact w hsound).1

theorem promote_staysSound (artifact dir : Path) {name : String} (hname : Path.Ordinary name) :
    (promote artifact (dir.child name) : Act σ Bool).Within World.StaysSound := by
  intro w hsound
  obtain ⟨disk', hfinal, hpromoted⟩ := promote_final artifact dir hsound hname
  rw [hfinal]
  exact hpromoted.sound hsound

theorem Disk.Sound.makeDirectory {disk disk' : Disk} (hsound : disk.Sound) {path : Path}
    (hmake : disk.makeDirectory path = .ok disk') : disk'.Sound := by
  unfold Disk.makeDirectory at hmake
  cases hfind : disk.find .itself path with
  | error why => rw [hfind] at hmake; cases hmake
  | ok found =>
      rw [hfind] at hmake
      cases found with
      | present loc entry => cases hmake
      | removed => cases hmake
      | vacant loc =>
          cases hmake
          obtain ⟨hfree, dir, name, rfl, hname, hdir⟩ := Disk.find_fits hfind
          refine hsound.insert hdir hname (by simp [hfree]) fun hlog => ?_
          obtain ⟨bytes, access, hfile⟩ := hsound.logging hlog
          rw [hfree] at hfile
          cases hfile

theorem makeDirectories_staysSound (levels : Nat) (path : Path) :
    (Act.makeDirectories levels path : Act σ Unit).Within World.StaysSound :=
  makeDirectories_within (fun _ _ _ hmake hsound => hsound.makeDirectory hmake) levels path

namespace Engine

variable {engine : Engine σ} {file : Path} {outputName : String}

/-- A command leaves what its runner says, and is on record. -/
theorem final_run (engine : Engine σ) (command : Command) (w : World σ) :
    (engine.run command).final w =
      { w with
        disk := (engine.runner command w.disk w.tools).2.1
        tools := (engine.runner command w.disk w.tools).2.2
        commands := w.commands ++ [command] } := by
  rcases hrun : engine.runner command w.disk w.tools with ⟨result, disk, tools⟩
  cases result <;> simp only [Act.final, run, Act.run, hrun]

/-- A command that fails as a command is noted as failed. -/
theorem tryRun_eq (hrunner : engine.runner.FailsAsCommand) (command : Command)
    (w : World σ) : ∃ ran, engine.tryRun command w = .ok ran ((engine.run command).final w) := by
  rcases hrun : engine.run command w with ⟨completed, w'⟩ | ⟨fault, w'⟩
  · exact ⟨.ok completed, by
      rw [tryRun, Act.bind_of_ok (Act.attempt_of_ok hrun), Act.final_of_ok hrun]; rfl⟩
  · have hfault : (engine.runner command w.disk w.tools).1 = .error fault := by
      rcases hresult : engine.runner command w.disk w.tools with ⟨result, disk, tools⟩
      cases result <;> simp only [run, Act.run, hresult] at hrun <;> cases hrun
      rfl
    obtain ⟨argv, detail, status, rfl⟩ := hrunner _ _ _ _ hfault
    exact ⟨.error (.command argv detail status), by
      rw [tryRun, Act.bind_of_ok (Act.attempt_of_error hrun), Act.final_of_error hrun]; rfl⟩

theorem run_staysSound (hrunner : engine.runner.KeepsSound) (command : Command) :
    (engine.run command).Within World.StaysSound := by
  intro w hsound
  rw [final_run]
  exact hrunner command w.disk w.tools hsound

theorem runSteps_staysSound (hrunner : engine.runner.KeepsSound)
    (hfile : Path.Ordinary file.name) {steps : List Step} {index total : Nat} :
    (engine.runSteps (.ofFile file outputName) total index steps).Within World.StaysSound := by
  have hname := Path.ordinary_ne_empty hfile
  have hcompose := Act.composes_within (@World.StaysSound σ)
  refine hcompose.runSteps (fun level message => (say_fades _ level message).staysSound)
    (fun step _ argv _ => run_staysSound hrunner _) fun convention => ?_
  refine hcompose.reconcile convention (Workspace.sibling_ofFile hname ".temp")
    (Workspace.sibling_ofFile hname ".deobfuscated.js") (fun source _ => ?_)
    (Act.within_look _) ?_
  · have hpath : (Workspace.ofFile file outputName).file = file.parent.child file.name :=
      (Path.child_parent hname).symm
    rw [hpath]
    exact promote_staysSound source _ hfile
  · exact (remove_fades _ (Path.ordinary_append (by decide))).staysSound

theorem sweepAfter_fades (engine : Engine σ) (file : Path) :
    (engine.sweepAfter file).Within World.Fades := by
  have hsweep (root : Path) : (engine.reporter.debug "Cleaning up temporary data..." >>= fun _ =>
      Sweep.sweep engine.reporter engine.settings.outputDirName root :
        Act σ (List Path)).Within World.Fades := by
    refine Act.within_bind (say_fades _ _ _) fun _ w hsound => ?_
    obtain ⟨loc, hleads⟩ := w.disk.exists_leads root
    have hswept := Sweep.sweep_swept engine.reporter engine.settings.outputDirName w hsound hleads
    exact ⟨hswept.sound, hswept.thinner⟩
  unfold sweepAfter
  cases engine.settings.cleanupScope with
  | workingDirectory => exact Act.within_bind (Act.within_look _) hsweep
  | file => exact hsweep file.parent

/-- What a run does up to its last sweep; the workspace is released by then. -/
def work (engine : Engine σ) (file : Path) : Act σ (List StepResult) := do
  engine.reporter.info ("Deobfuscating file: " ++ file.toString)
  Workspace.use file engine.settings.outputDirName fun ws =>
    engine.runSteps ws engine.steps.length 1 engine.steps

/-- What a run does after its last step: it sweeps what is left. -/
def conclude (engine : Engine σ) (file : Path) (results : List StepResult) : Act σ Report := do
  discard (engine.sweepAfter file)
  engine.reporter.success "Deobfuscation and cleanup completed successfully."
  return ⟨file, results⟩

theorem deobfuscate_eq (engine : Engine σ) (file : Path) :
    engine.deobfuscate file = engine.work file >>= engine.conclude file := by
  unfold deobfuscate work conclude
  simp only [bind_assoc]

theorem conclude_fades (engine : Engine σ) (file : Path) (results : List StepResult) :
    (engine.conclude file results).Within World.Fades :=
  Act.within_bind (Act.within_bind (engine.sweepAfter_fades file) fun _ => Act.within_pure _) fun _ =>
    Act.within_bind (say_fades _ _ _) fun _ => Act.within_pure _

end Engine

end Unscramble
