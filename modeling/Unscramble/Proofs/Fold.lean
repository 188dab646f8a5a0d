import Mathlib
import Unscramble.Proofs.Disk.Check
import Unscramble.Proofs.Faults
import Unscramble.Proofs.Sample
import Unscramble.Proofs.Staging

/-!
# A run is a fold over the output of its steps

What the file holds is handed from step to step: a command finds what the step
before it has handed over, and hands over what it has left in the file, or its
output where there is any.  On a tame disk this is all a run does to the file.
-/

namespace Unscramble

open Disk Workspace

variable {σ : Type}

/-- What the command of a step found in the file, what it left there and what it offered. -/
structure Turn where
  found : Option Bytes
  left : Option Bytes
  offer : Option Bytes
deriving DecidableEq, Repr

namespace Turn

/-- What is handed over: what was offered, and else what was left. -/
def taken (turn : Turn) : Option Bytes := turn.offer.or turn.left

/-- Each command finds what has been handed over before it, and `last` is handed over
in the end. -/
def Chain (first : Option Bytes) : List Turn → (last : Option Bytes) → Prop
  | [], last => last = first
  | turn :: rest, last => turn.found = first ∧ Chain turn.taken rest last

instance decidableChain (first : Option Bytes) : (turns : List Turn) → (last : Option Bytes) →
    Decidable (Chain first turns last)
  | [], last => inferInstanceAs (Decidable (last = first))
  | turn :: rest, last =>
    have := decidableChain turn.taken rest last
    inferInstanceAs (Decidable (turn.found = first ∧ Chain turn.taken rest last))

end Turn

namespace Engine

variable (engine : Engine σ) (ws : Workspace) (total : Nat)

/-- Report a step and its command. -/
def announce (index : Nat) (step : Step) : Act σ (List String) := do
  engine.reporter.info
    (stepLabel index total ++ " deobfuscate using " ++ step.name ++ " started.")
  let argv ← Act.lift (step.command ws)
  engine.reporter.debug (" ".intercalate argv)
  return argv

/-- Run the command of a step. -/
def issue (index : Nat) (step : Step) : Act σ (Except Fault Completed) := do
  engine.tryRun { argv := ← engine.announce ws total index step, cwd := ws.file.parent }

/-- The turn of a step that starts in the world `w`. -/
def turn (index : Nat) (step : Step) (w : World σ) : Turn where
  found := ((engine.announce ws total index step).final w).disk.content? ws.file
  left := ((engine.issue ws total index step).final w).disk.content? ws.file
  offer := step.convention.offer? ws ((engine.issue ws total index step).final w).disk

/-- The turns of the steps from the given one on. -/
def turnsFrom : (index : Nat) → List Step → World σ → List Turn
  | _, [], _ => []
  | index, step :: rest, w =>
    engine.turn ws total index step w ::
      turnsFrom (index + 1) rest ((engine.runStep ws index total step).final w)

/-- What a run does before its first step. -/
def prepare (file : Path) : Act σ Unit := do
  let ws := Workspace.ofFile file engine.settings.outputDirName
  engine.reporter.info ("Deobfuscating file: " ++ file.toString)
  ws.release
  Act.makeDirectories ws.outputDir.parts.length ws.outputDir

/-- The turns of a run over a file. -/
def turns (file : Path) (w : World σ) : List Turn :=
  engine.turnsFrom (.ofFile file engine.settings.outputDirName) engine.steps.length 1 engine.steps
    ((engine.prepare file).final w)

end Engine

/-! ## Lines in the log -/

section Logged

variable {settings : Settings} {file : Path} {outputs : List Path} {disk : Disk} {line : String}

theorem isDirectory_child_iff {dir : Path} {name : String} (hlinkless : disk.tree.Linkless)
    (hname : Path.Ordinary name) : disk.isDirectory (dir.child name) = .ok true ↔
      ∃ loc, disk.find .followed (dir.child name) = .ok (.present loc .directory) := by
  rw [isDirectory, ask_eq_true_iff]
  constructor
  · rintro (⟨loc, entry, hfind, hkind⟩ | ⟨hremoved, -⟩)
    · cases entry <;> simp [Entry.kind] at hkind
      exact ⟨loc, hfind⟩
    · rw [find_followed_of_linkless hlinkless] at hremoved
      obtain ⟨_, -, -, ⟨h, -⟩ | ⟨_, h, -⟩⟩ := reached_of_find_child hname hremoved <;> cases h
  · rintro ⟨loc, hfind⟩
    exact .inl ⟨loc, _, hfind, rfl⟩

theorem isDirectory_logged {dir : Path} {name : String} (hsound : disk.Sound)
    (hlinkless : disk.tree.Linkless) (hlinkless' : (disk.logged line).tree.Linkless)
    (hname : Path.Ordinary name) :
    (disk.logged line).isDirectory (dir.child name) = .ok true ↔
      disk.isDirectory (dir.child name) = .ok true := by
  rw [isDirectory_child_iff hlinkless hname, isDirectory_child_iff hlinkless' hname]
  exact exists_congr fun loc =>
    ⟨fun hfind => (disk.thinner_logged line).directory hsound hfind,
      fun hfind => (disk.logged_thinner line).directory (hsound.logged line) hfind⟩

/-- Lines in the log do not change what is offered. -/
theorem offer?_logged (hsite : Site file settings.outputDirName) (htame : Tame settings file outputs disk)
    (hunlogged : ∀ artifact ∈ outputPlaces file settings.outputDirName, disk.Unlogged artifact)
    (convention : Convention) (line : String) :
    convention.offer? (.ofFile file settings.outputDirName) (disk.logged line) =
      convention.offer? (.ofFile file settings.outputDirName) disk := by
  have hsame {artifact : Path} (hartifact : artifact ∈ outputPlaces file settings.outputDirName) :
      (disk.logged line).output? artifact = disk.output? artifact := by
    rw [output?, output?, content?_logged htame.sound (hunlogged artifact hartifact)]
  have htemp : (ofFile file settings.outputDirName).temp =
      .ok (file.parent.child (file.name ++ ".temp")) := sibling_ofFile hsite.name_ne_empty _
  have hdeobfuscated : (ofFile file settings.outputDirName).deobfuscated =
      .ok (file.parent.child (file.name ++ ".deobfuscated.js")) :=
    sibling_ofFile hsite.name_ne_empty _
  cases convention with
  | inPlace => rfl
  | outputDir =>
      simp only [Convention.offer?, outputDir_ofFile hsite.component]
      exact hsame (by simp [outputPlaces])
  | siblingFile =>
      simp only [Convention.offer?, hdeobfuscated]
      exact hsame (by simp [outputPlaces])
  | tempSibling =>
      simp only [Convention.offer?, htemp]
      rw [hsame (by simp [outputPlaces]), hsame (by simp [outputPlaces])]
      have htempName : Path.Ordinary (file.name ++ ".temp") := Path.ordinary_append (by decide)
      simp only [isDirectory_logged htame.sound htame.linkless (htame.logged line).linkless htempName]

theorem Tame.noted (htame : Tame settings file outputs disk) (lines : List String) :
    Tame settings file outputs (disk.noted lines) := by
  induction lines generalizing disk with
  | nil => exact htame
  | cons line rest ih => exact ih (htame.logged line)

theorem Tame.content?_noted (htame : Tame settings file outputs disk) (lines : List String) :
    (disk.noted lines).content? file = disk.content? file := by
  induction lines generalizing disk with
  | nil => rfl
  | cons line rest ih =>
      exact (ih (htame.logged line)).trans
        (content?_logged htame.sound (htame.apart _ List.mem_cons_self) line)

theorem Tame.offer?_noted (hsite : Site file settings.outputDirName)
    (htame : Tame settings file (outputPlaces file settings.outputDirName) disk)
    (convention : Convention) (lines : List String) :
    convention.offer? (.ofFile file settings.outputDirName) (disk.noted lines) =
      convention.offer? (.ofFile file settings.outputDirName) disk := by
  induction lines generalizing disk with
  | nil => rfl
  | cons line rest ih =>
      exact (ih (htame.logged line)).trans (offer?_logged hsite htame
        (fun artifact hartifact => htame.apart _ (List.mem_cons_of_mem _ hartifact))
        convention line)

end Logged

/-! ## One step -/

/-- A command leaves a tame disk tame, and fails in no other way than as a command. -/
structure Runner.KeepsTame (settings : Settings) (file : Path) (runner : Runner σ) : Prop where
  tame : ∀ command disk tools,
    Tame settings file (outputPlaces file settings.outputDirName) disk →
      Tame settings file (outputPlaces file settings.outputDirName)
        (runner command disk tools).2.1
  fails : runner.FailsAsCommand

namespace Engine

variable {engine : Engine σ} {file : Path} {w : World σ}

/-- What is reported about the end of a command only goes to the log. -/
theorem noteEnd_eq (engine : Engine σ) (label name : String) (ran : Except Fault Completed) (w : World σ) :
    ∃ error lines w', engine.noteEnd label name ran w = .ok error w' ∧
      w'.disk = w.disk.noted lines := by
  cases ran with
  | ok completed =>
      exact ⟨none, [_], _, Act.bind_of_ok (Reporter.info_eq _ _ _), rfl⟩
  | error fault =>
      exact ⟨some fault.message, [_, _], _,
        (Act.bind_of_ok (Reporter.error_eq _ _ _)).trans (Act.bind_of_ok (Reporter.debug_eq _ _ _)),
        rfl⟩

theorem announce_eq (engine : Engine σ) {ws : Workspace} (total index : Nat) {step : Step} {argv : List String}
    (hargv : step.command ws = .ok argv) (w : World σ) :
    ∃ lines w', engine.announce ws total index step w = .ok argv w' ∧
      w'.disk = w.disk.noted lines := by
  have hrun : engine.announce ws total index step w = .ok argv
      ((w.said engine.reporter .info
        (stepLabel index total ++ " deobfuscate using " ++ step.name ++ " started.")).said
          engine.reporter .debug (" ".intercalate argv)) := by
    rw [announce, Act.bind_of_ok (Reporter.info_eq _ _ _), hargv]
    exact Act.bind_of_ok (Reporter.debug_eq _ _ _)
  exact ⟨[_, _], _, hrun, rfl⟩

theorem runStep_eq {ws : Workspace} {total index : Nat} {step : Step} {argv : List String}
    (hargv : step.command ws = .ok argv) :
    engine.runStep ws index total step =
      engine.issue ws total index step >>= fun ran =>
        engine.noteEnd (stepLabel index total) step.name ran >>= fun error =>
          engine.settle ws index total step error := by
  rw [runStep_of_command hargv, issue, announce, hargv]
  simp only [bind_assoc]
  rfl

/-- A step hands over what its command has left, or its output where there is any. -/
theorem runStep_tame (hsite : Site file engine.settings.outputDirName)
    (hrunner : engine.runner.KeepsTame engine.settings file)
    (htame : Tame engine.settings file (outputPlaces file engine.settings.outputDirName) w.disk)
    {step : Step} {argv : List String} (total index : Nat)
    (hargv : step.command (.ofFile file engine.settings.outputDirName) = .ok argv) :
    ∃ result w',
      engine.runStep (.ofFile file engine.settings.outputDirName) index total step w =
        .ok result w' ∧
      Tame engine.settings file (outputPlaces file engine.settings.outputDirName) w'.disk ∧
      (engine.turn (.ofFile file engine.settings.outputDirName) total index step w).found =
        w.disk.content? file ∧
      w'.disk.content? file =
        (engine.turn (.ofFile file engine.settings.outputDirName) total index step w).taken ∧
      result.promoted.isSome =
        (engine.turn (.ofFile file engine.settings.outputDirName) total index step w).offer.isSome :=
    by
  obtain ⟨before, w₁, hannounce, hdisk₁⟩ := announce_eq engine total index hargv w
  obtain ⟨ran, htry⟩ := tryRun_eq hrunner.fails { argv, cwd := file.parent } w₁
  have htame₁ := htame.noted before
  rw [← hdisk₁] at htame₁
  -- the world that the command leaves
  let w₂ := (engine.run { argv, cwd := file.parent }).final w₁
  have hissue : engine.issue (.ofFile file engine.settings.outputDirName) total index step w =
      .ok ran w₂ := (Act.bind_of_ok hannounce).trans htry
  have htame₂ : Tame engine.settings file (outputPlaces file engine.settings.outputDirName)
      w₂.disk := by
    simp only [w₂, final_run]
    exact hrunner.tame _ _ _ htame₁
  obtain ⟨error, after, w₃, hnote, hdisk₃⟩ :=
    noteEnd_eq engine (stepLabel index total) step.name ran w₂
  have htame₃ := htame₂.noted after
  rw [← hdisk₃] at htame₃
  obtain ⟨promoted, disk', hreconcile, hsome, htame', hcontent⟩ :=
    step.convention.reconcile_tame hsite htame₃
      fun artifact hartifact => htame₃.apart _ (List.mem_cons_of_mem _ hartifact)
  rw [hdisk₃, htame₂.offer?_noted hsite] at hsome hcontent
  rw [htame₂.content?_noted] at hcontent
  refine ⟨{ index, name := step.name, ok := error.isNone, promoted, error },
    { w₃ with disk := disk' }, ?_, htame', ?_, ?_, ?_⟩
  · rw [runStep_eq hargv, Act.bind_of_ok hissue, Act.bind_of_ok hnote, settle,
      Act.bind_of_ok (Act.attempt_of_ok hreconcile)]
    rfl
  · rw [turn, Act.final_of_ok hannounce, hdisk₁]
    exact htame.content?_noted before
  · rw [turn, Turn.taken, Act.final_of_ok hissue]
    exact hcontent
  · rw [turn, Act.final_of_ok hissue]
    exact hsome

/-! ## A whole run -/

/-- The steps of a run hand the file from one to the next. -/
theorem runSteps_tame (hsite : Site file engine.settings.outputDirName)
    (hrunner : engine.runner.KeepsTame engine.settings file)
    (htame : Tame engine.settings file (outputPlaces file engine.settings.outputDirName) w.disk)
    {steps : List Step} (total index : Nat)
    (hsteps : ∀ step ∈ steps, ∃ argv,
      step.command (.ofFile file engine.settings.outputDirName) = .ok argv) :
    ∃ results w',
      engine.runSteps (.ofFile file engine.settings.outputDirName) total index steps w =
        .ok results w' ∧
      Tame engine.settings file (outputPlaces file engine.settings.outputDirName) w'.disk ∧
      Turn.Chain (w.disk.content? file)
        (engine.turnsFrom (.ofFile file engine.settings.outputDirName) total index steps w)
        (w'.disk.content? file) ∧
      results.map (·.promoted.isSome) =
        (engine.turnsFrom (.ofFile file engine.settings.outputDirName) total index steps w).map
          (·.offer.isSome) := by
  induction steps generalizing index w with
  | nil => exact ⟨[], w, rfl, htame, rfl, rfl⟩
  | cons step rest ih =>
      obtain ⟨argv, hargv⟩ := hsteps step List.mem_cons_self
      obtain ⟨result, w₁, hrun, htame₁, hfound, htaken, hsome⟩ :=
        runStep_tame hsite hrunner htame total index hargv
      obtain ⟨results, w₂, hrest, htame₂, hchain, hflags⟩ := ih htame₁ (index + 1)
        fun other hother => hsteps other (List.mem_cons_of_mem _ hother)
      rw [htaken] at hchain
      refine ⟨result :: results, w₂, ?_, htame₂, ?_, ?_⟩
      · rw [runSteps, Act.bind_of_ok hrun, Act.bind_of_ok hrest]
        rfl
      · rw [turnsFrom, Act.final_of_ok hrun]
        exact ⟨hfound, hchain⟩
      · rw [turnsFrom, Act.final_of_ok hrun, List.map_cons, List.map_cons, hsome, hflags]

theorem report_of_conclude {results : List StepResult} {report : Report} {w' : World σ}
    (hok : engine.conclude file results w = .ok report w') : report = ⟨file, results⟩ := by
  rw [conclude] at hok
  cases hrun : engine.sweepAfter file w with
  | error fault w₁ =>
      rw [Act.bind_of_error (Act.discard_of_error hrun)] at hok
      cases hok
  | ok removed w₁ =>
      rw [Act.bind_of_ok (Act.discard_of_ok hrun), Act.bind_of_ok (Reporter.success_eq _ _ _)] at hok
      cases hok
      rfl

/-- The last sweep of a run comes to its end if its root can be told and asked about. -/
theorem sweepAfter_of_start {root : Path} (hname : '\x00' ∉ engine.settings.outputDirName.toList)
    (hstart : engine.sweepStart file w = .ok root w)
    (hroot : (w.said engine.reporter .debug "Cleaning up temporary data...").disk.Resolvable root) :
    ∃ removed w', engine.sweepAfter file w = .ok removed w' := by
  rw [sweepAfter_eq, Act.bind_of_ok hstart, Act.bind_of_ok (engine.reporter.debug_eq _ w)]
  exact sweep_succeeds engine.reporter hname hroot

theorem sweepAfter_succeeds (hout : Path.Component engine.settings.outputDirName)
    (hsound : w.disk.Sound) (hparent : w.disk.Resolvable file.parent)
    (hcwd : engine.settings.cleanupScope = .workingDirectory →
      w.disk.cwd.lost = 0 ∧ w.disk.Resolvable (locPath w.disk.cwd.above)) :
    ∃ removed w', engine.sweepAfter file w = .ok removed w' := by
  have hsaid {root : Path} (hroot : w.disk.Resolvable root) :
      (w.said engine.reporter .debug "Cleaning up temporary data...").disk.Resolvable root :=
    (w.disk.thinner_logged _).resolvable hsound hroot
  cases hscope : engine.settings.cleanupScope with
  | file => exact sweepAfter_of_start hout.2.2 (by rw [sweepStart, hscope]; rfl) (hsaid hparent)
  | workingDirectory =>
      obtain ⟨hlost, hroot⟩ := hcwd hscope
      refine sweepAfter_of_start hout.2.2 ?_ (hsaid hroot)
      rw [sweepStart, hscope]
      exact Act.look_of_ok (by simp [workingDirectory, workingLoc?, hlost])

/-- A run comes to its end if its last sweep starts in a directory that is still there. -/
theorem conclude_succeeds (hout : Path.Component engine.settings.outputDirName)
    (hsound : w.disk.Sound) (hparent : w.disk.Resolvable file.parent) (results : List StepResult)
    (hcwd : engine.settings.cleanupScope = .workingDirectory →
      ((engine.conclude file results).final w).disk.cwd.lost = 0 ∧
        (locPath ((engine.conclude file results).final w).disk.cwd.above).Fitting) :
    ∃ report w', engine.conclude file results w = .ok report w' := by
  have hroot : engine.settings.cleanupScope = .workingDirectory →
      w.disk.cwd.lost = 0 ∧ w.disk.Resolvable (locPath w.disk.cwd.above) := by
    intro hscope
    obtain ⟨hlost, hfits⟩ := hcwd hscope
    -- the working directory has not been raised
    obtain ⟨gone, habove, hgone⟩ := (engine.conclude_fades file results w hsound).2.cwd
    have hsum : 0 = w.disk.cwd.lost + gone.length := hlost.symm.trans hgone
    have hnone : gone = [] := List.length_eq_zero_iff.mp (by omega)
    rw [hnone, List.append_nil] at habove
    rw [← habove] at hfits
    refine ⟨by omega, fun why hwhy => ?_⟩
    rw [hsound.find_locPath hsound.working nofun hfits] at hwhy
    cases hwhy
  obtain ⟨removed, w', hrun⟩ := sweepAfter_succeeds hout hsound hparent hroot
  exact ⟨⟨file, results⟩, _, (Act.bind_of_ok (Act.discard_of_ok hrun)).trans
    (Act.bind_of_ok (Reporter.success_eq _ _ _))⟩

theorem conclude_tame {outputs : List Path} (hsite : Site file engine.settings.outputDirName)
    (htame : Tame engine.settings file outputs w.disk) (results : List StepResult) :
    ((engine.conclude file results).final w).disk.content? file = w.disk.content? file := by
  obtain ⟨hswept, hkept⟩ := sweepAfter_tame hsite htame
  rw [conclude]
  cases hrun : engine.sweepAfter file w with
  | error fault w' =>
      rw [Act.final_of_error hrun] at hkept
      rw [Act.final_bind_of_error (Act.discard_of_error hrun)]
      exact hkept
  | ok removed w' =>
      rw [Act.final_of_ok hrun] at hswept hkept
      rw [Act.final_bind_of_ok (Act.discard_of_ok hrun),
        Act.final_bind_of_ok (Reporter.success_eq _ _ _)]
      exact (content?_logged hswept.sound (hswept.apart _ List.mem_cons_self) _).trans hkept

/-- A run on a tame disk comes to the end of its steps. -/
theorem deobfuscate_tame (hsite : Site file engine.settings.outputDirName)
    (htame : Tame engine.settings file [] w.disk) (hfile : w.disk.isFile file = .ok true)
    (hrunner : engine.runner.KeepsTame engine.settings file)
    (hsteps : ∀ step ∈ engine.steps, ∃ argv,
      step.command (.ofFile file engine.settings.outputDirName) = .ok argv) :
    ∃ results w', engine.deobfuscate file w = engine.conclude file results w' ∧
      Tame engine.settings file (outputPlaces file engine.settings.outputDirName) w'.disk ∧
      Turn.Chain (w.disk.content? file) (engine.turns file w) (w'.disk.content? file) ∧
      results.map (·.promoted.isSome) = (engine.turns file w).map (·.offer.isSome) := by
  let w₁ := w.said engine.reporter .info ("Deobfuscating file: " ++ file.toString)
  have hinfo := engine.reporter.info_eq ("Deobfuscating file: " ++ file.toString) w
  have htame₁ : Tame engine.settings file [] w₁.disk := htame.logged _
  have hcontent₁ : w₁.disk.content? file = w.disk.content? file :=
    content?_logged htame.sound (htame.apart _ List.mem_cons_self) _
  obtain ⟨dir, hdir⟩ := htame.reached_parent hsite hfile
  have hdir₁ : w₁.disk.find .followed file.parent = .ok (.present dir .directory) :=
    (w.disk.logged_thinner _).directory (htame.sound.logged _) hdir
  have hreach : (w₁.disk.without (artifactLocs file engine.settings.outputDirName dir)).find
      .followed file.parent = .ok (.present dir .directory) :=
    reached_without hsite htame₁ hdir₁ _
  have hpath : ∀ name ∈ artifactNames file engine.settings.outputDirName,
      w₁.disk.Resolvable (file.parent.child name) := fun name hname =>
    resolvable_of_linkless htame₁.linkless (hsite.fits_artifact hname)
  have hnul := (nameable_of_isFile hfile).1
  have hrelease := release_of_reached (σ := σ) htame₁.sound hsite.name_ne_empty hsite.component
    hnul hpath hreach
  have hmake := makeDirectory_of_reached htame₁.sound hsite.name_ne_empty hsite.component hnul
    (hpath _ List.mem_cons_self) hreach
  -- the world in which the first step starts
  let w₂ : World σ :=
    { w₁ with disk := staged w₁.disk file engine.settings.outputDirName dir }
  have hprepare : engine.prepare file w = .ok () w₂ := by
    rw [prepare, Act.bind_of_ok hinfo, Act.bind_of_ok hrelease]
    exact Act.makeDirectories_of_ok hmake _
  obtain ⟨htame₂, hcontent₂⟩ := staged_tame hsite htame₁ hdir₁
  obtain ⟨results, w₃, hrun, htame₃, hchain, hflags⟩ :=
    runSteps_tame (w := w₂) hsite hrunner htame₂ engine.steps.length 1 hsteps
  obtain ⟨disk', hclean, htame', hcontent'⟩ := release_tame hsite htame₃
  refine ⟨results, { w₃ with disk := disk' }, ?_, htame', ?_, ?_⟩
  · have hwork : engine.work file w = .ok results { w₃ with disk := disk' } := by
      rw [work, Act.bind_of_ok hinfo,
        use_of_reached htame₁.sound hsite.name_ne_empty hsite.component hnul hpath hreach]
      exact Act.always_of_ok hrun hclean
    rw [deobfuscate_eq, Act.bind_of_ok hwork]
  · rw [turns, Act.final_of_ok hprepare, ← hcontent₁, ← hcontent₂]
    simp only [hcontent']
    exact hchain
  · rw [turns, Act.final_of_ok hprepare]
    exact hflags

end Engine

/-- What a run on a tame disk leaves in the file is handed from step to step, and the
results tell which steps had output.  There are results unless the last sweep starts in
a working directory that is gone. -/
theorem chain_of_deobfuscate (engine : Engine σ) {file : Path} {w : World σ}
    (hsite : Site file engine.settings.outputDirName)
    (htame : Tame engine.settings file [] w.disk) (hfile : w.disk.isFile file = .ok true)
    (hrunner : engine.runner.KeepsTame engine.settings file)
    (hsteps : ∀ step ∈ engine.steps, ∃ argv,
      step.command (.ofFile file engine.settings.outputDirName) = .ok argv) :
    let disk' := ((engine.deobfuscate file).final w).disk
    Turn.Chain (w.disk.content? file) (engine.turns file w) (disk'.content? file) ∧
      (∀ report w', engine.deobfuscate file w = .ok report w' →
        report.results.map (·.promoted.isSome) = (engine.turns file w).map (·.offer.isSome)) ∧
      ((engine.settings.cleanupScope = .workingDirectory →
          disk'.cwd.lost = 0 ∧ (locPath disk'.cwd.above).Fitting) →
        ∃ report w', engine.deobfuscate file w = .ok report w') := by
  obtain ⟨results, w₁, hrun, htame₁, hchain, hflags⟩ :=
    Engine.deobfuscate_tame hsite htame hfile hrunner hsteps
  have hfinal : (engine.deobfuscate file).final w = (engine.conclude file results).final w₁ := by
    rw [Act.final, Act.final, hrun]
  rw [hfinal, hrun]
  refine ⟨?_, fun report w' hok => ?_, fun hcwd => ?_⟩
  · rw [Engine.conclude_tame hsite htame₁]
    exact hchain
  · rw [Engine.report_of_conclude hok]
    exact hflags
  · exact Engine.conclude_succeeds hsite.component htame₁.sound
      (resolvable_of_linkless htame₁.linkless hsite.fits_parent) results hcwd

section Samples

theorem Sample.writing_keepsTame (settings : Settings) (file : Path) :
    Sample.writing.KeepsTame settings file where
  tame command disk tools htame := by
    obtain ⟨hsound, halike, hcwd, hlog⟩ := Sample.writing_changes command tools htame.sound
    exact htame.alike hsound halike hcwd (.inl hlog)
  fails := Sample.writing_failsAsCommand

/-- A disk without links and without a log, on which the path leads to a file, is tame if
staging directories are only swept next to the file. -/
theorem Tame.of_isFile {settings : Settings} {disk : Disk} {file : Path} (hsound : disk.Sound)
    (hlinkless : disk.tree.Linkless) (hfile : disk.isFile file = .ok true) (hlog : disk.log = none)
    (hscope : settings.cleanupScope = .file) : Tame settings file [] disk where
  sound := hsound
  linkless := hlinkless
  plain loc hfind := by
    obtain ⟨_, _, _, hfound⟩ := isFile_eq_true_iff.mp hfile
    rw [hfound] at hfind
    cases hfind
  apart path _ loc entry _ hopen := by
    rw [hlog] at hopen
    cases hopen
  uncovered h := by
    rw [hscope] at h
    cases h

theorem chain_of_written_file :
    let disk := Sample.disk [(["d"], .directory), (["d", "a.js"], .file [97] {}),
      (["d", "a.js.temp"], .directory)]
    let file : Path := ⟨.here, ["d", "a.js"]⟩
    let engine := Sample.engine Sample.writing [Step.custom ["tidy"], Step.synchrony, Step.beautify]
    let disk' := ((engine.deobfuscate file).final (Sample.world disk)).disk
    disk.isFile file = .ok true ∧
      Turn.Chain (disk.content? file) (engine.turns file (Sample.world disk))
        (disk'.content? file) ∧
      (∀ report w', engine.deobfuscate file (Sample.world disk) = .ok report w' →
        report.results.map (·.promoted.isSome) =
          (engine.turns file (Sample.world disk)).map (·.offer.isSome)) ∧
      ((engine.settings.cleanupScope = .workingDirectory →
          disk'.cwd.lost = 0 ∧ (locPath disk'.cwd.above).Fitting) →
        ∃ report w', engine.deobfuscate file (Sample.world disk) = .ok report w') := by
  intro disk file engine disk'
  have hfile : disk.isFile file = .ok true := by decide
  have hsite : Site file engine.settings.outputDirName :=
    ⟨by decide, by decide, by decide, by decide, by decide⟩
  have hsteps : ∀ step ∈ engine.steps, ∃ argv,
      step.command (.ofFile file engine.settings.outputDirName) = .ok argv := by
    intro step hstep
    fin_cases hstep <;> exact ⟨_, rfl⟩
  exact ⟨hfile, chain_of_deobfuscate engine hsite
    (Tame.of_isFile (by decide) (by decide) hfile rfl rfl) hfile
    (Sample.writing_keepsTame _ file) hsteps⟩

/-- A run does not hand a file on whose path goes through the staging directory, or that is
the debug log. -/
theorem chain_broken_off_site :
    let engine := Sample.engine Sample.writing [Step.custom ["tidy"]]
    let staging := Sample.disk [(["a.js"], .file [97] {}), (["output_dir"], .directory)]
    let logging := { Sample.disk [(["a.js"], .file [97] {})] with log := some ["a.js"] }
    let through : Path := ⟨.here, ["output_dir", "..", "a.js"]⟩
    let file : Path := ⟨.here, ["a.js"]⟩
    (Tame engine.settings through [] staging ∧ staging.isFile through = .ok true ∧
      engine.runner.KeepsTame engine.settings through ∧
      ¬Turn.Chain (staging.content? through) (engine.turns through (Sample.world staging))
        (((engine.deobfuscate through).final (Sample.world staging)).disk.content? through)) ∧
    Site file engine.settings.outputDirName ∧ logging.Sound ∧ logging.tree.Linkless ∧
      logging.isFile file = .ok true ∧ engine.runner.KeepsTame engine.settings file ∧
      ¬Turn.Chain (logging.content? file) (engine.turns file (Sample.world logging))
        (((engine.deobfuscate file).final (Sample.world logging)).disk.content? file) := by
  intro engine staging logging through file
  have hthrough : staging.isFile through = .ok true := by decide
  refine ⟨⟨Tame.of_isFile (by decide) (by decide) hthrough rfl rfl, hthrough,
    Sample.writing_keepsTame _ through, ?_⟩, ⟨by decide, by decide, by decide, by decide, by decide⟩,
    by decide, by decide, by decide, Sample.writing_keepsTame _ file, ?_⟩
  · decide +kernel
  · decide +kernel

end Samples

end Unscramble
