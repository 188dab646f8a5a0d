import Unscramble.Proofs.Disk.Shape
import Unscramble.Proofs.Interruption
import Unscramble.Proofs.WellFormed

/-!
# A run reports on every step

Once a run has entered its workspace, nothing that a command does or leaves behind keeps it from
going on: the command of every step is run, in order, and each step has its result.  The result
tells whether the command has completed and its output has been brought back.
-/

namespace Unscramble

open Disk Workspace

variable {σ : Type}

/-! ## Names without NUL -/

/-- What is not a separator is part of a component. -/
theorem Path.mem_components {text : String} {c : Char} (hc : c ∈ text.toList) (hother : c ≠ '/') :
    ∃ name ∈ components text, c ∈ name.toList := by
  suffices ∀ chars : List Char, c ∈ chars → ∃ name ∈ chars.splitOn '/', c ∈ name by
    obtain ⟨name, hname, hmem⟩ := this _ hc
    exact ⟨String.ofList name, List.mem_map_of_mem hname, by simpa using hmem⟩
  intro chars hchars
  induction chars with
  | nil => cases hchars
  | cons first rest ih =>
    rw [List.splitOn, List.splitOnP_cons_eq_if_modifyHead]
    split
    · next hfirst =>
      have hrest : c ∈ rest := by
        rcases List.mem_cons.mp hchars with rfl | hrest
        · exact absurd (by simpa using hfirst) hother
        · exact hrest
      obtain ⟨name, hname, hmem⟩ := ih hrest
      exact ⟨name, List.mem_cons_of_mem _ hname, hmem⟩
    · cases hsplit : rest.splitOnP (· == '/') with
      | nil => exact absurd hsplit (List.splitOnP_ne_nil _ _)
      | cons head tail =>
        rw [List.modifyHead_cons]
        rcases List.mem_cons.mp hchars with rfl | hrest
        · exact ⟨_, List.mem_cons_self, List.mem_cons_self⟩
        · obtain ⟨name, hname, hmem⟩ := ih hrest
          rw [List.splitOn, hsplit] at hname
          rcases List.mem_cons.mp hname with rfl | hname
          · exact ⟨_, List.mem_cons_self, List.mem_cons_of_mem _ hmem⟩
          · exact ⟨name, List.mem_cons_of_mem _ hname, hmem⟩

theorem Path.hasNul_ofString {text : String} (hnul : '\x00' ∈ text.toList) :
    (ofString text).hasNul = true := by
  obtain ⟨name, hname, hmem⟩ := mem_components hnul (by decide)
  refine List.any_eq_true.mpr ⟨name, List.mem_filter.mpr ⟨hname, ?_⟩, by simpa using hmem⟩
  refine decide_eq_true ⟨?_, ?_⟩ <;> rintro rfl <;> simp at hmem

theorem Path.hasNul_join {base other : Path} (hnul : other.hasNul = true) :
    (base.join other).hasNul = true := by
  unfold join
  split
  · rw [hasNul, List.any_append, Bool.or_eq_true]
    exact .inr hnul
  · exact hnul

theorem Act.hasNul_of_makeDirectories {levels : Nat} {path : Path} {w w' : World σ}
    (hrun : (makeDirectories levels path : Act σ Unit) w = .ok () w') : path.hasNul = false := by
  by_contra hnul
  rw [Bool.not_eq_false] at hnul
  have hmake : w.disk.makeDirectory path = .error .nul := by
    rw [makeDirectory, Disk.find, if_pos hnul]
    rfl
  have hensure (onMissing : Act σ Unit) : ensureDirectory path onMissing w ≠ .ok () w' := by
    intro hok
    rw [ensureDirectory, bind_of_ok (rfl : (get : Act σ (World σ)) w = .ok w w), hmake] at hok
    obtain ⟨_, w₁, -, hend⟩ := ok_of_bind hok
    rw [if_pos (.inl rfl)] at hend
    cases hend
  cases levels with
  | zero => exact hensure _ hrun
  | succ levels => exact hensure _ hrun

/-- A run that has entered the workspace of a file has a name to make siblings of, and no NUL in
the path of its staging directory. -/
theorem Engine.named_of_prepare {engine : Engine σ} {file : Path} {w w' : World σ}
    (hrun : engine.prepare file w = .ok () w') : file.name ≠ "" ∧
      (ofFile file engine.settings.outputDirName).outputDir.hasNul = false := by
  obtain ⟨_, w₁, -, hrest⟩ := Act.ok_of_bind hrun
  obtain ⟨_, w₂, hrelease, hmake⟩ := Act.ok_of_bind hrest
  refine ⟨fun hname => ?_, Act.hasNul_of_makeDirectories hmake⟩
  have hsibling : (ofFile file engine.settings.outputDirName).temp = .error (.noName file) := by
    have hfile : file.withName? (file.name ++ ".temp") = none := if_pos hname
    simp only [temp, sibling, ofFile, hfile]
  obtain ⟨artifacts, w₃, hlift, -⟩ := Act.ok_of_bind hrelease
  rw [Workspace.artifacts, hsibling] at hlift
  cases hlift

/-- What can be resolved can be resolved on every disk of the same shape. -/
theorem Disk.SameShape.resolvable {disk disk' : Disk} {path : Path} (hsame : disk.SameShape disk')
    (hpath : disk.Resolvable path) : disk'.Resolvable path := by
  intro why hwhy
  rcases Except.cases_of_map_eq (hsame.leadsAlike path .followed) with
    ⟨other, hother', hother⟩ | ⟨found', found, hfound', -⟩
  · rw [hother'] at hwhy
    cases hwhy
    exact hpath _ hother
  · rw [hfound'] at hwhy
    cases hwhy

theorem Report.succeeded_add_failed (report : Report) :
    report.succeeded + report.failed = report.results.length :=
  Nat.add_sub_cancel' (List.length_filter_le _ _)

namespace Engine

variable {engine : Engine σ} {ws : Workspace} {file : Path} {total index : Nat} {step : Step}
  {steps : List Step} {result : StepResult} {results : List StepResult} {w w' : World σ}

/-! ## The result of a step -/

/-- The command of a step completes. -/
def Completes (engine : Engine σ) (ws : Workspace) (total index : Nat) (step : Step)
    (w : World σ) : Prop :=
  ∃ completed w', engine.issue ws total index step w = .ok (.ok completed) w'

/-- When the command of a step has ended and this has been reported, its output can be brought
back, if there is any. -/
def Reconciles (engine : Engine σ) (ws : Workspace) (total index : Nat) (step : Step)
    (w : World σ) : Prop :=
  let ended := engine.issue ws total index step >>= engine.noteEnd (stepLabel index total) step.name
  ∃ promoted w', step.convention.reconcile ws (ended.final w) = .ok promoted w'

/-- The result of a step tells how the step has gone. -/
structure Tells (engine : Engine σ) (ws : Workspace) (total index : Nat) (step : Step)
    (w : World σ) (result : StepResult) : Prop where
  numbered : result.index = index
  named : result.name = step.name
  ok_iff : result.ok = true ↔
    engine.Completes ws total index step w ∧ engine.Reconciles ws total index step w
  error_iff : result.error = none ↔ result.ok = true

/-- The end of a command is an error unless the command has completed. -/
theorem isNone_of_noteEnd {label name : String} {ran : Except Fault Completed}
    {error : Option String} (hrun : engine.noteEnd label name ran w = .ok error w') :
    error.isNone = true ↔ ∃ completed, ran = .ok completed := by
  cases ran with
  | ok completed =>
    obtain ⟨_, w₁, -, hend⟩ := Act.ok_of_bind hrun
    cases hend
    exact iff_of_true rfl ⟨completed, rfl⟩
  | error fault =>
    obtain ⟨_, w₁, -, hrest⟩ := Act.ok_of_bind hrun
    obtain ⟨_, w₂, -, hend⟩ := Act.ok_of_bind hrest
    cases hend
    exact iff_of_false Bool.false_ne_true (by rintro ⟨completed, hran⟩; cases hran)

/-- A step that comes to its end is told of, whatever its command has left behind. -/
theorem tells_of_runStep (hrun : engine.runStep ws index total step w = .ok result w') :
    engine.Tells ws total index step w result := by
  cases hargv : step.command ws with
  | error fault =>
    rw [runStep, Act.bind_of_ok (engine.reporter.info_eq _ _), hargv] at hrun
    cases hrun
  | ok argv =>
    rw [runStep_eq hargv] at hrun
    obtain ⟨ran, w₁, hissue, hrest⟩ := Act.ok_of_bind hrun
    obtain ⟨error, w₂, hnote, hsettle⟩ := Act.ok_of_bind hrest
    have hcompletes : error.isNone = true ↔ engine.Completes ws total index step w := by
      rw [isNone_of_noteEnd hnote, Completes, hissue]
      constructor
      · rintro ⟨completed, rfl⟩
        exact ⟨completed, w₁, rfl⟩
      · rintro ⟨completed, w₃, heq⟩
        cases heq
        exact ⟨completed, rfl⟩
    have hended : (engine.issue ws total index step >>=
        engine.noteEnd (stepLabel index total) step.name).final w = w₂ :=
      Act.final_of_ok ((Act.bind_of_ok hissue).trans hnote)
    have hreconciles : engine.Reconciles ws total index step w ↔
        ∃ promoted w', (step.convention.reconcile ws : Act σ (Option Path)) w₂ = .ok promoted w' := by
      rw [Reconciles, hended]
    rw [settle] at hsettle
    obtain ⟨settled, w₃, hattempt, hend⟩ := Act.ok_of_bind hsettle
    cases hbring : (step.convention.reconcile ws : Act σ (Option Path)) w₂ with
    | ok promoted w₄ =>
      rw [Act.attempt_of_ok hbring] at hattempt
      cases hattempt
      cases hend
      refine ⟨rfl, rfl, ?_, Option.isNone_iff_eq_none.symm⟩
      rw [hreconciles, hcompletes]
      exact (and_iff_left ⟨promoted, _, hbring⟩).symm
    | error fault w₄ =>
      rw [Act.attempt_of_error hbring] at hattempt
      cases hattempt
      dsimp only at hend
      split at hend
      · obtain ⟨_, w₅, -, hend⟩ := Act.ok_of_bind hend
        cases hend
        refine ⟨rfl, rfl, ?_, by simp⟩
        rw [hreconciles, hbring]
        exact iff_of_false Bool.false_ne_true (by rintro ⟨-, promoted, w₆, heq⟩; cases heq)
      · cases hend

/-! ## The results of a run -/

theorem final_runSteps_cons {w₁ : World σ}
    (hstep : engine.runStep ws index total step w = .ok result w₁) :
    (engine.runSteps ws total index (step :: steps)).final w =
      (engine.runSteps ws total (index + 1) steps).final w₁ := by
  rw [runSteps, Act.final_bind_of_ok hstep]
  cases hrest : engine.runSteps ws total (index + 1) steps w₁ with
  | ok results w₂ =>
    rw [Act.final_bind_of_ok hrest, Act.final_of_ok hrest]
    rfl
  | error fault w₂ => rw [Act.final_bind_of_error hrest, Act.final_of_error hrest]

/-- The results of a run: one for each step, in order, and each tells how its step has gone after
those before it. -/
theorem tells_of_runSteps (hrun : engine.runSteps ws total index steps w = .ok results w') :
    results.length = steps.length ∧ ∀ k step result, steps[k]? = some step →
      results[k]? = some result → engine.Tells ws total (index + k) step
        ((engine.runSteps ws total index (steps.take k)).final w) result := by
  induction steps generalizing index w results with
  | nil =>
    cases hrun
    exact ⟨rfl, fun k step result hstep => by simp at hstep⟩
  | cons first rest ih =>
    obtain ⟨result, w₁, hfirst, hmore⟩ := Act.ok_of_bind hrun
    obtain ⟨others, w₂, hrest, hend⟩ := Act.ok_of_bind hmore
    cases hend
    obtain ⟨hlength, htells⟩ := ih hrest
    refine ⟨by simp [hlength], fun k step told hstep htold => ?_⟩
    cases k with
    | zero =>
      cases hstep
      cases htold
      exact tells_of_runStep hfirst
    | succ k =>
      rw [List.take_succ_cons, final_runSteps_cons hfirst, Nat.add_comm k 1, ← Nat.add_assoc]
      exact htells k step told hstep htold

/-- Where every step has its command, commands that fail as commands do not keep the steps from
coming to their end. -/
theorem lasts_of_failsAsCommand (hrunner : engine.runner.FailsAsCommand)
    (hcommands : ∀ step ∈ steps, ∃ argv, step.command ws = .ok argv) :
    engine.Lasts ws total index steps w := by
  induction steps generalizing index w with
  | nil => trivial
  | cons step rest ih =>
    obtain ⟨⟨argv, hargv⟩, hothers⟩ := List.forall_mem_cons.mp hcommands
    obtain ⟨lines, w₁, hannounce, -⟩ := announce_eq engine total index hargv w
    obtain ⟨ran, htry⟩ := tryRun_eq hrunner { argv, cwd := ws.file.parent } w₁
    exact ⟨⟨ran, _, (Act.bind_of_ok hannounce).trans htry⟩, ih hothers⟩

theorem conclude_runsNothing (engine : Engine σ) (file : Path) (results : List StepResult) :
    (engine.conclude file results).RunsNothing :=
  Act.within_bind (Act.within_bind ((idle_covers engine.reporter).sweepAfter file) fun _ =>
    Act.within_pure _) fun _ => Act.within_bind (say_runsNothing _ _ _) fun _ => Act.within_pure _

/-- A run that is over its steps comes to its end if it can be told where to sweep. -/
theorem conclude_of_start {root : Path} (hname : '\x00' ∉ engine.settings.outputDirName.toList)
    (hstart : engine.sweepStart file w = .ok root w) (hroot : w.disk.Resolvable root)
    (results : List StepResult) :
    ∃ w', engine.conclude file results w = .ok ⟨file, results⟩ w' ∧ w'.commands = w.commands := by
  obtain ⟨removed, w₁, hsweep⟩ := sweepAfter_of_start hname hstart
    ((sameShape_logged w.disk _).resolvable hroot)
  have hend : engine.conclude file results w = .ok ⟨file, results⟩ _ :=
    (Act.bind_of_ok (Act.discard_of_ok hsweep)).trans (Act.bind_of_ok (Reporter.success_eq _ _ _))
  have hidle := (engine.conclude_runsNothing file results w).commands
  rw [Act.final_of_ok hend] at hidle
  exact ⟨_, hend, hidle⟩

/-- A run that enters its workspace and can leave it runs the commands of its steps, one after the
other and in the directory of the file, and returns a report.  Whatever the commands do and leave
behind, the report has one result for each step, which tells whether the command has completed and
its output has been brought back. -/
theorem deobfuscate_reports (engine : Engine σ) {file root : Path} {w entered left : World σ}
    (hrunner : engine.runner.FailsAsCommand)
    (hcommands : ∀ step ∈ engine.steps, ∃ argv,
      step.command (.ofFile file engine.settings.outputDirName) = .ok argv)
    (hfile : w.disk.isFile file = .ok true) (hprepare : engine.prepare file w = .ok () entered)
    (hrelease : (ofFile file engine.settings.outputDirName).release
      ((engine.runSteps (.ofFile file engine.settings.outputDirName) engine.steps.length 1
        engine.steps).final entered) = .ok () left)
    (hstart : engine.sweepStart file left = .ok root left) (hroot : left.disk.Resolvable root) :
    ∃ report commands w', engine.deobfuscate file w = .ok report w' ∧
      List.Forall₂ (Step.Issues (.ofFile file engine.settings.outputDirName)) engine.steps
        commands ∧ w'.commands = w.commands ++ commands ∧
      report.file = file ∧ report.results.length = engine.steps.length ∧
      (∀ k step result, engine.steps[k]? = some step → report.results[k]? = some result →
        engine.Tells (.ofFile file engine.settings.outputDirName) engine.steps.length (1 + k) step
          ((engine.runSteps (.ofFile file engine.settings.outputDirName) engine.steps.length 1
            (engine.steps.take k)).final entered) result) ∧
      report.succeeded + report.failed = engine.steps.length := by
  obtain ⟨hname, hout⟩ := named_of_prepare hprepare
  have hnul : '\x00' ∉ engine.settings.outputDirName.toList := by
    intro hmem
    rw [ofFile, Path.hasNul_join (Path.hasNul_ofString hmem)] at hout
    cases hout
  have hlasts : engine.Lasts (.ofFile file engine.settings.outputDirName) engine.steps.length 1
      engine.steps entered := lasts_of_failsAsCommand hrunner hcommands
  obtain ⟨results, w₁, commands, hrun, hissued, hran⟩ := runSteps_succeed hname hout
    (nameable_of_isFile hfile).1 hlasts
  obtain ⟨hlength, htells⟩ := tells_of_runSteps hrun
  rw [Act.final_of_ok hrun] at hrelease
  obtain ⟨w', hend, hconclude⟩ := conclude_of_start hnul hstart hroot results
  have hwork : engine.work file w = .ok results left := by
    rw [work_of_prepared hprepare]
    exact Act.always_of_ok hrun hrelease
  refine ⟨⟨file, results⟩, commands, w', ?_, hissued, ?_, rfl, hlength, htells, ?_⟩
  · rw [deobfuscate_eq, Act.bind_of_ok hwork, hend]
  · have hprepared := (engine.prepare_runsNothing file w).commands
    have hreleased := (release_within (idle_covers engine.reporter).remove
      (ofFile file engine.settings.outputDirName) w₁).commands
    rw [Act.final_of_ok hprepare] at hprepared
    rw [Act.final_of_ok hrelease] at hreleased
    rw [hconclude, hreleased, hran, hprepared]
  · rw [Report.succeeded_add_failed, hlength]

end Engine

section Samples

/-- Every tool puts a directory in the place of the file and leaves output, and fails. -/
def Sample.unruly : Runner Unit := fun command disk tools =>
  (.error (.command command.argv "exited with status 1" (some 1)),
    ((disk.eraseWithin ["a.js"]).insert ["a.js"] .directory).insert ["a.js.deobfuscated.js"]
      (.file [111] {}), tools)

theorem Sample.unruly_failsAsCommand : unruly.FailsAsCommand := by
  intro command disk tools fault hfault
  cases hfault
  exact ⟨_, _, _, rfl⟩

def Sample.tried : Engine Unit := Sample.engine Sample.unruly [Step.synchrony, Step.beautify]

theorem Sample.tried_completes_none {ws : Workspace} {total index : Nat} {step : Step}
    {w : World Unit} : ¬Sample.tried.Completes ws total index step w := by
  rintro ⟨completed, w', hissue⟩
  obtain ⟨argv, w₁, -, htry⟩ := Act.ok_of_bind hissue
  rcases Sample.tried.tryRun_cases { argv, cwd := ws.file.parent } w₁ with
    ⟨_, hreply, -⟩ | ⟨fault, -, -, hrun⟩ | ⟨fault, -, -, hrun⟩
  · cases hreply
  · cases hrun.symm.trans htry
  · cases hrun.symm.trans htry

theorem unruly_run_reported :
    ∃ report w', Sample.tried.deobfuscate ⟨.here, ["a.js"]⟩
        (Sample.world (Sample.disk [(["a.js"], .file [97] {})])) = .ok report w' ∧
      w'.commands.map (·.argv.head?) = [some "synchrony", some "js-beautify"] ∧
      w'.commands.map (·.cwd) = [some ⟨.here, []⟩, some ⟨.here, []⟩] ∧
      (∀ result ∈ report.results, result.ok = false) ∧ report.succeeded + report.failed = 2 := by
  let file : Path := ⟨.here, ["a.js"]⟩
  let ws := Workspace.ofFile file "output_dir"
  let start := Sample.world (Sample.disk [(["a.js"], .file [97] {})])
  let entered := (Sample.tried.prepare file).final start
  have hcommands : ∀ step ∈ Sample.tried.steps, ∃ argv, step.command ws = .ok argv := by
    intro step hstep
    fin_cases hstep <;> exact ⟨_, rfl⟩
  have hprepare : (Sample.tried.prepare file).result start = .ok () := by decide +kernel
  have hrelease : (ws.release : Act Unit Unit).result
      ((Sample.tried.runSteps ws 2 1 Sample.tried.steps).final entered) = .ok () := by
    decide +kernel
  have hhere (disk : Disk) : disk.Resolvable ⟨.here, []⟩ := by
    intro why hwhy
    rw [find_of_nameable (by decide), reach] at hwhy
    cases hlost : disk.cwd.lost with
    | zero =>
      simp only [hlost, climb, linkMax, route, walk] at hwhy
      split at hwhy <;> cases hwhy
      rfl
    | succ lost =>
      simp only [hlost, climb] at hwhy
      cases hwhy
  obtain ⟨report, commands, w', hrun, hissued, hran, -, hlength, htells, hsum⟩ :=
    Sample.tried.deobfuscate_reports Sample.unruly_failsAsCommand hcommands (by decide)
      (Act.eq_of_result_ok hprepare) (Act.eq_of_result_ok hrelease) rfl (hhere _)
  obtain ⟨first, second, rfl, hfirst, hsecond⟩ : ∃ first second, commands = [first, second] ∧
      Step.synchrony.Issues ws first ∧ Step.beautify.Issues ws second := by
    cases hissued with
    | cons hfirst hrest =>
      cases hrest with
      | cons hsecond hrest =>
        cases hrest
        exact ⟨_, _, rfl, hfirst, hsecond⟩
  obtain ⟨_, hargv, rfl⟩ := hfirst
  cases hargv
  obtain ⟨_, hargv, rfl⟩ := hsecond
  cases hargv
  refine ⟨report, w', hrun, by rw [hran]; rfl, by rw [hran]; rfl, fun result hresult => ?_, hsum⟩
  obtain ⟨k, hk, rfl⟩ := List.getElem_of_mem hresult
  have hstep := List.getElem?_eq_getElem (hlength ▸ hk)
  have htell := htells k _ _ hstep (List.getElem?_eq_getElem hk)
  exact Bool.eq_false_iff.mpr fun hok => Sample.tried_completes_none (htell.ok_iff.mp hok).1

/-- The staging directory is to be made where a file lies, once a link on the way to it has been
removed: the workspace is not entered, and no command is run. -/
theorem no_report_unstaged :
    let disk := Sample.disk [(["output_dir"], .file [112] {}), (["w"], .directory),
      (["w", "a.js"], .file [115] {}), (["w", "a.js.temp"], .link "p/q"), (["w", "p"], .directory),
      (["w", "p", "q"], .directory)] ["w"]
    let file : Path := ⟨.here, ["a.js.temp", "..", "..", "a.js"]⟩
    disk.WellFormed ∧ disk.isFile file = .ok true ∧ Sample.tidying.runner.FailsAsCommand ∧
      (∀ step ∈ Sample.tidying.steps, ∃ argv, step.command (.ofFile file "output_dir") = .ok argv) ∧
      ((ofFile file "output_dir").release : Act Unit Unit).result (Sample.world disk) = .ok () ∧
      ∃ w', Sample.tidying.deobfuscate file (Sample.world disk) =
          .error (.refused .occupied (some "a.js.temp/../../output_dir") none) w' ∧
        w'.commands = [] ∧ w'.disk.cwd = disk.cwd := by
  intro disk file
  have hrun : (Sample.tidying.deobfuscate file).result (Sample.world disk) =
        .error (.refused .occupied (some "a.js.temp/../../output_dir") none) ∧
      ((Sample.tidying.deobfuscate file).final (Sample.world disk)).commands = [] ∧
      ((Sample.tidying.deobfuscate file).final (Sample.world disk)).disk.cwd = disk.cwd := by
    decide +kernel
  refine ⟨⟨by decide, by decide⟩, by decide, Sample.runner_failsAsCommand id, ?_, by decide +kernel,
    _, Act.eq_of_result_error hrun.1, hrun.2⟩
  intro step hstep
  fin_cases hstep
  exact ⟨_, rfl⟩

end Samples

end Unscramble
