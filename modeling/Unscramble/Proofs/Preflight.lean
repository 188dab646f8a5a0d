import Unscramble.Program
import Unscramble.Proofs.Disk.Check
import Unscramble.Proofs.Gate

/-!
# The preflight as a barrier

A job makes sure of its packages before it asks the detector about any file or runs any
step.  If a package cannot be had, no file is touched, and only the final cleanup
changes the disk.  If all can be had, none is looked for again: the detector asks for
a package that is known to be there by then.
-/

namespace Unscramble

open Disk

variable {σ : Type}

/-! ## The final cleanup -/

namespace Disk

/-- A line is logged, an entry called `name` is removed with all it holds, or only what it
holds is. -/
inductive Trims (name : String) (disk : Disk) : Disk → Prop
  | logged (line : String) : Trims name disk (disk.logged line)
  | removed (dir : Loc) : Trims name disk (disk.eraseWithin (dir ++ [name]))
  | emptied (dir : Loc) : Trims name disk (disk.eraseBelow (dir ++ [name]))

/-- Nothing has become of the disk but removals of entries called `name`, and lines in the
log. -/
abbrev Trimmed (name : String) : Disk → Disk → Prop := Relation.ReflTransGen (Trims name)

instance (name : String) : IsPreorder Disk (Trimmed name) where
  refl _ := .refl
  trans _ _ _ := .trans

end Disk

/-- Work on a sound disk that only trims it. -/
def World.TrimmedTo (name : String) (w w' : World σ) : Prop :=
  w.disk.Sound → w'.disk.Sound ∧ w.Idle (Trimmed name) w'

instance (name : String) : IsPreorder (World σ) (World.TrimmedTo name) where
  refl w hsound := ⟨hsound, refl w⟩
  trans _ _ _ hab hbc hsound :=
    have hb := hab hsound
    have hc := hbc hb.1
    ⟨hc.1, IsTrans.trans _ _ _ hb.2 hc.2⟩

section Cleanup

variable {name : String} {dir : Path}

theorem say_trimmedTo (reporter : Reporter) (level : Level) (message : String) :
    (reporter.say level message : Act σ Unit).Within (World.TrimmedTo name) := by
  intro w hsound
  rw [Act.final_of_ok (reporter.say_eq level message w)]
  exact ⟨hsound.logged _, .single (.logged _), rfl, rfl, List.Subset.refl _⟩

theorem remove_trimmedTo (hname : Path.Ordinary name) :
    (Act.remove (dir.child name) : Act σ Bool).Within (World.TrimmedTo name) := by
  intro w hsound
  rcases Act.remove_child_cases dir hsound hname with
    ⟨-, hremove⟩ | ⟨-, fault, hremove⟩ | ⟨p, entry, hfind, hremove⟩ |
      ⟨p, hfind, -, fault, hremove⟩
  · rw [Act.final_of_ok hremove]
    exact ⟨hsound, refl w⟩
  · rw [Act.final_of_error hremove]
    exact ⟨hsound, refl w⟩
  · obtain ⟨q, -, -, ⟨h, -⟩ | ⟨_, h, -⟩⟩ := reached_of_find_child hname hfind <;> cases h
    rw [Act.final_of_ok hremove]
    exact ⟨hsound.eraseWithin (by simp), .single (.removed q), rfl, rfl, List.Subset.refl _⟩
  · obtain ⟨q, -, -, ⟨h, -⟩ | ⟨_, h, hheld⟩⟩ := reached_of_find_child hname hfind <;> cases h
    rw [Act.final_of_error hremove]
    exact ⟨hsound.eraseBelow hheld, .single (.emptied q), rfl, rfl, List.Subset.refl _⟩

/-- A sweep only trims a sound disk, whatever name it is given: a name that is none is not
in any listing. -/
theorem sweep_trimmedTo (reporter : Reporter) (name : String) (root : Path) :
    (Sweep.sweep reporter name root : Act σ (List Path)).Within (World.TrimmedTo name) := by
  apply sweep_within
  intro dir entries w hlist hmem hsound
  have hname := Sweep.ordinary_of_mem_directoryNames hsound hlist hmem
  exact Sweep.removeOne_final (say_trimmedTo reporter) (remove_trimmedTo hname w) hsound

end Cleanup

namespace Engine

variable {engine : Engine σ} {w w' : World σ}

theorem finalCleanup_trimmedTo (engine : Engine σ) (roots : List Path) :
    (engine.finalCleanup roots).Within (World.TrimmedTo engine.settings.outputDirName) :=
  Act.within_bind (say_trimmedTo _ _ _) fun _ => Act.within_bind (Act.within_forM fun root _ =>
    Act.within_bind (sweep_trimmedTo _ _ root) fun _ => Act.within_pure _) fun _ =>
      say_trimmedTo _ _ _

theorem finalCleanup_runsNothing (engine : Engine σ) (roots : List Path) :
    (engine.finalCleanup roots).RunsNothing :=
  Act.within_bind (say_runsNothing _ _ _) fun _ => Act.within_bind (Act.within_forM fun root _ =>
    Act.within_bind ((idle_covers _).sweep _ root) fun _ => Act.within_pure _) fun _ =>
      say_runsNothing _ _ _

/-! ## Making sure of the packages -/

/-- A package that has been made sure of is known to be there. -/
theorem mem_ensured_of_ensure {scope : Scope} {package : String} {installed : Bool}
    (hensure : engine.ensure scope package w = .ok installed w') :
    (scope, package) ∈ w'.ensured := by
  by_cases hknown : (scope, package) ∈ w.ensured
  · rw [engine.ensure_of_known hknown] at hensure
    cases hensure
    exact hknown
  · obtain ⟨es, -, -, hensured⟩ := engine.attempted_of_unknown hknown
    rw [Act.final_of_ok hensure, Act.result_of_ok hensure] at hensured
    rw [hensured]
    exact List.mem_cons_self

theorem ensureAll_only (engine : Engine σ) (scope : Scope) (packages : List String)
    (provision : Provision) : (engine.ensureAll scope packages provision).Within
      (engine.runner.Only OnlyLogs engine.IsInstaller) := by
  refine Act.within_foldlM (fun package _ provision => Act.within_bind (fun w => ?_)
    fun installed => ?_) provision
  · obtain ⟨es, hran, hready⟩ := engine.ensure_readies scope package w
    exact ⟨es, hran, hready.installer⟩
  · cases installed <;> exact Act.within_pure _

theorem provision_only (engine : Engine σ) (project everywhere : List String) :
    (engine.provision project everywhere).Within
      (engine.runner.Only OnlyLogs engine.IsInstaller) :=
  Act.within_bind (engine.ensureAll_only .project project {}) fun provision =>
    engine.ensureAll_only .everywhere everywhere provision

/-- After a preflight the packages of the project are known to be there. -/
theorem mem_ensured_of_provision {package : String} {everywhere : List String} {found : Provision}
    (hprovision : engine.provision [package] everywhere w = .ok found w') :
    (.project, package) ∈ w'.ensured := by
  obtain ⟨first, w₁, hproject, heverywhere⟩ := Act.ok_of_bind hprovision
  obtain ⟨_, w₂, hone, hnone⟩ := Act.ok_of_bind hproject
  obtain ⟨installed, w₃, hensure, hkept⟩ := Act.ok_of_bind hone
  have hknown := mem_ensured_of_ensure hensure
  have hsame : w₃ = w₁ := by
    cases hnone
    cases installed <;> cases hkept <;> rfl
  obtain ⟨es, hran, -⟩ := engine.ensureAll_only .everywhere everywhere first w₁
  rw [Act.final_of_ok heverywhere] at hran
  exact hran.known (hsame ▸ hknown)

/-! ## Work on files -/

/-- The command asks the detector about some text. -/
def IsDetector (engine : Engine σ) (command : Command) : Prop :=
  ∃ content, command = engine.detectCommand content

/-- The command is part of the work on files: it asks the detector or runs a step. -/
def IsWork (engine : Engine σ) (command : Command) : Prop :=
  engine.IsDetector command ∨ ∃ file, engine.IsFor file command

/-- No command is part of the preflight and of the work on files. -/
theorem IsWork.not_isInstaller {command : Command} (hwork : engine.IsWork command) :
    ¬engine.IsInstaller command := by
  rintro ⟨scope, package, hinstaller⟩
  rcases hwork with ⟨content, rfl⟩ | ⟨file, hfor⟩
  · cases scope <;> simp [detectCommand, checkCommand, installCommand] at hinstaller
  · refine not_isFor ?_ file hfor
    rcases hinstaller with rfl | rfl
    · exact .inl (by cases scope <;> rfl)
    · exact .inr (by cases scope <;> rfl)

/-- Where the detector is known to be there, nothing but work on files is run. -/
def Works (engine : Engine σ) (w w' : World σ) : Prop :=
  (.project, engine.settings.detectorPackage) ∈ w.ensured →
    engine.runner.Only Anyhow engine.IsWork w w'

instance (engine : Engine σ) : IsPreorder (World σ) engine.Works where
  refl w _ := refl w
  trans _ _ _ hab hbc hknown := by
    obtain ⟨es, hran, hes⟩ := hab hknown
    exact IsTrans.trans _ _ _ ⟨es, hran, hes⟩ (hbc (hran.known hknown))

theorem say_works (engine : Engine σ) (level : Level) (message : String) :
    (engine.reporter.say level message : Act σ Unit).Within engine.Works :=
  fun w _ => Runner.only_of_idle (say_runsNothing _ level message w)

theorem Asked.isWork {text : String} {accused : Prop}
    (hknown : (.project, engine.settings.detectorPackage) ∈ w.ensured)
    (hasked : engine.Asked text w accused w') : engine.runner.Only Anyhow engine.IsWork w w' := by
  cases hasked with
  | missing hready hran =>
    obtain rfl := hready.known hknown
    exact ⟨[], hran.mono fun _ _ _ => trivial, by simp⟩
  | answered hready hcommand hran =>
    obtain rfl := hready.known hknown
    refine ⟨_, hran.mono fun _ _ _ => trivial, fun exchange hmem => ?_⟩
    rw [List.mem_singleton.mp hmem]
    exact .inl ⟨text, hcommand⟩

/-- The visits of a run ask for no package if the detector is known to be there. -/
theorem visit_works (engine : Engine σ) (outcomes : List Outcome) (file : Path) :
    (engine.visit outcomes file).Within engine.Works := by
  intro w hknown
  cases engine.visit_gated outcomes file w with
  | unread hidle => exact Runner.only_of_idle { hidle with disk := trivial }
  | spared hreads hasked => exact hasked.isWork hknown
  | sent hreads hasked hran htools =>
    refine IsTrans.trans _ _ _ (hasked.isWork hknown) ⟨_, hran, fun exchange hmem => ?_⟩
    exact .inr ⟨file, htools exchange hmem⟩

theorem processTargets_works (engine : Engine σ) (targets : List Path) :
    (engine.processTargets targets).Within engine.Works :=
  Tour.within_targets engine.say_works engine.visit_works targets

/-! ## The barrier -/

/-- Make sure of the packages, as a job does. -/
def preflight (engine : Engine σ) : Act σ Provision := do
  engine.reporter.info "Checking dependencies..."
  engine.provision [engine.settings.detectorPackage] engine.settings.globalTools

/-- What happens from one world to another if the preflight is a barrier. -/
inductive Barrier (engine : Engine σ) (w w' : World σ) : Prop
  /-- The preflight fails: nothing but its commands is run, and what the program itself does
  to the disk is to remove entries with the name of the staging directory. -/
  | stopped {fault : Fault} {es : List Exchange} {w₁ : World σ}
      (hfault : engine.preflight.result w = .error fault)
      (hran : engine.runner.Ran OnlyLogs w es w₁)
      (hes : ∀ exchange ∈ es, engine.IsInstaller exchange.command ∧ ¬engine.IsWork exchange.command)
      (hcleaned : w₁.Idle (Trimmed engine.settings.outputDirName) w')
  /-- The preflight succeeds: nothing but its commands is run before work on files, and
  nothing but work on files after them. -/
  | passed {found : Provision} {es later : List Exchange} {w₁ : World σ}
      (hfound : engine.preflight.result w = .ok found)
      (hran : engine.runner.Ran OnlyLogs w es w₁)
      (hes : ∀ exchange ∈ es, engine.IsInstaller exchange.command ∧ ¬engine.IsWork exchange.command)
      (hworked : engine.runner.Ran Anyhow w₁ later w')
      (hlater : ∀ exchange ∈ later,
        engine.IsWork exchange.command ∧ ¬engine.IsInstaller exchange.command)

theorem preflight_only (engine : Engine σ) :
    engine.preflight.Within (engine.runner.Only OnlyLogs engine.IsInstaller) :=
  Act.within_bind (fun w => Runner.only_of_idle (say_idle _ _ _ w)) fun _ => engine.provision_only _ _

theorem walk_eq (engine : Engine σ) (targets : List Path) :
    engine.walk targets = engine.preflight >>= fun found =>
      engine.reporter.info ("Dependencies ready (" ++ toString found.present.length
        ++ " present, " ++ toString found.installed.length ++ " installed).") >>= fun _ =>
          engine.processTargets targets := by
  simp only [walk, preflight, bind_assoc]

/-- Walk, and report a package that cannot be had. -/
def guarded (engine : Engine σ) (targets : List Path) : Act σ (List Outcome) := do
  match ← Act.attempt (engine.walk targets) with
  | .ok outcomes => return outcomes
  | .error (.install why) => engine.reporter.giveUp (.install why)
  | .error fault => throw fault

/-- Walk, clean up however that ends, and show a summary. -/
def session (engine : Engine σ) (targets roots : List Path) (console : Console) : Act σ Unit := do
  let outcomes ← Act.always (engine.guarded targets) (engine.finalCleanup roots)
  showSummary console outcomes

theorem guarded_idle (engine : Engine σ) (targets : List Path) (w : World σ) :
    ((engine.walk targets).final w).Idle OnlyLogs ((engine.guarded targets).final w) := by
  rw [← Act.final_attempt]
  refine Act.final_bind_after (fun result => ?_) w
  split
  · exact Act.within_pure _
  · exact Act.within_bind (say_idle _ _ _) fun _ => Act.within_throw _
  · exact Act.within_throw _

/-- Once it has cleaned up, a session changes nothing but the screen. -/
theorem session_idle (engine : Engine σ) (targets roots : List Path) (console : Console)
    (w : World σ) (own : Disk → Disk → Prop) [IsPreorder Disk own] :
    ((engine.finalCleanup roots).final ((engine.guarded targets).final w)).Idle own
      ((engine.session targets roots console).final w) := by
  rw [← Act.final_always]
  refine Act.final_bind_after (fun outcomes => Act.within_bind (Act.within_lift _) fun table => ?_) w
  exact fun w => ⟨refl w.disk, rfl, rfl, List.Subset.refl _⟩

/-- The preflight of a session is a barrier. -/
theorem session_barrier (engine : Engine σ) (targets roots : List Path) (console : Console)
    (hkeeps : engine.runner.KeepsSound) (hsound : w.disk.Sound) :
    engine.Barrier w ((engine.session targets roots console).final w) := by
  have hguarded := engine.guarded_idle targets w
  obtain ⟨es, hran, hes⟩ := engine.preflight_only w
  have hes' : ∀ exchange ∈ es, engine.IsInstaller exchange.command ∧
      ¬engine.IsWork exchange.command :=
    fun exchange hmem => ⟨hes exchange hmem, fun hwork => hwork.not_isInstaller (hes exchange hmem)⟩
  rw [walk_eq] at hguarded
  cases hpreflight : engine.preflight w with
  | error fault w' =>
    rw [Act.final_of_error hpreflight] at hran
    rw [Act.final_bind_of_error hpreflight] at hguarded
    have hstopped := hran.append (.idle hguarded)
    rw [List.append_nil] at hstopped
    have hcleaned := (engine.finalCleanup_trimmedTo roots _ (hstopped.sound hkeeps hsound)).2
    exact .stopped (Act.result_of_error hpreflight) hstopped hes'
      (IsTrans.trans _ _ _ hcleaned (engine.session_idle targets roots console w _))
  | ok found w' =>
    rw [Act.final_of_ok hpreflight] at hran
    rw [Act.final_bind_of_ok hpreflight] at hguarded
    have hknown : (.project, engine.settings.detectorPackage) ∈ w'.ensured := by
      obtain ⟨_, w₁, -, hprovision⟩ := Act.ok_of_bind hpreflight
      exact mem_ensured_of_provision hprovision
    obtain ⟨later, hworked, hlater⟩ := Act.within_bind (engine.say_works _ _)
      (fun _ => engine.processTargets_works targets) w' hknown
    have hend : (Act.final _ w').Idle Anyhow ((engine.session targets roots console).final w) :=
      IsTrans.trans _ _ _ { hguarded with disk := trivial } (IsTrans.trans _ _ _
        (engine.finalCleanup_runsNothing roots _)
          (engine.session_idle targets roots console w Anyhow))
    have hworked' := hworked.append (.idle hend)
    rw [List.append_nil] at hworked'
    exact .passed (Act.result_of_ok hpreflight) hran hes' hworked' fun exchange hmem =>
      ⟨hlater exchange hmem, (hlater exchange hmem).not_isInstaller⟩

end Engine

/-- The engine of a job. -/
def Job.engine (job : Job) (around : Surroundings) (runner : Runner σ) (projectDir : Path) :
    Engine σ where
  runner := runner
  reporter := job.reporter
  settings := job.settings
  projectDir := projectDir
  detectorScript := around.detectorScript

/-- What a job sweeps in the end. -/
def Job.roots (job : Job) : Act σ (List Path) := do
  match job.settings.cleanupScope with
  | .workingDirectory => return [← Act.workingDirectory]
  | .file => return job.targets

theorem Job.perform_eq (job : Job) (around : Surroundings) (runner : Runner σ) :
    job.perform around runner = job.settings.resolvedProjectDir >>= fun projectDir =>
      job.roots >>= fun roots =>
        (job.engine around runner projectDir).session job.targets roots around.console := by
  unfold Job.perform Job.roots
  refine congrArg _ (funext fun projectDir => ?_)
  cases job.settings.cleanupScope with
  | workingDirectory =>
    simp only [bind_assoc, pure_bind]
    rfl
  | file =>
    simp only [pure_bind]
    rfl

/-- Finding the directories to work in leaves the world as it is. -/
theorem Job.places_within_eq (job : Job) :
    (job.settings.resolvedProjectDir : Act σ Path).Within Eq ∧
      (job.roots : Act σ (List Path)).Within Eq := by
  constructor
  · unfold Settings.resolvedProjectDir
    cases job.settings.nodeProjectDir with
    | some path => exact Act.within_look _
    | none => exact Act.within_bind (Act.within_look _) fun _ => Act.within_look _
  · unfold Job.roots
    cases job.settings.cleanupScope with
    | workingDirectory => exact Act.within_bind (Act.within_look _) fun _ => Act.within_pure _
    | file => exact Act.within_pure _

/-- A job ends at once if it has no directory to work in; else it is a session. -/
theorem Job.perform_cases (job : Job) (around : Surroundings) (runner : Runner σ) (w : World σ) :
    (∃ fault, job.perform around runner w = .error fault w) ∨
      ∃ projectDir roots, job.settings.resolvedProjectDir.result w = .ok projectDir ∧
        job.roots.result w = .ok roots ∧ job.perform around runner w =
          (job.engine around runner projectDir).session job.targets roots around.console w := by
  obtain ⟨hproject, hroots⟩ := job.places_within_eq (σ := σ)
  rw [Job.perform_eq]
  cases hdir : job.settings.resolvedProjectDir w with
  | error fault w₁ =>
    obtain rfl : w = w₁ := (hproject w).trans (Act.final_of_error hdir)
    exact .inl ⟨fault, Act.bind_of_error hdir⟩
  | ok projectDir w₁ =>
    obtain rfl : w = w₁ := (hproject w).trans (Act.final_of_ok hdir)
    cases hsweep : job.roots w with
    | error fault w₂ =>
      obtain rfl : w = w₂ := (hroots w).trans (Act.final_of_error hsweep)
      exact .inl ⟨fault, (Act.bind_of_ok hdir).trans (Act.bind_of_error hsweep)⟩
    | ok roots w₂ =>
      obtain rfl : w = w₂ := (hroots w).trans (Act.final_of_ok hsweep)
      exact .inr ⟨projectDir, roots, Act.result_of_ok hdir, Act.result_of_ok hsweep,
        (Act.bind_of_ok hdir).trans (Act.bind_of_ok hsweep)⟩

/-- Once targets have been selected, the preflight of a job is a barrier, whatever the tools
do: its commands come before all work on files, there is no such work if a package cannot be
had, and none is looked for later if all can.  In the first case the program itself only
removes entries with the name of the staging directory, and logs.  A job that has no
directory to work in ends at once. -/
theorem barrier_of_perform (job : Job) (around : Surroundings) {runner : Runner σ} {w : World σ}
    (hkeeps : runner.KeepsSound) (hsound : w.disk.Sound) :
    (∃ fault, job.perform around runner w = .error fault w) ∨
      ∃ projectDir, job.settings.resolvedProjectDir.result w = .ok projectDir ∧
        (job.engine around runner projectDir).Barrier w ((job.perform around runner).final w) := by
  refine (job.perform_cases around runner w).imp_right ?_
  rintro ⟨projectDir, roots, hdir, -, hperform⟩
  refine ⟨projectDir, hdir, ?_⟩
  rw [Act.final, hperform]
  exact Engine.session_barrier _ _ _ _ hkeeps hsound

/-- Every command fails and changes nothing. -/
def Sample.refusing : Runner Unit := fun command disk tools =>
  (.error (.command command.argv "missing" (some 1)), disk, tools)

/-- A job for one directory. -/
def Sample.job : Job where
  settings := {}
  reporter := Sample.tidying.reporter
  targets := [⟨.here, ["d"]⟩]

def Sample.around : Surroundings where
  environment := []
  console := Sample.tidying.reporter.console
  detectorScript := Sample.tidying.detectorScript

/-- A script, and a staging directory next to it. -/
def Sample.staged : Disk := Sample.disk [(["d"], .directory), (["d", "a.js"], .file [97] {}),
  (["d", "output_dir"], .directory), (["d", "output_dir", "b.js"], .file [98] {})]

theorem barrier_of_refused_job :
    Sample.refusing.KeepsSound ∧ Sample.staged.Sound ∧
      ∃ projectDir,
        Sample.job.settings.resolvedProjectDir.result (Sample.world Sample.staged) =
            .ok projectDir ∧
          (Sample.job.engine Sample.around Sample.refusing projectDir).Barrier
            (Sample.world Sample.staged)
            ((Sample.job.perform Sample.around Sample.refusing).final
              (Sample.world Sample.staged)) := by
  have hkeeps : Sample.refusing.KeepsSound := fun _ _ _ hsound => hsound
  have hsound : Sample.staged.Sound := by decide
  have hcommands : ((Sample.job.perform Sample.around Sample.refusing).final
      (Sample.world Sample.staged)).commands ≠ [] := by
    decide +kernel
  refine ⟨hkeeps, hsound, ?_⟩
  apply (barrier_of_perform Sample.job Sample.around hkeeps hsound).resolve_left
  rintro ⟨fault, hperform⟩
  rw [Act.final_of_error hperform] at hcommands
  exact hcommands rfl

/-- A preflight that fails leaves its lines in the log, which is not called `output_dir`. -/
theorem log_grows_before_barrier :
    let start := Sample.world Sample.unreadable
    let final := (Sample.job.perform Sample.around Sample.refusing).final start
    ((Sample.job.engine Sample.around Sample.refusing ⟨.root, []⟩).preflight.result start).isOk = false ∧
      start.disk.tree.get? ["notes"] = some (.file [] {}) ∧
        final.disk.tree.get? ["notes"] ≠ some (.file [] {}) := by
  decide +kernel

end Unscramble
