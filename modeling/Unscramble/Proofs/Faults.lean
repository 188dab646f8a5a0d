import Mathlib
import Unscramble.Proofs.Disk.Refused
import Unscramble.Proofs.Run
import Unscramble.Walk

/-!
# How actions fail

If every part of an action fails only in some ways, so does the whole.  Where the
commands fail only as commands, nothing that is done with a file ends the whole
run: each fault is one that a walk notes and passes over, or an installation that
has failed.
-/

namespace Unscramble

open Disk Workspace

variable {σ α β : Type}

namespace Act

/-- Every fault of an action satisfies `P`. -/
def Fails (P : Fault → Prop) (act : Act σ α) : Prop :=
  ∀ w fault w', act w = .error fault w' → P fault

section Fails

variable {P : Fault → Prop}

theorem Fails.imp {Q : Fault → Prop} {act : Act σ α} (hact : act.Fails P)
    (himp : ∀ fault, P fault → Q fault) : act.Fails Q :=
  fun w fault w' hrun => himp fault (hact w fault w' hrun)

theorem fails_pure (value : α) : (pure value : Act σ α).Fails P := fun _ _ _ hrun => by cases hrun

theorem fails_throw {fault : Fault} (hfault : P fault) : (throw fault : Act σ α).Fails P :=
  fun _ _ _ hrun => by cases hrun; exact hfault

theorem fails_bind {act : Act σ α} {next : α → Act σ β} (hact : act.Fails P)
    (hnext : ∀ value, (next value).Fails P) : (act >>= next).Fails P := by
  intro w fault w' hrun
  cases hfirst : act w with
  | ok value w₁ =>
      rw [bind_of_ok hfirst] at hrun
      exact hnext value w₁ fault w' hrun
  | error fault₁ w₁ =>
      rw [bind_of_error hfirst] at hrun
      cases hrun
      exact hact w fault w' hfirst

theorem fails_get_bind {next : World σ → Act σ β} (hnext : ∀ w, (next w).Fails P) :
    (get >>= next).Fails P :=
  fun w => hnext w w

theorem fails_look {question : Disk → Except Fault α}
    (hquestion : ∀ disk fault, question disk = .error fault → P fault) :
    (look question : Act σ α).Fails P := by
  refine fails_get_bind fun w => ?_
  cases hanswer : question w.disk with
  | ok answer => exact fails_pure answer
  | error fault => exact fails_throw (hquestion w.disk fault hanswer)

theorem fails_lift {value : Except Fault α} (hvalue : ∀ fault, value = .error fault → P fault) :
    (lift value : Act σ α).Fails P := by
  cases value with
  | ok value => exact fails_pure value
  | error fault => exact fails_throw (hvalue fault rfl)

theorem fails_ask {question : Disk → Path → Except Refusal α} {path : Path}
    (hrefused : ∀ disk why, question disk path = .error why →
      P (.refused why (some path.toString) none)) : (ask question path : Act σ α).Fails P := by
  refine fails_look fun disk fault hanswer => ?_
  unfold Disk.query at hanswer
  split at hanswer
  · cases hanswer
  · next why hwhy =>
      cases hanswer
      exact hrefused disk why hwhy

theorem fails_change {operation : Disk → Path → Except Refusal Disk} {path : Path}
    (hrefused : ∀ disk why, operation disk path = .error why →
      P (.refused why (some path.toString) none)) :
    (change operation path : Act σ Unit).Fails P := by
  intro w fault w' hrun
  cases hdisk : operation w.disk path with
  | ok disk => rw [change_of_ok hdisk] at hrun; cases hrun
  | error why => rw [change_of_error hdisk] at hrun; cases hrun; exact hrefused _ why hdisk

/-- The faults of an action that is taken up where `act` has been attempted. -/
theorem fails_attempt_bind {act : Act σ α} {next : Except Fault α → Act σ β} {Q : Fault → Prop}
    (hact : act.Fails Q) (hok : ∀ value, (next (.ok value)).Fails P)
    (herror : ∀ fault, Q fault → (next (.error fault)).Fails P) :
    (attempt act >>= next).Fails P := by
  intro w fault w' hrun
  cases hfirst : act w with
  | ok value w₁ =>
      rw [bind_of_ok (attempt_of_ok hfirst)] at hrun
      exact hok value w₁ fault w' hrun
  | error fault₁ w₁ =>
      rw [bind_of_ok (attempt_of_error hfirst)] at hrun
      exact herror fault₁ (hact w fault₁ w₁ hfirst) w₁ fault w' hrun

theorem fails_always {body : Act σ α} {cleanUp : Act σ Unit} (hbody : body.Fails P)
    (hclean : cleanUp.Fails P) : (always body cleanUp).Fails P := by
  intro w fault w' hrun
  simp only [always] at hrun
  cases hfirst : body w with
  | ok value w₁ =>
      cases hlast : cleanUp w₁ <;> simp only [hfirst, hlast] at hrun <;> cases hrun
      exact hclean w₁ fault w' hlast
  | error fault₁ w₁ =>
      cases hlast : cleanUp w₁ <;> simp only [hfirst, hlast] at hrun <;> cases hrun
      · exact hbody w fault w₁ hfirst
      · exact hclean w₁ fault w' hlast

theorem fails_forM {items : List α} {act : α → Act σ Unit} (hact : ∀ item, (act item).Fails P) :
    (items.forM act).Fails P := by
  induction items with
  | nil => exact fails_pure ()
  | cons item rest ih => exact fails_bind (hact item) fun _ => ih

theorem fails_foldlM {items : List α} {act : β → α → Act σ β}
    (hact : ∀ acc item, (act acc item).Fails P) (acc : β) : (items.foldlM act acc).Fails P := by
  induction items generalizing acc with
  | nil => exact fails_pure acc
  | cons item rest ih =>
      rw [List.foldlM_cons]
      exact fails_bind (hact acc item) fun acc => ih acc

end Fails

end Act

/-! ## Faults of what is done with a file -/

section Parts

variable {P : Fault → Prop}

theorem say_fails (reporter : Reporter) (level : Level) (message : String) :
    (reporter.say level message : Act σ Unit).Fails P := by
  intro w fault w' hrun
  rw [Reporter.say_eq] at hrun
  cases hrun

end Parts

/-- A fault that a walk notes and passes over. -/
def Fault.isMinor : Fault → Bool
  | .install _ | .interrupt _ | .exit _ => false
  | _ => true

theorem Fault.endsRun_of_isMinor {fault : Fault} (hfault : fault.isMinor = true) :
    fault.endsRun = false := by
  cases fault <;> first | rfl | cases hfault

/-- No fault of the action ends the whole run. -/
def Act.Spares (act : Act σ α) : Prop := act.Fails fun fault => fault.endsRun = false

/-- Every fault of the action is minor. -/
def Act.Minor (act : Act σ α) : Prop := act.Fails fun fault => fault.isMinor = true

theorem Act.Minor.spares {act : Act σ α} (hact : act.Minor) : act.Spares :=
  hact.imp fun _ => Fault.endsRun_of_isMinor

theorem ask_minor (question : Disk → Path → Except Refusal α) (path : Path) :
    (Act.ask question path : Act σ α).Minor := Act.fails_ask fun _ _ _ => rfl

theorem change_minor (operation : Disk → Path → Except Refusal Disk) (path : Path) :
    (Act.change operation path : Act σ Unit).Minor := Act.fails_change fun _ _ _ => rfl

/-- The system has refused the path, for a reason of the disk if the path has no NUL. -/
def Fault.RefusedAt (path : Path) (fault : Fault) : Prop :=
  ∃ why, fault = .refused why (some path.toString) none ∧ (path.hasNul = false → why ≠ .nul)

section RefusedAt

variable {path : Path}

theorem Fault.RefusedAt.isRefusal {fault : Fault} (hfault : fault.RefusedAt path)
    (hpath : path.hasNul = false) : fault.isRefusal = true := by
  obtain ⟨why, rfl, hwhy⟩ := hfault
  simpa [Fault.isRefusal] using hwhy hpath

theorem ask_refused {question : Disk → Path → Except Refusal α}
    (hquestion : ∀ disk, path.hasNul = false → question disk path ≠ .error .nul) :
    (Act.ask question path : Act σ α).Fails (Fault.RefusedAt path) :=
  Act.fails_ask fun disk why hwhy =>
    ⟨why, rfl, fun hpath hnul => hquestion disk hpath (hnul ▸ hwhy)⟩

theorem change_refused {operation : Disk → Path → Except Refusal Disk}
    (hoperation : ∀ disk, path.hasNul = false → operation disk path ≠ .error .nul) :
    (Act.change operation path : Act σ Unit).Fails (Fault.RefusedAt path) :=
  Act.fails_change fun disk why hwhy =>
    ⟨why, rfl, fun hpath hnul => hoperation disk hpath (hnul ▸ hwhy)⟩

/-- Removing what lies at a path fails, if at all, because the path is refused. -/
theorem remove_refused (path : Path) :
    (Act.remove path : Act σ Bool).Fails (Fault.RefusedAt path) := by
  have hlink : (Act.ask Disk.isLink path : Act σ Bool).Fails (Fault.RefusedAt path) :=
    ask_refused fun _ hpath => ask_ne_nul hpath _
  rw [Act.remove_eq]
  refine Act.fails_bind (ask_refused fun _ hpath => ask_ne_nul hpath _) fun directory =>
    Act.fails_bind hlink fun link => ?_
  split
  · exact Act.fails_bind (change_refused fun _ => clear_ne_nul) fun _ =>
      Act.fails_bind (change_refused fun _ => removeDirectory_ne_nul) fun _ => Act.fails_pure _
  · refine Act.fails_bind (ask_refused fun _ hpath => ask_ne_nul hpath _) fun present =>
      Act.fails_bind hlink fun link => ?_
    split
    · exact Act.fails_bind (change_refused fun _ => unlink_ne_nul) fun _ => Act.fails_pure _
    · exact Act.fails_pure _

end RefusedAt

theorem remove_minor (path : Path) : (Act.remove path : Act σ Bool).Minor :=
  (remove_refused path).imp fun _ ⟨_, hfault, _⟩ => hfault ▸ rfl

/-! ### The workspace -/

theorem isMinor_sibling {ws : Workspace} {ending : String} {fault : Fault}
    (hfault : ws.sibling ending = .error fault) : fault.isMinor = true := by
  unfold sibling at hfault
  split at hfault <;> cases hfault
  rfl

theorem release_minor (ws : Workspace) : (ws.release : Act σ Unit).Minor := by
  refine Act.fails_bind (Act.fails_lift fun fault hfault => ?_) fun artifacts =>
    Act.fails_forM fun artifact => Act.fails_bind (remove_minor artifact) fun _ => Act.fails_pure _
  cases htemp : ws.temp with
  | error why =>
      simp only [artifacts, htemp, bind, Except.bind] at hfault
      cases hfault
      exact isMinor_sibling htemp
  | ok temp =>
      cases hdeobfuscated : ws.deobfuscated with
      | error why =>
          simp only [artifacts, htemp, hdeobfuscated, bind, Except.bind] at hfault
          cases hfault
          exact isMinor_sibling hdeobfuscated
      | ok deobfuscated =>
          simp only [artifacts, htemp, hdeobfuscated, bind, Except.bind] at hfault
          cases hfault

theorem ensureDirectory_minor (path : Path) {onMissing : Act σ Unit} (hmissing : onMissing.Minor) :
    (Act.ensureDirectory path onMissing).Minor := by
  unfold Act.ensureDirectory
  refine Act.fails_get_bind fun w => ?_
  have hask (why : Refusal) : (Act.ask Disk.isDirectory path >>= fun answer =>
      if why = .nul ∨ answer = false then throw (.refused why (some path.toString) none)
      else pure () : Act σ Unit).Minor := by
    refine Act.fails_bind (ask_minor _ path) fun answer => ?_
    split
    · exact Act.fails_throw rfl
    · exact Act.fails_pure _
  split
  · exact fun _ _ _ hrun => by cases hrun
  · exact hmissing
  · exact hask _

theorem makeDirectories_minor (levels : Nat) (path : Path) :
    (Act.makeDirectories levels path : Act σ Unit).Minor := by
  induction levels generalizing path with
  | zero => exact ensureDirectory_minor path (Act.fails_throw rfl)
  | succ levels ih =>
      have hlast : (Act.makeDirectories levels path.parent >>= fun _ =>
          Act.ensureDirectory path (throw (.refused .notFound (some path.toString) none)) :
            Act σ Unit).Minor :=
        Act.fails_bind (ih path.parent) fun _ =>
          ensureDirectory_minor path (Act.fails_throw rfl)
      refine ensureDirectory_minor path ?_
      by_cases hpath : path.parent = path
      · simp only [if_pos hpath]
        exact Act.fails_bind (Act.fails_throw rfl) fun _ => hlast
      · simp only [if_neg hpath]
        exact hlast

section Use

variable {P : Fault → Prop} (hminor : ∀ fault, fault.isMinor = true → P fault)

include hminor

theorem use_fails {file : Path} {outputName : String} {body : Workspace → Act σ α}
    (hbody : (body (ofFile file outputName)).Fails P) : (use file outputName body).Fails P :=
  Act.fails_bind ((release_minor _).imp hminor) fun _ =>
    Act.fails_bind ((makeDirectories_minor _ _).imp hminor) fun _ =>
      Act.fails_always hbody ((release_minor _).imp hminor)

end Use

/-! ### Steps -/

theorem moveOver_minor (artifact target : Path) : (moveOver artifact target : Act σ Bool).Minor := by
  intro w fault w' hrun
  rw [moveOver_run] at hrun
  split at hrun <;> cases hrun
  rfl

theorem promote_minor (artifact target : Path) : (promote artifact target : Act σ Bool).Minor := by
  unfold promote
  refine Act.fails_bind (ask_minor _ artifact) fun isFile => ?_
  have hmove : (moveOver artifact target : Act σ Bool).Minor := moveOver_minor artifact target
  have hover : (Act.ask Disk.isEmptyFile artifact >>= fun isEmpty =>
      if isEmpty then Act.change Disk.unlink artifact >>= fun _ => pure false
      else Act.ask Disk.present target >>= fun present =>
        if present then Act.change Disk.unlink target >>= fun _ => moveOver artifact target
        else moveOver artifact target : Act σ Bool).Minor := by
    refine Act.fails_bind (ask_minor _ artifact) fun isEmpty => ?_
    split
    · exact Act.fails_bind (change_minor _ artifact) fun _ => Act.fails_pure _
    · refine Act.fails_bind (ask_minor _ target) fun present => ?_
      split
      · exact Act.fails_bind (change_minor _ target) fun _ => hmove
      · exact hmove
  cases isFile with
  | false => exact Act.fails_pure _
  | true => exact hover

theorem promoteFrom_minor (produced file : Path) :
    (Convention.promoteFrom produced file : Act σ (Option Path)).Minor :=
  Act.fails_bind (promote_minor produced file) fun _ => by
    split <;> exact Act.fails_pure _

theorem reconcile_minor (ws : Workspace) (convention : Convention) :
    (convention.reconcile ws : Act σ (Option Path)).Minor := by
  cases convention with
  | inPlace => exact Act.fails_pure _
  | outputDir => exact promoteFrom_minor _ _
  | tempSibling =>
      refine Act.fails_bind (Act.fails_lift fun _ => isMinor_sibling) fun temp => ?_
      refine Act.fails_bind (ask_minor _ temp) fun isDirectory => ?_
      split
      · exact Act.fails_bind (promoteFrom_minor _ _) fun promoted =>
          Act.fails_bind (Act.fails_bind (remove_minor temp) fun _ => Act.fails_pure _)
            fun _ => Act.fails_pure _
      · exact promoteFrom_minor _ _
  | siblingFile =>
      exact Act.fails_bind (Act.fails_lift fun _ => isMinor_sibling) fun _ =>
        promoteFrom_minor _ _

namespace Engine

variable {engine : Engine σ}

/-- A command that fails is noted. -/
theorem tryRun_fails {P : Fault → Prop} (hrunner : engine.runner.FailsAsCommand)
    (command : Command) : (engine.tryRun command).Fails P := by
  intro w fault w' hrun
  obtain ⟨ran, htry⟩ := tryRun_eq hrunner command w
  rw [htry] at hrun
  cases hrun

theorem noteEnd_minor (label name : String) (ran : Except Fault Completed) :
    (engine.noteEnd label name ran).Minor := by
  cases ran with
  | ok completed => exact Act.fails_bind (say_fails _ _ _) fun _ => Act.fails_pure _
  | error fault =>
      exact Act.fails_bind (say_fails _ _ _) fun _ => Act.fails_bind (say_fails _ _ _) fun _ =>
        Act.fails_pure _

theorem settle_minor (ws : Workspace) (index total : Nat) (step : Step) (error : Option String) :
    (engine.settle ws index total step error).Minor := by
  refine Act.fails_attempt_bind (reconcile_minor ws step.convention) (fun _ => Act.fails_pure _)
    fun fault hfault => ?_
  dsimp only
  split
  · exact Act.fails_bind (say_fails _ _ _) fun _ => Act.fails_pure _
  · exact Act.fails_throw hfault

/-- A step fails, if at all, in a minor way, or as it looks for its command or tries it. -/
structure StepFails (engine : Engine σ) (P : Fault → Prop) (ws : Workspace) (step : Step) :
    Prop where
  command : ∀ fault, step.command ws = .error fault → P fault
  tried : ∀ argv, step.command ws = .ok argv →
    (engine.tryRun { argv, cwd := ws.file.parent }).Fails P

section Steps

variable {P : Fault → Prop} (hminor : ∀ fault, fault.isMinor = true → P fault) {ws : Workspace}

include hminor

theorem runStep_fails {step : Step} (hstep : engine.StepFails P ws step) (index total : Nat) :
    (engine.runStep ws index total step).Fails P := by
  cases hargv : step.command ws with
  | error fault =>
      refine Act.fails_bind (say_fails _ _ _) fun _ => ?_
      rw [hargv]
      exact fun _ _ _ hrun => by cases hrun; exact hstep.command fault hargv
  | ok argv =>
      rw [runStep_of_command hargv]
      exact Act.fails_bind (say_fails _ _ _) fun _ => Act.fails_bind (say_fails _ _ _) fun _ =>
        Act.fails_bind (hstep.tried argv hargv) fun ran =>
          Act.fails_bind ((noteEnd_minor _ _ ran).imp hminor) fun error =>
            (settle_minor ws index total step error).imp hminor

theorem runSteps_fails {steps : List Step} (hsteps : ∀ step ∈ steps, engine.StepFails P ws step)
    (index total : Nat) : (engine.runSteps ws total index steps).Fails P := by
  induction steps generalizing index with
  | nil => exact Act.fails_pure _
  | cons step rest ih =>
      exact Act.fails_bind (runStep_fails hminor (hsteps step List.mem_cons_self) index total)
        fun result =>
          Act.fails_bind (ih (fun other hother => hsteps other (List.mem_cons_of_mem _ hother)) _)
            fun _ => Act.fails_pure _

end Steps

end Engine

/-! ### Sweeps -/

theorem removeOne_minor (reporter : Reporter) (target : Path) :
    (Sweep.removeOne reporter target : Act σ (List Path)).Minor := by
  refine Act.fails_attempt_bind (remove_minor target)
    (fun _ => Act.fails_bind (say_fails _ _ _) fun _ => Act.fails_pure _) fun fault hfault => ?_
  dsimp only
  split
  · exact Act.fails_bind (say_fails _ _ _) fun _ => Act.fails_pure _
  · exact Act.fails_throw hfault

theorem sweepBelow_minor (reporter : Reporter) (name : String) (depth : Nat) (dir : Path) :
    (Sweep.sweepBelow reporter name depth dir : Act σ (List Path)).Minor := by
  induction depth generalizing dir with
  | zero => exact Act.fails_pure _
  | succ depth ih =>
      intro w fault w' hrun
      cases hlist : w.disk.list dir with
      | error why =>
          rw [Sweep.sweepBelow_of_unlisted hlist] at hrun
          cases hrun
      | ok entries =>
          rw [Sweep.sweepBelow_of_list hlist] at hrun
          refine (show Act.Minor _ from Act.fails_bind ?_ fun here =>
            Act.fails_foldlM (fun removed next => ?_) here) w fault w' hrun
          · split
            · exact removeOne_minor reporter _
            · exact Act.fails_pure _
          · refine Act.fails_get_bind fun w => ?_
            split
            · exact Act.fails_pure _
            · exact Act.fails_bind (ih _) fun _ => Act.fails_pure _

/-- A sweep reports what it could not remove and goes on. -/
theorem sweepBelow_succeeds (reporter : Reporter) {name : String} (hname : '\x00' ∉ name.toList)
    (depth : Nat) (dir : Path) :
    (Sweep.sweepBelow reporter name depth dir : Act σ (List Path)).Fails fun _ => False := by
  induction depth generalizing dir with
  | zero => exact Act.fails_pure _
  | succ depth ih =>
      intro w fault w' hrun
      cases hlist : w.disk.list dir with
      | error why =>
          rw [Sweep.sweepBelow_of_unlisted hlist] at hrun
          cases hrun
      | ok entries =>
          -- what can be listed has no NUL in its path, and neither has the name
          have hnul : (dir.child name).hasNul = false := by
            rw [Path.hasNul_child, (nameable_of_list hlist).1]
            simpa using hname
          rw [Sweep.sweepBelow_of_list hlist] at hrun
          refine (show Act.Fails (fun _ => False) _ from Act.fails_bind ?_ fun here =>
            Act.fails_foldlM (fun removed next => ?_) here) w fault w' hrun
          · split
            · refine Act.fails_attempt_bind (remove_refused _)
                (fun _ => Act.fails_bind (say_fails _ _ _) fun _ => Act.fails_pure _)
                fun fault hfault => ?_
              simp only [hfault.isRefusal hnul, if_true]
              exact Act.fails_bind (say_fails _ _ _) fun _ => Act.fails_pure _
            · exact Act.fails_pure _
          · refine Act.fails_get_bind fun w => ?_
            split
            · exact Act.fails_pure _
            · exact Act.fails_bind (ih _) fun _ => Act.fails_pure _

/-- A sweep of a directory that is reached comes to its end. -/
theorem sweep_succeeds (reporter : Reporter) {name : String} (hname : '\x00' ∉ name.toList)
    {root : Path} {w : World σ} (hroot : w.disk.Resolvable root) :
    ∃ removed w', (Sweep.sweep reporter name root : Act σ (List Path)) w = .ok removed w' := by
  obtain ⟨directory, hdirectory⟩ := hroot.ask (·.kind = .directory)
  cases hrun : (Sweep.sweep reporter name root : Act σ (List Path)) w with
  | ok removed w' => exact ⟨removed, w', rfl⟩
  | error fault w' =>
      rw [Sweep.sweep, Act.bind_of_ok (Act.ask_of_ok hdirectory)] at hrun
      split at hrun
      · exact (sweepBelow_succeeds reporter hname _ root w fault w' hrun).elim
      · cases hrun

theorem sweep_minor (reporter : Reporter) (name : String) (root : Path) :
    (Sweep.sweep reporter name root : Act σ (List Path)).Minor := by
  refine Act.fails_bind (ask_minor _ root) fun isDirectory => ?_
  split
  · exact sweepBelow_minor reporter name _ root
  · exact Act.fails_pure _

namespace Engine

variable {engine : Engine σ}

theorem sweepAfter_minor (file : Path) : (engine.sweepAfter file).Minor := by
  have hsweep (root : Path) : (engine.reporter.debug "Cleaning up temporary data..." >>= fun _ =>
      Sweep.sweep engine.reporter engine.settings.outputDirName root :
        Act σ (List Path)).Minor :=
    Act.fails_bind (say_fails _ _ _) fun _ => sweep_minor _ _ root
  unfold sweepAfter
  cases engine.settings.cleanupScope with
  | workingDirectory =>
      refine Act.fails_bind (Act.fails_look fun disk fault hfault => ?_) hsweep
      unfold Disk.workingDirectory at hfault
      split at hfault <;> cases hfault
      rfl
  | file => exact hsweep file.parent

/-- A run over a file fails as its steps do, if not in a minor way. -/
theorem deobfuscate_fails {P : Fault → Prop} (hminor : ∀ fault, fault.isMinor = true → P fault)
    {file : Path} (hsteps : ∀ step ∈ engine.steps,
      engine.StepFails P (.ofFile file engine.settings.outputDirName) step) :
    (engine.deobfuscate file).Fails P :=
  Act.fails_bind (say_fails _ _ _) fun _ =>
    Act.fails_bind (use_fails hminor (runSteps_fails hminor hsteps _ _)) fun _ =>
      Act.fails_bind (Act.fails_bind ((sweepAfter_minor file).imp hminor) fun _ =>
        Act.fails_pure _) fun _ =>
          Act.fails_bind (say_fails _ _ _) fun _ => Act.fails_pure _

theorem remember_fails {P : Fault → Prop} (scope : Scope) (package : String) :
    (remember scope package : Act σ Unit).Fails P := fun _ _ _ hrun => by cases hrun

/-- Run the command that installs a package and tell how it has ended. -/
def runInstall (engine : Engine σ) (scope : Scope) (package : String) : Act σ Unit := do
  engine.reporter.info (package ++ " is not installed. Installing...")
  match ← engine.tryRun (engine.installCommand scope package) with
  | .ok _ => engine.reporter.success (package ++ " installed successfully.")
  | .error fault => throw (.install (.failed package fault.message))

theorem install_eq (engine : Engine σ) (scope : Scope) (package : String) :
    engine.install scope package =
      if engine.settings.autoInstall then engine.runInstall scope package
      else throw (.install (.disabled package)) := by
  unfold install runInstall
  cases engine.settings.autoInstall <;> rfl

/-- Where commands fail only as commands, an install fails only as an install. -/
theorem install_fails (hrunner : engine.runner.FailsAsCommand) (scope : Scope)
    (package : String) : (engine.install scope package).Fails fun fault =>
      ∃ why, fault = .install why := by
  rw [install_eq]
  split
  · refine Act.fails_bind (say_fails _ _ _) fun _ =>
      Act.fails_bind (tryRun_fails hrunner _) fun ran => ?_
    cases ran with
    | ok completed => exact say_fails _ _ _
    | error fault => exact Act.fails_throw ⟨_, rfl⟩
  · exact Act.fails_throw ⟨_, rfl⟩

theorem ensure_fails (hrunner : engine.runner.FailsAsCommand) (scope : Scope) (package : String) :
    (engine.ensure scope package).Fails fun fault => ∃ why, fault = .install why := by
  unfold ensure
  refine Act.fails_get_bind fun w => ?_
  split
  · exact Act.fails_pure _
  · refine Act.fails_bind (Act.fails_bind (tryRun_fails hrunner _) fun _ => Act.fails_pure _)
      fun installed => ?_
    split
    · exact Act.fails_bind (say_fails _ _ _) fun _ =>
        Act.fails_bind (remember_fails scope package) fun _ => Act.fails_pure _
    · exact Act.fails_bind (install_fails hrunner scope package) fun _ =>
        Act.fails_bind (remember_fails scope package) fun _ => Act.fails_pure _

theorem readFile_minor (path : Path) : (readFile path : Act σ String).Minor := by
  refine Act.fails_bind (ask_minor _ path) fun bytes => ?_
  split
  · exact Act.fails_pure _
  · exact Act.fails_throw rfl

end Engine

end Unscramble
