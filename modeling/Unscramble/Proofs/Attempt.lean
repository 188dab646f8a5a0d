import Unscramble.Proofs.Exchange

/-!
# Making sure of packages

A package is looked for and, if it is missing and that is allowed, installed.  An
attempt that comes to nothing is made again when the package is next asked for, and
one that succeeds is the last.  So the commands run for a package of one scope are,
over any sequence of calls, some attempts that failed and at most one that did not.
-/

namespace Unscramble

open Disk

variable {σ : Type}

namespace Engine

/-- An attempt to make sure of a package: what is asked of the tools, and what comes
of it. -/
inductive Attempt (engine : Engine σ) (scope : Scope) (package : String) :
    List Exchange → Except Fault Bool → Prop
  | present (completed : Completed) :
      Attempt engine scope package [⟨engine.checkCommand scope package, .ok completed⟩] (.ok false)
  | installed {missing : Fault} (hallowed : engine.settings.autoInstall = true)
      (hmissing : missing.IsCommand) (completed : Completed) :
      Attempt engine scope package
        [⟨engine.checkCommand scope package, .error missing⟩,
          ⟨engine.installCommand scope package, .ok completed⟩] (.ok true)
  | disabled {missing : Fault} (hdisabled : engine.settings.autoInstall = false)
      (hmissing : missing.IsCommand) :
      Attempt engine scope package [⟨engine.checkCommand scope package, .error missing⟩]
        (.error (.install (.disabled package)))
  | failed {missing fault : Fault} (hallowed : engine.settings.autoInstall = true)
      (hmissing : missing.IsCommand) (hfailed : fault.IsCommand) :
      Attempt engine scope package
        [⟨engine.checkCommand scope package, .error missing⟩,
          ⟨engine.installCommand scope package, .error fault⟩]
        (.error (.install (.failed package fault.message)))
  | checkAborted {fault : Fault} (hforeign : ¬fault.IsCommand) :
      Attempt engine scope package [⟨engine.checkCommand scope package, .error fault⟩]
        (.error fault)
  | installAborted {missing fault : Fault} (hallowed : engine.settings.autoInstall = true)
      (hmissing : missing.IsCommand) (hforeign : ¬fault.IsCommand) :
      Attempt engine scope package
        [⟨engine.checkCommand scope package, .error missing⟩,
          ⟨engine.installCommand scope package, .error fault⟩] (.error fault)

variable {engine : Engine σ} {scope : Scope} {package : String} {w : World σ}

/-- What is known to be there is not looked for. -/
theorem ensure_of_known (engine : Engine σ) (hknown : (scope, package) ∈ w.ensured) :
    engine.ensure scope package w = .ok false w := by
  rw [ensure, Act.bind_of_ok (rfl : (get : Act σ (World σ)) w = .ok w w)]
  simp only [if_pos hknown]
  rfl

theorem ensure_of_unknown (engine : Engine σ) (hunknown : (scope, package) ∉ w.ensured) :
    engine.ensure scope package w =
      (engine.tryRun (engine.checkCommand scope package) >>= fun ran =>
        if ran.isOk then
          engine.reporter.debug (package ++ presentText scope) >>= fun _ =>
            remember scope package >>= fun _ => pure false
        else
          engine.install scope package >>= fun _ => remember scope package >>= fun _ =>
            pure true) w := by
  rw [ensure, Act.bind_of_ok (rfl : (get : Act σ (World σ)) w = .ok w w)]
  simp only [if_neg hunknown, isInstalled, bind_assoc, pure_bind]

/-- What an attempt leaves: its commands have been run and nothing else has happened
but lines in the log, and the package is known to be there if it has succeeded. -/
def Attempted (engine : Engine σ) (scope : Scope) (package : String) (act : Act σ Bool)
    (w : World σ) : Prop :=
  ∃ es, engine.Attempt scope package es (act.result w) ∧
    engine.runner.Ran OnlyLogs w es (act.final w) ∧
      (act.final w).ensured =
        if (act.result w).isOk then (scope, package) :: w.ensured else w.ensured

theorem attempted_of_ok {act : Act σ Bool} {w₁ w' : World σ} {es : List Exchange}
    {installed : Bool} (hact : act w = .ok installed w')
    (hattempt : engine.Attempt scope package es (.ok installed))
    (hran : engine.runner.Ran OnlyLogs w es w₁) (hidle : w₁.Idle OnlyLogs w')
    (hensured : w'.ensured = (scope, package) :: w.ensured) :
    engine.Attempted scope package act w := by
  refine ⟨es, ?_, ?_, ?_⟩
  · rwa [Act.result_of_ok hact]
  · rw [Act.final_of_ok hact]
    simpa using hran.append (.idle hidle)
  · rw [Act.final_of_ok hact, Act.result_of_ok hact, hensured]
    rfl

theorem attempted_of_error {act : Act σ Bool} {w' : World σ} {es : List Exchange} {fault : Fault}
    (hact : act w = .error fault w') (hattempt : engine.Attempt scope package es (.error fault))
    (hran : engine.runner.Ran OnlyLogs w es w') (hensured : w'.ensured = w.ensured) :
    engine.Attempted scope package act w := by
  refine ⟨es, ?_, ?_, ?_⟩
  · rwa [Act.result_of_error hact]
  · rwa [Act.final_of_error hact]
  · rw [Act.final_of_error hact, Act.result_of_error hact, hensured]
    rfl

theorem said_idle (w : World σ) (reporter : Reporter) (level : Level) (message : String) :
    w.Idle OnlyLogs (w.said reporter level message) :=
  ⟨⟨[_], rfl⟩, rfl, rfl, List.Subset.refl _⟩

/-- A line is reported and a package is remembered. -/
theorem remembered_idle (w : World σ) (reporter : Reporter) (level : Level) (message : String)
    (found : Scope × String) :
    w.Idle OnlyLogs { w.said reporter level message with ensured := found :: w.ensured } :=
  ⟨⟨[_], rfl⟩, rfl, rfl, List.subset_cons_self _ _⟩

theorem ensured_run (engine : Engine σ) (command : Command) (w : World σ) :
    ((engine.run command).final w).ensured = w.ensured :=
  (Runner.record_run engine.runner command w).2

/-- One exchange with the tools. -/
theorem ran_run {command : Command} {reply : Except Fault Completed}
    (hreply : (engine.runner command w.disk w.tools).1 = reply) :
    engine.runner.Ran OnlyLogs w [⟨command, reply⟩] ((engine.run command).final w) :=
  hreply ▸ .one engine.runner command w

/-- An install of a package that is missing ends as its command does. -/
theorem runInstall_cases (engine : Engine σ) (scope : Scope) (package : String) (w : World σ) :
    let w₁ := w.said engine.reporter .info (package ++ " is not installed. Installing...")
    let w₂ := (engine.run (engine.installCommand scope package)).final w₁
    let reply := (engine.runner (engine.installCommand scope package) w₁.disk w₁.tools).1
    (∃ completed, reply = .ok completed ∧ engine.runInstall scope package w =
      .ok () (w₂.said engine.reporter .success (package ++ " installed successfully."))) ∨
    (∃ fault, fault.IsCommand ∧ reply = .error fault ∧ engine.runInstall scope package w =
      .error (.install (.failed package fault.message)) w₂) ∨
    ∃ fault, ¬fault.IsCommand ∧ reply = .error fault ∧
      engine.runInstall scope package w = .error fault w₂ := by
  intro w₁ w₂ reply
  have hstart := engine.reporter.info_eq (package ++ " is not installed. Installing...") w
  rcases engine.tryRun_cases (engine.installCommand scope package) w₁ with
    ⟨completed, hreply, htry⟩ | ⟨fault, hfailed, hreply, htry⟩ | ⟨fault, hforeign, hreply, htry⟩
  · refine .inl ⟨completed, hreply, ?_⟩
    rw [runInstall, Act.bind_of_ok hstart, Act.bind_of_ok htry]
    exact engine.reporter.success_eq _ w₂
  · refine .inr (.inl ⟨fault, hfailed, hreply, ?_⟩)
    rw [runInstall, Act.bind_of_ok hstart, Act.bind_of_ok htry]
    rfl
  · refine .inr (.inr ⟨fault, hforeign, hreply, ?_⟩)
    rw [runInstall, Act.bind_of_ok hstart, Act.bind_of_error htry]

/-- A package that is not known to be there is attempted once. -/
theorem attempted_of_unknown (engine : Engine σ) (hunknown : (scope, package) ∉ w.ensured) :
    engine.Attempted scope package (engine.ensure scope package) w := by
  have heq := engine.ensure_of_unknown hunknown
  have hchecked := engine.ensured_run (engine.checkCommand scope package) w
  rcases engine.tryRun_cases (engine.checkCommand scope package) w with
    ⟨completed, hreply, htry⟩ | ⟨missing, hmissing, hreply, htry⟩ | ⟨fault, hforeign, hreply, htry⟩
  case inl =>
    have hend := heq.trans (Act.bind_of_ok htry)
    have hlast := hend.trans (Act.bind_of_ok (engine.reporter.debug_eq _ _))
    exact attempted_of_ok hlast (.present completed) (ran_run hreply)
      (remembered_idle _ _ _ _ _)
      (congrArg _ hchecked)
  case inr.inr =>
    exact attempted_of_error (heq.trans (Act.bind_of_error htry)) (.checkAborted hforeign)
      (ran_run hreply) hchecked
  have hran := ran_run hreply
  replace heq := heq.trans (Act.bind_of_ok htry)
  simp only [Except.isOk, Except.toBool, Bool.false_eq_true, install_eq] at heq
  by_cases hallowed : engine.settings.autoInstall = true
  case neg =>
    rw [if_neg hallowed] at heq
    exact attempted_of_error heq (.disabled (by simpa using hallowed) hmissing) hran hchecked
  rw [if_pos hallowed] at heq
  let w₁ := (engine.run (engine.checkCommand scope package)).final w
  let w₂ := w₁.said engine.reporter .info (package ++ " is not installed. Installing...")
  have hinstalled :
      ((engine.run (engine.installCommand scope package)).final w₂).ensured = w.ensured :=
    (engine.ensured_run _ w₂).trans hchecked
  rcases engine.runInstall_cases scope package w₁ with
    ⟨completed, hreply', hinstall⟩ | ⟨fault, hfailed, hreply', hinstall⟩ |
      ⟨fault, hforeign, hreply', hinstall⟩
  · have hboth := hran.append ((ran_run hreply').after_idle (said_idle _ _ _ _))
    exact attempted_of_ok (heq.trans (Act.bind_of_ok hinstall)) (.installed hallowed hmissing completed)
      hboth (remembered_idle _ _ _ _ _) (congrArg _ hinstalled)
  · have hboth := hran.append ((ran_run hreply').after_idle (said_idle _ _ _ _))
    exact attempted_of_error (heq.trans (Act.bind_of_error hinstall))
      (.failed hallowed hmissing hfailed) hboth hinstalled
  · have hboth := hran.append ((ran_run hreply').after_idle (said_idle _ _ _ _))
    exact attempted_of_error (heq.trans (Act.bind_of_error hinstall))
      (.installAborted hallowed hmissing hforeign) hboth hinstalled

/-! ## Sequences of attempts -/

/-- The attempts made for a package, with what is known of it before and after: while it
is not known to be there, some that fail and then at most one that succeeds; afterwards
none. -/
inductive Attempts (engine : Engine σ) (scope : Scope) (package : String) :
    Bool → List Exchange → Bool → Prop
  | none (known : Bool) : Attempts engine scope package known [] known
  | again {es rest : List Exchange} {fault : Fault} {known : Bool}
      (hfailed : engine.Attempt scope package es (.error fault))
      (hrest : Attempts engine scope package false rest known) :
      Attempts engine scope package false (es ++ rest) known
  | last {es : List Exchange} {installed : Bool}
      (hdone : engine.Attempt scope package es (.ok installed)) :
      Attempts engine scope package false es true

theorem Attempts.eq_nil {es : List Exchange} {known : Bool}
    (hattempts : engine.Attempts scope package true es known) : es = [] ∧ known = true := by
  cases hattempts
  exact ⟨rfl, rfl⟩

theorem Attempts.trans {es es' : List Exchange} {before known after : Bool}
    (hfirst : engine.Attempts scope package before es known)
    (hsecond : engine.Attempts scope package known es' after) :
    engine.Attempts scope package before (es ++ es') after := by
  induction hfirst with
  | none known => exact hsecond
  | again hfailed _ ih =>
    rw [List.append_assoc]
    exact .again hfailed (ih hsecond)
  | last hdone =>
    obtain ⟨rfl, rfl⟩ := hsecond.eq_nil
    rw [List.append_nil]
    exact .last hdone

/-- The command looks for the package or installs it. -/
def Concerns (engine : Engine σ) (scope : Scope) (package : String) (exchange : Exchange) : Bool :=
  exchange.command = engine.checkCommand scope package ∨
    exchange.command = engine.installCommand scope package

theorem concerns_iff {exchange : Exchange} : engine.Concerns scope package exchange = true ↔
    exchange.command = engine.checkCommand scope package ∨
      exchange.command = engine.installCommand scope package := by
  simp [Concerns]

/-- A command that looks for a package or installs it does so for one package of one scope. -/
theorem concerns_unique {exchange : Exchange} {scope' : Scope} {package' : String}
    (hconcerns : engine.Concerns scope package exchange = true)
    (hconcerns' : engine.Concerns scope' package' exchange = true) :
    scope = scope' ∧ package = package' := by
  rw [concerns_iff] at hconcerns hconcerns'
  rcases hconcerns with heq | heq <;> rw [heq] at hconcerns' <;>
    cases scope <;> cases scope' <;>
      simp [checkCommand, installCommand] at hconcerns' <;> exact ⟨rfl, hconcerns'⟩

theorem Attempt.concerns {es : List Exchange} {result : Except Fault Bool}
    (hattempt : engine.Attempt scope package es result) :
    ∀ exchange ∈ es, engine.Concerns scope package exchange = true := by
  cases hattempt <;> simp [concerns_iff]

/-- The exchanges of an attempt are about its package and no other. -/
theorem Attempt.filter_concerns {es : List Exchange} {result : Except Fault Bool}
    (hattempt : engine.Attempt scope package es result) (scope' : Scope) (package' : String) :
    es.filter (engine.Concerns scope' package') =
      if (scope', package') = (scope, package) then es else [] := by
  split
  · next heq =>
    cases heq
    exact List.filter_eq_self.mpr hattempt.concerns
  · next hne =>
    refine List.filter_eq_nil_iff.mpr fun exchange hmem hconcerns => hne ?_
    obtain ⟨rfl, rfl⟩ := concerns_unique (hattempt.concerns exchange hmem) hconcerns
    rfl

/-- The command looks for some package or installs it. -/
def IsInstaller (engine : Engine σ) (command : Command) : Prop :=
  ∃ scope package, command = engine.checkCommand scope package ∨
    command = engine.installCommand scope package

theorem Attempt.isInstaller {es : List Exchange} {result : Except Fault Bool}
    (hattempt : engine.Attempt scope package es result) :
    ∀ exchange ∈ es, engine.IsInstaller exchange.command := by
  intro exchange hmem
  exact ⟨scope, package, concerns_iff.mp (hattempt.concerns exchange hmem)⟩

/-- Commands that make sure of a package: what they run installs something, and nothing is
run if the package is known to be there. -/
structure Readies (engine : Engine σ) (scope : Scope) (package : String) (w : World σ)
    (es : List Exchange) : Prop where
  installer : ∀ exchange ∈ es, engine.IsInstaller exchange.command
  known : (scope, package) ∈ w.ensured → es = []

theorem ensure_readies (engine : Engine σ) (scope : Scope) (package : String) (w : World σ) :
    ∃ es, engine.runner.Ran OnlyLogs w es ((engine.ensure scope package).final w) ∧
      engine.Readies scope package w es := by
  by_cases hknown : (scope, package) ∈ w.ensured
  · rw [Act.final_of_ok (engine.ensure_of_known hknown)]
    exact ⟨[], .idle (refl w), by simp, fun _ => rfl⟩
  · obtain ⟨es, hattempt, hran, -⟩ := engine.attempted_of_unknown hknown
    exact ⟨es, hran, hattempt.isInstaller, fun h => absurd h hknown⟩

/-- An install is only tried where it is allowed. -/
theorem Attempts.allowed {es : List Exchange} {before after : Bool}
    (hattempts : engine.Attempts scope package before es after) {exchange : Exchange}
    (hmem : exchange ∈ es) (hinstall : exchange.command = engine.installCommand scope package) :
    engine.settings.autoInstall = true := by
  have hcheck : engine.checkCommand scope package ≠ engine.installCommand scope package := by
    cases scope <;> simp [checkCommand, installCommand]
  have hone {es : List Exchange} {result : Except Fault Bool}
      (hattempt : engine.Attempt scope package es result) (hmem : exchange ∈ es) :
      engine.settings.autoInstall = true := by
    cases hattempt with
    | installed hallowed | failed hallowed | installAborted hallowed => exact hallowed
    | present | disabled | checkAborted =>
      obtain rfl := List.mem_singleton.mp hmem
      exact absurd hinstall hcheck
  induction hattempts with
  | none => cases hmem
  | again hfailed _ ih => exact (List.mem_append.mp hmem).elim (hone hfailed) ih
  | last hdone => exact hone hdone hmem

/-- The package is known to be there. -/
def knows (scope : Scope) (package : String) (w : World σ) : Bool :=
  w.ensured.contains (scope, package)

theorem knows_eq (scope : Scope) (package : String) (w : World σ) :
    knows scope package w = decide ((scope, package) ∈ w.ensured) := by
  simp [knows]

/-- For every package, what is run between two worlds are attempts that start and end with
what the worlds know of it; otherwise only lines are logged. -/
def Provides (engine : Engine σ) (w w' : World σ) : Prop :=
  ∃ es, engine.runner.Ran OnlyLogs w es w' ∧ ∀ scope package,
    engine.Attempts scope package (knows scope package w)
      (es.filter (engine.Concerns scope package)) (knows scope package w')

instance (engine : Engine σ) : IsPreorder (World σ) engine.Provides where
  refl w := ⟨[], .idle (refl w), fun _ _ => .none _⟩
  trans w₁ w₂ w₃ := by
    rintro ⟨es, hran, hes⟩ ⟨es', hran', hes'⟩
    refine ⟨es ++ es', hran.append hran', fun scope package => ?_⟩
    rw [List.filter_append]
    exact (hes scope package).trans (hes' scope package)

theorem ensure_provides (engine : Engine σ) (scope : Scope) (package : String) :
    (engine.ensure scope package).Within engine.Provides := by
  intro w
  by_cases hknown : (scope, package) ∈ w.ensured
  · rw [Act.final_of_ok (engine.ensure_of_known hknown)]
    exact refl w
  obtain ⟨es, hattempt, hran, hensured⟩ := engine.attempted_of_unknown hknown
  refine ⟨es, hran, fun scope' package' => ?_⟩
  rw [hattempt.filter_concerns, knows_eq, knows_eq, hensured]
  by_cases heq : (scope', package') = (scope, package)
  · cases heq
    cases hresult : (engine.ensure scope package).result w with
    | ok installed =>
      rw [hresult] at hattempt
      simpa [hknown, Except.isOk, Except.toBool] using Attempts.last hattempt
    | error fault =>
      rw [hresult] at hattempt
      simpa [hknown, Except.isOk, Except.toBool] using Attempts.again hattempt (.none false)
  · rw [if_neg heq]
    split
    · have hnone : engine.Attempts scope' package' (decide ((scope', package') ∈ w.ensured)) []
        (decide ((scope', package') ∈ w.ensured)) := .none _
      simpa [heq] using hnone
    · exact .none _

theorem ensureAll_provides (engine : Engine σ) (scope : Scope) (packages : List String)
    (provision : Provision) :
    (engine.ensureAll scope packages provision).Within engine.Provides :=
  Act.within_foldlM (fun package _ _ =>
    Act.within_bind (engine.ensure_provides scope package) fun installed => by
      cases installed <;> exact Act.within_pure _) provision

theorem provision_provides (engine : Engine σ) (project everywhere : List String) :
    (engine.provision project everywhere).Within engine.Provides :=
  Act.within_bind (engine.ensureAll_provides .project project {}) fun provision =>
    engine.ensureAll_provides .everywhere everywhere provision

/-- The command that asks the detector is about no package. -/
theorem not_concerns_detect (content : String) (reply : Except Fault Completed) :
    engine.Concerns scope package ⟨engine.detectCommand content, reply⟩ = false := by
  cases scope <;> simp [Concerns, detectCommand, checkCommand, installCommand]

theorem classify_provides (engine : Engine σ) (content : String) :
    (engine.classify content).Within engine.Provides := by
  have hdetect : (engine.tryRun (engine.detectCommand content)).Within engine.Provides := by
    refine (Act.composes_within _).tryRun fun w => ⟨_, .one engine.runner _ w, fun scope package => ?_⟩
    rw [List.filter_cons_of_neg (by simp [not_concerns_detect]), knows, knows, ensured_run]
    exact .none _
  refine Act.within_bind (Act.within_bind (engine.ensure_provides _ _) fun _ => Act.within_pure _)
    fun _ => Act.within_bind hdetect fun ran => ?_
  cases ran with
  | ok completed => exact Act.within_lift _
  | error fault => exact Act.within_throw _

/-! ## Calls on an installer -/

/-- What can be asked of an installer, for itself or by way of the detector. -/
inductive Call
  | ensure (scope : Scope) (package : String)
  | provision (project everywhere : List String)
  | classify (content : String)

def call (engine : Engine σ) : Call → Act σ Unit
  | .ensure scope package => discard (engine.ensure scope package)
  | .provision project everywhere => discard (engine.provision project everywhere)
  | .classify content => discard (engine.classify content)

/-- Serve calls in turn; one that fails does not keep the next from being served. -/
def serve (engine : Engine σ) (calls : List Call) : Act σ Unit :=
  calls.forM fun call => discard (Act.attempt (engine.call call))

theorem serve_provides (engine : Engine σ) (calls : List Call) :
    (engine.serve calls).Within engine.Provides := by
  have hdiscard {α : Type} {act : Act σ α} (hact : act.Within engine.Provides) :
      (discard act : Act σ Unit).Within engine.Provides :=
    Act.within_bind hact fun _ => Act.within_pure _
  refine Act.within_forM fun call _ => hdiscard (Act.within_attempt ?_)
  cases call with
  | ensure scope package => exact hdiscard (engine.ensure_provides scope package)
  | provision project everywhere => exact hdiscard (engine.provision_provides project everywhere)
  | classify content => exact hdiscard (engine.classify_provides content)

/-- An attempt answers that the package has been installed just if an install has
succeeded in it. -/
theorem Attempt.installed_iff {es : List Exchange} {result : Except Fault Bool}
    (hattempt : engine.Attempt scope package es result) :
    result = .ok true ↔ ∃ completed, ⟨engine.installCommand scope package, .ok completed⟩ ∈ es := by
  have hcheck : engine.installCommand scope package ≠ engine.checkCommand scope package := by
    cases scope <;> simp [checkCommand, installCommand]
  cases hattempt <;> simp [hcheck]

end Engine

/-- Over any sequence of calls on an installer that starts without knowledge, whatever the
tools do, the commands run for a package of a scope are attempts that fail and then at most
one that succeeds, made without regard to other packages and scopes; where installs are not
allowed none is run.  When the package is asked for next, nothing is run for it if an
attempt has succeeded and one more attempt is made if not, and the answer is that it has
been installed just if an install has succeeded then. -/
theorem attempts_of_serve (engine : Engine σ) (calls : List Engine.Call) (w : World σ) :
    let start := { w with ensured := [] }
    let after := (engine.serve calls).final start
    ∃ es, engine.runner.Ran OnlyLogs start es after ∧
      (engine.settings.autoInstall = false → ∀ exchange ∈ es, ∀ scope package,
        exchange.command ≠ engine.installCommand scope package) ∧
      ∀ scope package, ∃ known,
        engine.Attempts scope package false (es.filter (engine.Concerns scope package)) known ∧
        ∃ next, engine.runner.Ran OnlyLogs after next ((engine.ensure scope package).final after) ∧
          (if known then next = [] else
            engine.Attempt scope package next ((engine.ensure scope package).result after)) ∧
          ((engine.ensure scope package).result after = .ok true ↔
            ∃ completed, ⟨engine.installCommand scope package, .ok completed⟩ ∈ next) := by
  intro start after
  obtain ⟨es, hran, hattempts⟩ := engine.serve_provides calls start
  refine ⟨es, hran, ?_, fun scope package => ⟨_, hattempts scope package, ?_⟩⟩
  · intro hdisabled exchange hmem scope package hinstall
    have hconcerns : exchange ∈ es.filter (engine.Concerns scope package) :=
      List.mem_filter.mpr ⟨hmem, Engine.concerns_iff.mpr (.inr hinstall)⟩
    rw [(hattempts scope package).allowed hconcerns hinstall] at hdisabled
    cases hdisabled
  · by_cases hknown : (scope, package) ∈ after.ensured
    · have hensure := engine.ensure_of_known hknown
      refine ⟨[], ?_, by simp [after, Engine.knows_eq, hknown], ?_⟩
      · rw [Act.final_of_ok hensure]
        exact .idle (refl _)
      · simp [Act.result_of_ok hensure]
    · obtain ⟨next, hattempt, hran', -⟩ := engine.attempted_of_unknown hknown
      exact ⟨next, hran', by simpa [after, Engine.knows_eq, hknown] using hattempt, hattempt.installed_iff⟩

end Unscramble
