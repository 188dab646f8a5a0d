import Unscramble.Proofs.Judgement

/-!
# Commands and their replies

What a run asks of its tools is a sequence of commands, each with the reply it got
where it was run.  Two worlds are joined by such a sequence if nothing else is run
between them; what the program itself does to the disk meanwhile is kept within a
relation.  A package is looked for and a file is judged without the program changing
anything itself but the log.
-/

namespace Unscramble

variable {σ α β : Type}

/-- The value or the fault that an action ends with. -/
def Act.result (act : Act σ α) (w : World σ) : Except Fault α :=
  match act w with
  | .ok value _ => .ok value
  | .error fault _ => .error fault

theorem Act.result_of_ok {act : Act σ α} {w w' : World σ} {value : α} (hact : act w = .ok value w') :
    act.result w = .ok value := by
  rw [result, hact]

theorem Act.result_bind_of_ok {act : Act σ α} {next : α → Act σ β} {w w' : World σ} {value : α}
    (hact : act w = .ok value w') : (act >>= next).result w = (next value).result w' := by
  rw [result, bind_of_ok hact, result]

/-- What an action goes on with stays within a relation from where it has come to. -/
theorem Act.final_bind_after {R : World σ → World σ → Prop} [IsPreorder (World σ) R]
    {act : Act σ α} {next : α → Act σ β} (hnext : ∀ value, (next value).Within R) (w : World σ) :
    R (act.final w) ((act >>= next).final w) := by
  cases hact : act w with
  | ok value w' =>
    rw [final_of_ok hact, final_bind_of_ok hact]
    exact hnext value w'
  | error fault w' =>
    rw [final_of_error hact, final_bind_of_error hact]
    exact refl w'

theorem Act.result_of_error {act : Act σ α} {w w' : World σ} {fault : Fault}
    (hact : act w = .error fault w') : act.result w = .error fault := by
  rw [result, hact]

theorem Act.eq_of_result_ok {α : Type} {act : Act σ α} {w : World σ} {value : α}
    (hresult : act.result w = .ok value) : act w = .ok value (act.final w) := by
  unfold result at hresult
  unfold final
  cases hact : act w with
  | ok value' w' =>
    rw [hact] at hresult
    cases hresult
    rfl
  | error fault w' =>
    rw [hact] at hresult
    cases hresult

theorem Act.eq_of_result_error {α : Type} {act : Act σ α} {w : World σ} {fault : Fault}
    (hresult : act.result w = .error fault) : act w = .error fault (act.final w) := by
  unfold result at hresult
  unfold final
  cases hact : act w with
  | ok value w' =>
    rw [hact] at hresult
    cases hresult
  | error fault' w' =>
    rw [hact] at hresult
    cases hresult
    rfl

theorem Act.result_lift (value : Except Fault α) (w : World σ) :
    (lift value : Act σ α).result w = value := by
  cases value <;> rfl

theorem Act.final_lift (value : Except Fault α) (w : World σ) :
    (lift value : Act σ α).final w = w := by
  cases value <;> rfl

/-- A command and how it ended. -/
structure Exchange where
  command : Command
  reply : Except Fault Completed

/-- The fault is the failure of a command. -/
def Fault.IsCommand (fault : Fault) : Prop :=
  ∃ argv detail status, fault = .command argv detail status

namespace Disk

/-- The disk has changed by lines in the log only. -/
def OnlyLogs (disk disk' : Disk) : Prop := ∃ lines, disk' = disk.noted lines

/-- Whatever has become of the disk. -/
def Anyhow (_ _ : Disk) : Prop := True

instance : IsPreorder Disk OnlyLogs where
  refl _ := ⟨[], rfl⟩
  trans _ _ _ hab hbc := by
    obtain ⟨lines, rfl⟩ := hab
    obtain ⟨lines', rfl⟩ := hbc
    exact ⟨lines ++ lines', (noted_append _ _ _).symm⟩

instance : IsPreorder Disk Anyhow where
  refl _ := trivial
  trans _ _ _ _ _ := trivial

end Disk

/-- No command is run between two worlds, nothing that is known of packages is forgotten,
and the disk changes within `own`. -/
structure World.Idle (own : Disk → Disk → Prop) (w w' : World σ) : Prop where
  disk : own w.disk w'.disk
  tools : w'.tools = w.tools
  commands : w'.commands = w.commands
  known : w.ensured ⊆ w'.ensured

instance (own : Disk → Disk → Prop) [IsPreorder Disk own] :
    IsPreorder (World σ) (World.Idle own) where
  refl w := ⟨refl w.disk, rfl, rfl, List.Subset.refl _⟩
  trans _ _ _ hab hbc :=
    ⟨IsTrans.trans _ _ _ hab.disk hbc.disk, hbc.tools.trans hab.tools,
      hbc.commands.trans hab.commands, List.Subset.trans hab.known hbc.known⟩

namespace Runner

/-- From one world to another these commands are run, in this order and with these
replies.  In between the program itself changes the disk within `own`. -/
inductive Ran (runner : Runner σ) (own : Disk → Disk → Prop) :
    World σ → List Exchange → World σ → Prop
  | idle {w w' : World σ} (hidle : w.Idle own w') : Ran runner own w [] w'
  | command {w w₁ w' : World σ} {command : Command} {rest : List Exchange}
      (hidle : w.Idle own w₁)
      (hrest : Ran runner own ((Act.run runner command).final w₁) rest w') :
      Ran runner own w (⟨command, (runner command w₁.disk w₁.tools).1⟩ :: rest) w'

/-- Only commands with a property are run between two worlds. -/
def Only (runner : Runner σ) (own : Disk → Disk → Prop) (P : Command → Prop)
    (w w' : World σ) : Prop :=
  ∃ es, runner.Ran own w es w' ∧ ∀ exchange ∈ es, P exchange.command

section Ran

variable {runner : Runner σ} {own own' : Disk → Disk → Prop} {w w₁ w' : World σ}
  {es es' : List Exchange}

theorem Ran.mono (hown : ∀ disk disk', own disk disk' → own' disk disk')
    (hran : runner.Ran own w es w') : runner.Ran own' w es w' := by
  induction hran with
  | idle hidle => exact .idle { hidle with disk := hown _ _ hidle.disk }
  | command hidle _ ih => exact .command { hidle with disk := hown _ _ hidle.disk } ih

/-- A command is put on record, and what is known of packages stays. -/
theorem record_run (runner : Runner σ) (command : Command) (w : World σ) :
    ((Act.run runner command).final w).commands = w.commands ++ [command] ∧
      ((Act.run runner command).final w).ensured = w.ensured := by
  rcases hresult : runner command w.disk w.tools with ⟨result, disk, tools⟩
  cases result <;> simp only [Act.final, Act.run, hresult, and_self]

/-- The commands that are run are those on record. -/
theorem Ran.commands_eq (hran : runner.Ran own w es w') :
    w'.commands = w.commands ++ es.map (·.command) := by
  induction hran with
  | idle hidle => simpa using hidle.commands
  | command hidle _ ih =>
    rw [ih, (record_run runner _ _).1, hidle.commands]
    simp

/-- What is known of packages is not forgotten. -/
theorem Ran.known (hran : runner.Ran own w es w') : w.ensured ⊆ w'.ensured := by
  induction hran with
  | idle hidle => exact hidle.known
  | command hidle _ ih =>
    rw [(record_run runner _ _).2] at ih
    exact List.Subset.trans hidle.known ih

/-- Commands that keep a disk sound do so with lines logged between them. -/
theorem Ran.sound (hkeeps : runner.KeepsSound) (hran : runner.Ran Disk.OnlyLogs w es w')
    (hsound : w.disk.Sound) : w'.disk.Sound := by
  have hidle {w w' : World σ} (hidle : w.Idle Disk.OnlyLogs w') (hsound : w.disk.Sound) :
      w'.disk.Sound := by
    obtain ⟨lines, hlines⟩ := hidle.disk
    exact hlines ▸ hsound.noted lines
  induction hran with
  | idle hnone => exact hidle hnone hsound
  | @command w w₁ w' command rest hnone _ ih =>
    apply ih
    rcases hresult : runner command w₁.disk w₁.tools with ⟨result, disk, tools⟩
    have hdisk := hkeeps command w₁.disk w₁.tools (hidle hnone hsound)
    rw [hresult] at hdisk
    cases result <;> simpa only [Act.final, Act.run, hresult] using hdisk

variable [IsPreorder Disk own]

theorem Ran.after_idle (hidle : w.Idle own w₁) (hran : runner.Ran own w₁ es w') :
    runner.Ran own w es w' := by
  cases hran with
  | idle hidle' => exact .idle (IsTrans.trans _ _ _ hidle hidle')
  | command hidle' hrest => exact .command (IsTrans.trans _ _ _ hidle hidle') hrest

theorem Ran.append (hfirst : runner.Ran own w es w₁) (hsecond : runner.Ran own w₁ es' w') :
    runner.Ran own w (es ++ es') w' := by
  induction hfirst with
  | idle hidle => exact hsecond.after_idle hidle
  | command hidle _ ih => exact .command hidle (ih hsecond)

theorem Ran.one (runner : Runner σ) (command : Command) (w : World σ) :
    runner.Ran own w [⟨command, (runner command w.disk w.tools).1⟩]
      ((Act.run runner command).final w) :=
  .command (refl w) (.idle (refl _))

end Ran

instance (runner : Runner σ) (own : Disk → Disk → Prop) [IsPreorder Disk own]
    (P : Command → Prop) : IsPreorder (World σ) (runner.Only own P) where
  refl w := ⟨[], .idle (refl w), by simp⟩
  trans w₁ w₂ w₃ := by
    rintro ⟨es, hran, hes⟩ ⟨es', hran', hes'⟩
    exact ⟨es ++ es', hran.append hran', List.forall_mem_append.mpr ⟨hes, hes'⟩⟩

theorem only_of_idle {runner : Runner σ} {own : Disk → Disk → Prop} {P : Command → Prop}
    {w w' : World σ} (hidle : w.Idle own w') : runner.Only own P w w' :=
  ⟨[], .idle hidle, by simp⟩

end Runner

/-! ## Parts of a run -/

theorem say_idle (reporter : Reporter) (level : Level) (message : String) :
    (reporter.say level message : Act σ Unit).Within (World.Idle Disk.OnlyLogs) := by
  intro w
  rw [Act.final_of_ok (reporter.say_eq level message w)]
  exact ⟨⟨[_], rfl⟩, rfl, rfl, List.Subset.refl _⟩

namespace Engine

variable {engine : Engine σ}

/-- A command ends as its runner says. -/
theorem result_run (engine : Engine σ) (command : Command) (w : World σ) :
    (engine.run command).result w = (engine.runner command w.disk w.tools).1 := by
  rcases hrun : engine.runner command w.disk w.tools with ⟨result, disk, tools⟩
  cases result <;> simp only [Act.result, run, Act.run, hrun]

/-- A command completes, fails as a command, or is cut short by another fault. -/
theorem tryRun_cases (engine : Engine σ) (command : Command) (w : World σ) :
    (∃ completed, (engine.runner command w.disk w.tools).1 = .ok completed ∧
      engine.tryRun command w = .ok (.ok completed) ((engine.run command).final w)) ∨
    (∃ fault, fault.IsCommand ∧ (engine.runner command w.disk w.tools).1 = .error fault ∧
      engine.tryRun command w = .ok (.error fault) ((engine.run command).final w)) ∨
    ∃ fault, ¬fault.IsCommand ∧ (engine.runner command w.disk w.tools).1 = .error fault ∧
      engine.tryRun command w = .error fault ((engine.run command).final w) := by
  rw [← result_run]
  cases hrun : engine.run command w with
  | ok completed w' =>
    refine .inl ⟨completed, Act.result_of_ok hrun, ?_⟩
    rw [tryRun, Act.bind_of_ok (Act.attempt_of_ok hrun), Act.final_of_ok hrun]
    rfl
  | error fault w' =>
    have hresult := Act.result_of_error hrun
    rw [tryRun, Act.bind_of_ok (Act.attempt_of_error hrun), Act.final_of_error hrun]
    by_cases hcommand : fault.IsCommand
    · refine .inr (.inl ⟨fault, hcommand, hresult, ?_⟩)
      obtain ⟨argv, detail, status, rfl⟩ := hcommand
      rfl
    · refine .inr (.inr ⟨fault, hcommand, hresult, ?_⟩)
      cases fault with
      | command argv detail status => exact absurd ⟨argv, detail, status, rfl⟩ hcommand
      | _ => rfl

end Engine

end Unscramble
