import Mathlib
import Unscramble.Proofs.Console.Escape
import Unscramble.Status
import Unscramble.Workspace

/-!
# What actions keep

An action ends in a world whether it succeeds or not.  A relation between worlds
that is reflexive and transitive holds over a whole action as soon as it holds
over its parts, so an invariant of a run is proved part by part.  Reporting a
line is one change of the world and never a fault.
-/

namespace Unscramble

variable {σ α β : Type}

namespace Act

theorem bind_of_ok {act : Act σ α} {next : α → Act σ β} {w w' : World σ} {value : α}
    (hact : act w = .ok value w') : (act >>= next) w = next value w' := by
  change EStateM.bind act next w = next value w'
  unfold EStateM.bind
  rw [hact]

theorem bind_of_error {act : Act σ α} {next : α → Act σ β} {w w' : World σ} {fault : Fault}
    (hact : act w = .error fault w') : (act >>= next) w = .error fault w' := by
  change EStateM.bind act next w = .error fault w'
  unfold EStateM.bind
  rw [hact]

/-- What succeeds has parts that succeed. -/
theorem ok_of_bind {act : Act σ α} {next : α → Act σ β} {w w' : World σ} {value : β}
    (hrun : (act >>= next) w = .ok value w') :
    ∃ first w₁, act w = .ok first w₁ ∧ next first w₁ = .ok value w' := by
  cases hact : act w with
  | ok first w₁ => exact ⟨first, w₁, rfl, (bind_of_ok hact).symm.trans hrun⟩
  | error fault w₁ =>
    rw [bind_of_error hact] at hrun
    cases hrun

theorem look_of_ok {question : Disk → Except Fault α} {w : World σ} {answer : α}
    (hanswer : question w.disk = .ok answer) : (look question : Act σ α) w = .ok answer w := by
  rw [look, bind_of_ok (rfl : (get : Act σ (World σ)) w = .ok w w)]
  simp only [hanswer]
  rfl

theorem look_of_error {question : Disk → Except Fault α} {w : World σ} {fault : Fault}
    (hanswer : question w.disk = .error fault) :
    (look question : Act σ α) w = .error fault w := by
  rw [look, bind_of_ok (rfl : (get : Act σ (World σ)) w = .ok w w)]
  simp only [hanswer]
  rfl

variable {question : Disk → Path → Except Refusal α} {operation : Disk → Path → Except Refusal Disk}
  {path : Path} {w : World σ}

theorem ask_of_ok {answer : α} (hanswer : question w.disk path = .ok answer) :
    (ask question path : Act σ α) w = .ok answer w :=
  look_of_ok (by rw [Disk.query, hanswer])

theorem ask_of_error {why : Refusal} (hanswer : question w.disk path = .error why) :
    (ask question path : Act σ α) w = .error (.refused why (some path.toString) none) w :=
  look_of_error (by rw [Disk.query, hanswer])

theorem change_of_ok {disk : Disk} (hdisk : operation w.disk path = .ok disk) :
    change operation path w = .ok () { w with disk } := by
  rw [change, bind_of_ok (rfl : (get : Act σ (World σ)) w = .ok w w)]
  simp only [hdisk]
  rfl

theorem change_of_error {why : Refusal} (hdisk : operation w.disk path = .error why) :
    change operation path w = .error (.refused why (some path.toString) none) w := by
  rw [change, bind_of_ok (rfl : (get : Act σ (World σ)) w = .ok w w)]
  simp only [hdisk]
  rfl

theorem attempt_of_ok {act : Act σ α} {w w' : World σ} {value : α} (hact : act w = .ok value w') :
    attempt act w = .ok (.ok value) w' := by
  simp only [attempt, hact]

theorem attempt_of_error {act : Act σ α} {w w' : World σ} {fault : Fault}
    (hact : act w = .error fault w') : attempt act w = .ok (.error fault) w' := by
  simp only [attempt, hact]

theorem always_of_ok {body : Act σ α} {cleanUp : Act σ Unit} {w w' w'' : World σ} {value : α}
    (hbody : body w = .ok value w') (hclean : cleanUp w' = .ok () w'') :
    always body cleanUp w = .ok value w'' := by
  simp only [always, hbody, hclean]

theorem bind_congr {act : Act σ α} {next : α → Act σ β} {w w' : World σ}
    (hact : act w = act w') : (act >>= next) w = (act >>= next) w' := by
  cases hrun : act w' with
  | ok value w'' => rw [bind_of_ok (hact.trans hrun), bind_of_ok hrun]
  | error fault w'' => rw [bind_of_error (hact.trans hrun), bind_of_error hrun]

/-- The world that an action leaves, however it ends. -/
def final (act : Act σ α) (w : World σ) : World σ :=
  match act w with
  | .ok _ w' => w'
  | .error _ w' => w'

theorem final_of_ok {act : Act σ α} {w w' : World σ} {value : α} (hact : act w = .ok value w') :
    act.final w = w' := by
  rw [final, hact]

theorem final_of_error {act : Act σ α} {w w' : World σ} {fault : Fault}
    (hact : act w = .error fault w') : act.final w = w' := by
  rw [final, hact]

theorem final_bind_of_ok {act : Act σ α} {next : α → Act σ β} {w w' : World σ} {value : α}
    (hact : act w = .ok value w') : (act >>= next).final w = (next value).final w' := by
  rw [final, bind_of_ok hact, final]

theorem final_bind_of_error {act : Act σ α} {next : α → Act σ β} {w w' : World σ} {fault : Fault}
    (hact : act w = .error fault w') : (act >>= next).final w = w' :=
  final_of_error (bind_of_error hact)

theorem final_always {body : Act σ α} {cleanUp : Act σ Unit} {w : World σ} :
    (always body cleanUp).final w = cleanUp.final (body.final w) := by
  simp only [final, always]
  cases body w with
  | ok value w' => cases hrun : cleanUp w' <;> simp only [hrun]
  | error fault w' => cases hrun : cleanUp w' <;> simp only [hrun]

theorem final_attempt {act : Act σ α} {w : World σ} : (attempt act).final w = act.final w := by
  simp only [final, attempt]
  cases act w <;> rfl

/-- Every run of an action stays within `R`. -/
def Within (R : World σ → World σ → Prop) (act : Act σ α) : Prop := ∀ w, R w (act.final w)

section Within

variable {R : World σ → World σ → Prop}

theorem within_get_bind {next : World σ → Act σ β} (hnext : ∀ w, R w ((next w).final w)) :
    (get >>= next).Within R := by
  intro w
  exact hnext w

theorem within_attempt {act : Act σ α} (hact : act.Within R) : (attempt act).Within R := by
  intro w
  rw [final_attempt]
  exact hact w

variable [IsPreorder (World σ) R]

theorem within_of_unchanged {act : Act σ α} (hact : ∀ w, act.final w = w) : act.Within R := by
  intro w
  rw [hact]
  exact refl w

theorem within_pure (value : α) : (pure value : Act σ α).Within R :=
  within_of_unchanged fun _ => rfl

theorem within_throw (fault : Fault) : (throw fault : Act σ α).Within R :=
  within_of_unchanged fun _ => rfl

/-- An action that goes on after a run that stays within `R`. -/
theorem final_bind_within {act : Act σ α} {next : α → Act σ β} {w : World σ}
    (hact : R w (act.final w)) (hnext : ∀ value, (next value).Within R) :
    R w ((act >>= next).final w) := by
  cases hrun : act w with
  | ok value w' =>
      rw [final_of_ok hrun] at hact
      rw [final_bind_of_ok hrun]
      exact IsTrans.trans _ _ _ hact (hnext value w')
  | error fault w' =>
      rw [final_of_error hrun] at hact
      rwa [final_bind_of_error hrun]

theorem within_bind {act : Act σ α} {next : α → Act σ β} (hact : act.Within R)
    (hnext : ∀ value, (next value).Within R) : (act >>= next).Within R :=
  fun w => final_bind_within (hact w) hnext

theorem within_look (question : Disk → Except Fault α) : (look question : Act σ α).Within R := by
  refine within_get_bind fun w => ?_
  cases question w.disk <;> exact refl w

theorem within_lift (value : Except Fault α) : (lift value : Act σ α).Within R := by
  cases value with
  | ok value => exact within_pure value
  | error fault => exact within_throw fault

theorem within_always {body : Act σ α} {cleanUp : Act σ Unit} (hbody : body.Within R)
    (hclean : cleanUp.Within R) : (always body cleanUp).Within R := by
  intro w
  rw [final_always]
  exact IsTrans.trans _ _ _ (hbody w) (hclean _)

theorem within_forM {items : List α} {act : α → Act σ Unit}
    (hact : ∀ item ∈ items, (act item).Within R) : (items.forM act).Within R := by
  induction items with
  | nil => exact within_pure ()
  | cons item rest ih =>
      exact within_bind (hact item List.mem_cons_self) fun _ =>
        ih fun other hother => hact other (List.mem_cons_of_mem _ hother)

theorem within_foldlM {items : List α} {act : β → α → Act σ β}
    (hact : ∀ item ∈ items, ∀ acc, (act acc item).Within R) (acc : β) :
    (items.foldlM act acc).Within R := by
  induction items generalizing acc with
  | nil => exact within_pure acc
  | cons item rest ih =>
      rw [List.foldlM_cons]
      exact within_bind (hact item List.mem_cons_self acc) fun acc =>
        ih (fun other hother => hact other (List.mem_cons_of_mem _ hother)) acc

end Within

end Act

/-! ## Reporting -/

/-- What a console shows of a status line. -/
def Reporter.shown (reporter : Reporter) (now : Moment) (level : Level) (message : String) :
    List String :=
  if level ≠ .debug ∨ reporter.verbose = true then
    match reporter.console.print level.style
        (Console.escape (statusText now message).toList) with
    | .ok text => [text]
    | .error _ => []
  else []

/-- The world after a status line. -/
def World.said (w : World σ) (reporter : Reporter) (level : Level) (message : String) :
    World σ :=
  { w with
    lines := w.lines ++ [(level, message)]
    disk := w.disk.logged (logLine w.now level message)
    screen := w.screen ++ reporter.shown w.now level message }

/-- Reporting always succeeds. -/
theorem Reporter.say_eq (reporter : Reporter) (level : Level) (message : String) (w : World σ) :
    reporter.say level message w = .ok () (w.said reporter level message) := by
  obtain ⟨text, htext⟩ := Console.print_escape reporter.console level.style
    (statusText w.now message).toList
  have hsay : reporter.say level message w =
      (if level ≠ .debug ∨ reporter.verbose = true then
        reporter.console.put level.style (Console.escape (statusText w.now message).toList)
      else pure () : Act σ Unit)
        { w with
          lines := w.lines ++ [(level, message)]
          disk := w.disk.logged (logLine w.now level message) } := rfl
  rw [hsay]
  by_cases hshown : level ≠ .debug ∨ reporter.verbose = true
  · simp only [if_pos hshown, World.said, Reporter.shown, htext, Console.put]
    rfl
  · simp only [if_neg hshown, World.said, Reporter.shown, List.append_nil]
    rfl

theorem Reporter.info_eq (reporter : Reporter) (message : String) (w : World σ) :
    reporter.info message w = .ok () (w.said reporter .info message) :=
  reporter.say_eq .info message w

theorem Reporter.debug_eq (reporter : Reporter) (message : String) (w : World σ) :
    reporter.debug message w = .ok () (w.said reporter .debug message) :=
  reporter.say_eq .debug message w

theorem Reporter.error_eq (reporter : Reporter) (message : String) (w : World σ) :
    reporter.error message w = .ok () (w.said reporter .error message) :=
  reporter.say_eq .error message w

theorem Reporter.success_eq (reporter : Reporter) (message : String) (w : World σ) :
    reporter.success message w = .ok () (w.said reporter .success message) :=
  reporter.say_eq .success message w

end Unscramble
