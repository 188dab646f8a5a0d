import Unscramble.Proofs.Attempt
import Unscramble.Proofs.Json.Reading
import Unscramble.Proofs.Sample

/-!
# How a text is classified

The detector is made sure of, runs, and prints its verdict.  Each of these can fail, and each
failure has a fault of its own.  Output that is no object is a failure of the detector like any
other, but output beyond the limits of the reader is reported as such a limit.
-/

namespace Unscramble

variable {σ : Type}

namespace Engine

variable {engine : Engine σ} {content : String} {w : World σ}

/-- The detector has been made sure of and has been run on a text, with this result. -/
def Answers (engine : Engine σ) (content : String) (w : World σ)
    (reply : Except Fault Completed) : Prop :=
  ∃ installed w₁, engine.ensure .project engine.settings.detectorPackage w = .ok installed w₁ ∧
    (engine.runner (engine.detectCommand content) w₁.disk w₁.tools).1 = reply

def Prints (engine : Engine σ) (content : String) (w : World σ) (output : String) : Prop :=
  ∃ completed, engine.Answers content w (.ok completed) ∧ completed.stdout.getD "" = output

/-- How classifying a text may end. -/
inductive Classified (engine : Engine σ) (content : String) (w : World σ) :
    Except Fault Json → Prop
  | uninstalled {why : InstallFault}
      (hensure : (engine.ensure .project engine.settings.detectorPackage).result w =
        .error (.install why)) : Classified engine content w (.error (.install why))
  | crashed {fault : Fault} (hanswer : engine.Answers content w (.error fault))
      (hcommand : fault.IsCommand) :
      Classified engine content w (.error (.detection (.failed fault.message)))
  | judged {output : String} {members : List (CodePoints × Json)}
      (hprinted : engine.Prints content w output) (hdenotes : Json.Denotes output members) :
      Classified engine content w
        (.ok ((members.reverse.lookup (CodePoints.ofString "type")).getD .null))
  | unreadable {output : String} (hprinted : engine.Prints content w output)
      (hread : Json.read output = .error .malformed ∨ ∃ value, Json.read output = .ok value)
      (hother : ∀ members, ¬Json.Denotes output members) :
      Classified engine content w (.error (.detection (.unexpected output)))
  | tooDeep {output container : String} (hprinted : engine.Prints content w output)
      (hread : Json.read output = .error (.deepNesting container))
      (hlong : Json.nestingMax < output.length) :
      Classified engine content w (.error (.deepNesting container))
  | tooLong {output : String} {digits : Nat} (hprinted : engine.Prints content w output)
      (hread : Json.read output = .error (.longInteger digits))
      (hlong : digitMax < digits ∧ digits ≤ output.length) :
      Classified engine content w (.error (.longInteger digits))

theorem classified_of_prints {output : String} (hprinted : engine.Prints content w output) :
    engine.Classified content w (verdict output) := by
  have hdenotes {members : List (CodePoints × Json)} (hmembers : Json.Denotes output members) :
      Json.read output = .ok (.object (Json.collect [] members)) :=
    Json.read_eq_object_iff.mpr ⟨members, hmembers, rfl⟩
  unfold verdict
  split
  · next hread =>
    exact .unreadable hprinted (.inl hread) fun _ hmembers =>
      nomatch hread.symm.trans (hdenotes hmembers)
  · next container hread =>
    rcases Json.exceeds_of_read hread nofun with ⟨-, hlong⟩ | ⟨digits, hdigits, -⟩
    · exact .tooDeep hprinted hread hlong
    · cases hdigits
  · next digits hread =>
    rcases Json.exceeds_of_read hread nofun with ⟨⟨container, hdeep⟩, -⟩ | ⟨_, hdigits, hlong⟩
    · cases hdeep
    · cases hdigits
      exact .tooLong hprinted hread hlong
  · next found hread =>
    obtain ⟨members, hmembers, rfl⟩ := Json.read_eq_object_iff.mp hread
    rw [Json.member?, Json.lookup_collect, List.lookup_nil, Option.or_none]
    exact .judged hprinted hmembers
  · next value hother hread =>
    exact .unreadable hprinted (.inr ⟨value, hread⟩) fun _ hmembers =>
      hother _ (Except.ok.inj (hread.symm.trans (hdenotes hmembers)))

theorem classify_of_unavailable {fault : Fault} {w₁ : World σ}
    (hensure : engine.ensure .project engine.settings.detectorPackage w = .error fault w₁) :
    (engine.classify content).result w = .error fault := by
  have hdiscard : (discard (engine.ensure .project engine.settings.detectorPackage) :
    Act σ Unit) w = .error fault w₁ := Act.bind_of_error hensure
  exact Act.result_of_error (Act.bind_of_error hdiscard)

/-- What the detector is asked once it has been made sure of. -/
theorem classify_of_available {installed : Bool} {w₁ : World σ}
    (hensure : engine.ensure .project engine.settings.detectorPackage w = .ok installed w₁) :
    (engine.classify content).result w =
      (engine.tryRun (engine.detectCommand content) >>= fun
        | .error fault => throw (.detection (.failed fault.message))
        | .ok completed => Act.lift (verdict (completed.stdout.getD ""))).result w₁ := by
  have hdiscard : (discard (engine.ensure .project engine.settings.detectorPackage) :
    Act σ Unit) w = .ok () w₁ := Act.bind_of_ok hensure
  exact Act.result_bind_of_ok hdiscard

theorem classify_of_prints {output : String} (hprinted : engine.Prints content w output) :
    (engine.classify content).result w = verdict output := by
  obtain ⟨completed, ⟨installed, w₁, hensure, hreply⟩, rfl⟩ := hprinted
  rw [classify_of_available hensure]
  rcases engine.tryRun_cases (engine.detectCommand content) w₁ with
    ⟨other, hother, htry⟩ | ⟨fault, -, hother, -⟩ | ⟨fault, -, hother, -⟩ <;>
    cases hreply.symm.trans hother
  rw [Act.result_bind_of_ok htry, Act.result_lift]

end Engine

/-- Where commands fail only as commands, classifying a text gives the last `type` that the
detector has printed, or it fails as an installation, as a detection, or by a limit that the
output exceeds. -/
theorem classify_ends (engine : Engine σ) (hrunner : engine.runner.FailsAsCommand)
    (content : String) (w : World σ) :
    engine.Classified content w ((engine.classify content).result w) := by
  cases hensure : engine.ensure .project engine.settings.detectorPackage w with
  | error fault w₁ =>
    obtain ⟨why, rfl⟩ := Engine.ensure_fails hrunner _ _ w fault w₁ hensure
    rw [Engine.classify_of_unavailable hensure]
    exact .uninstalled (Act.result_of_error hensure)
  | ok installed w₁ =>
    rcases engine.tryRun_cases (engine.detectCommand content) w₁ with
      ⟨completed, hreply, -⟩ | ⟨fault, hcommand, hreply, htry⟩ | ⟨fault, hforeign, hreply, -⟩
    · have hprinted : engine.Prints content w (completed.stdout.getD "") :=
        ⟨completed, ⟨installed, w₁, hensure, hreply⟩, rfl⟩
      rw [Engine.classify_of_prints hprinted]
      exact Engine.classified_of_prints hprinted
    · rw [Engine.classify_of_available hensure, Act.result_bind_of_ok htry]
      exact .crashed ⟨installed, w₁, hensure, hreply⟩ hcommand
    · exact absurd (hrunner _ _ _ _ hreply) hforeign

section Samples

/-- Every command succeeds and prints the same. -/
def Sample.printing (output : String) : Engine Unit := engine
  (fun command disk tools => (.ok { args := command.argv, stdout := some output }, disk, tools)) []

theorem Sample.printing_failsAsCommand (output : String) :
    (printing output).runner.FailsAsCommand := by
  intro command disk tools fault hfault
  cases hfault

theorem Sample.printing_prints (output content : String) (w : World Unit) :
    (printing output).Prints content w output := by
  suffices hensure : ∃ installed w₁, (printing output).ensure .project _ w = .ok installed w₁ by
    obtain ⟨installed, w₁, hensure⟩ := hensure
    exact ⟨_, ⟨installed, w₁, hensure, rfl⟩, rfl⟩
  by_cases hknown : (.project, (printing output).settings.detectorPackage) ∈ w.ensured
  · exact ⟨_, _, Engine.ensure_of_known _ hknown⟩
  · rcases (printing output).tryRun_cases ((printing output).checkCommand .project
      (printing output).settings.detectorPackage) w with
      ⟨completed, -, htry⟩ | ⟨fault, -, hfault, -⟩ | ⟨fault, -, hfault, -⟩
    · exact ⟨_, _, (Engine.ensure_of_unknown _ hknown).trans ((Act.bind_of_ok htry).trans
        (Act.bind_of_ok (Reporter.debug_eq _ _ _)))⟩
    · cases hfault
    · cases hfault

theorem Sample.printing_ones {digits : Nat} (hlong : digitMax < digits) (content : String)
    (w : World Unit) :
    ((printing (String.ofList (List.replicate digits '1'))).classify content).result w =
      .error (.longInteger digits) := by
  rw [Engine.classify_of_prints (printing_prints _ content w), Unscramble.verdict,
    Json.read_ones hlong]

/-- A text of one integer that is longer than the reader takes. -/
def Sample.overlong : String := String.ofList (List.replicate (digitMax + 1) '1')

/-- An integer beyond the limit of the reader is no object, but it is no failed detection either. -/
theorem integer_beyond_limit_escapes :
    (Sample.printing Sample.overlong).runner.FailsAsCommand ∧
      (Sample.printing Sample.overlong).Prints "x" (Sample.world (Sample.disk [])) Sample.overlong ∧
      ((Sample.printing Sample.overlong).classify "x").result (Sample.world (Sample.disk [])) =
        .error (.longInteger (digitMax + 1)) :=
  ⟨Sample.printing_failsAsCommand _, Sample.printing_prints _ _ _,
    Sample.printing_ones (Nat.lt_succ_self digitMax) _ _⟩

/-- An object that has two members of one name. -/
def Sample.undecided : String := "\x7b\"type\": 1, \"type\": null\x7d"

theorem Sample.verdict_undecided : Unscramble.verdict undecided = .ok .null := by
  cbv

theorem last_verdict_counts :
    (Sample.printing Sample.undecided).runner.FailsAsCommand ∧
      (Sample.printing Sample.undecided).Classified "x" (Sample.world (Sample.disk []))
        (.ok .null) := by
  have hclassified := classify_ends _ (Sample.printing_failsAsCommand Sample.undecided) "x"
    (Sample.world (Sample.disk []))
  rw [Engine.classify_of_prints (Sample.printing_prints _ _ _), Sample.verdict_undecided]
    at hclassified
  exact ⟨Sample.printing_failsAsCommand _, hclassified⟩

end Samples

end Unscramble
