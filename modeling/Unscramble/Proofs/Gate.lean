import Unscramble.Proofs.Idle
import Unscramble.Proofs.Sample
import Unscramble.Proofs.Tour

/-!
# The detector as a gate

No step is run on a file before the detector has named a kind of obfuscation in the
text that the file held when it was visited.  A visit in which this does not happen runs
no step, and the program itself leaves the disk as it was but for lines in the log.
-/

namespace Unscramble

open Disk

variable {σ : Type}

/-- The file holds a text: its bytes are strict UTF-8, with all line ends read as line feeds. -/
def Disk.Reads (disk : Disk) (file : Path) (text : String) : Prop :=
  ∃ bytes, disk.readBytes file = .ok bytes ∧ Text.read bytes = .ok text

/-- A file is read, or it holds no text; the world stays the same. -/
theorem readFile_cases (file : Path) (w : World σ) :
    (∃ text, w.disk.Reads file text ∧ readFile file w = .ok text w) ∨
      ∃ fault, readFile file w = (.error fault w : EStateM.Result Fault (World σ) String) ∧
        ∀ text, ¬w.disk.Reads file text := by
  cases hbytes : w.disk.readBytes file with
  | error why =>
    refine .inr ⟨_, Act.bind_of_error (Act.ask_of_error hbytes), ?_⟩
    rintro text ⟨bytes, hread, -⟩
    rw [hbytes] at hread
    cases hread
  | ok bytes =>
    have hread : readFile file w = _ := Act.bind_of_ok (Act.ask_of_ok hbytes)
    cases htext : Text.read bytes with
    | ok text =>
      simp only [htext] at hread
      exact .inl ⟨text, ⟨bytes, hbytes, htext⟩, hread⟩
    | error what =>
      simp only [htext] at hread
      refine .inr ⟨_, hread, ?_⟩
      rintro text ⟨bytes', hbytes', htext'⟩
      rw [hbytes] at hbytes'
      cases hbytes'
      rw [htext] at htext'
      cases htext'

/-- The command has succeeded and has printed an object whose member `type` is not null. -/
def Exchange.Accuses (exchange : Exchange) : Prop :=
  ∃ completed members kind, exchange.reply = .ok completed ∧
    Json.read (completed.stdout.getD "") = .ok (.object members) ∧
    (Json.object members).member? "type" = some kind ∧ kind ≠ .null

/-- What the end of the detector's command says of a text. -/
def accusation : Except Fault Completed → Except Fault Bool
  | .error fault => .error (.detection (.failed fault.message))
  | .ok completed => (verdict (completed.stdout.getD "")).map fun
    | .null => false
    | _ => true

/-- A verdict that is not null comes from a member `type` that is not null. -/
theorem verdict_eq_ok_iff {output : String} {kind : Json} (hkind : kind ≠ .null) :
    verdict output = .ok kind ↔ ∃ members, Json.read output = .ok (.object members) ∧
      (Json.object members).member? "type" = some kind := by
  constructor
  · intro hverdict
    unfold verdict at hverdict
    split at hverdict
    case h_4 members hread =>
      cases hmember : (Json.object members).member? "type" with
      | none =>
        rw [hmember] at hverdict
        cases hverdict
        exact absurd rfl hkind
      | some found =>
        rw [hmember] at hverdict
        cases hverdict
        exact ⟨members, hread, hmember⟩
    all_goals cases hverdict
  · rintro ⟨members, hread, hmember⟩
    simp only [verdict, hread, hmember, Option.getD_some]

theorem accusation_eq_ok_true_iff {command : Command} {reply : Except Fault Completed} :
    accusation reply = .ok true ↔ (⟨command, reply⟩ : Exchange).Accuses := by
  cases reply with
  | error fault => simp [accusation, Exchange.Accuses]
  | ok completed =>
    constructor
    · intro haccused
      cases hverdict : verdict (completed.stdout.getD "") with
      | error fault =>
        rw [accusation, hverdict] at haccused
        cases haccused
      | ok kind =>
        have hkind : kind ≠ .null := by
          rintro rfl
          rw [accusation, hverdict] at haccused
          cases haccused
        obtain ⟨members, hread, hmember⟩ := (verdict_eq_ok_iff hkind).mp hverdict
        exact ⟨completed, members, kind, rfl, hread, hmember, hkind⟩
    · rintro ⟨_, members, kind, ⟨⟩, hread, hmember, hkind⟩
      rw [accusation, (verdict_eq_ok_iff hkind).mpr ⟨members, hread, hmember⟩]
      cases kind with
      | null => exact absurd rfl hkind
      | _ => rfl

namespace Engine

variable {engine : Engine σ}

/-! ## Asking the detector -/

/-- Between two worlds the detector is made sure of and is then asked about a text, unless
it cannot be had.  Something is true just if it has been asked and accuses the text. -/
inductive Asked (engine : Engine σ) (text : String) (w : World σ) (accused : Prop)
    (w' : World σ) : Prop
  | missing {es : List Exchange}
      (hready : engine.Readies .project engine.settings.detectorPackage w es)
      (hran : engine.runner.Ran OnlyLogs w es w') (hspared : ¬accused)
  | answered {es : List Exchange} {asked : Exchange}
      (hready : engine.Readies .project engine.settings.detectorPackage w es)
      (hasked : asked.command = engine.detectCommand text)
      (hran : engine.runner.Ran OnlyLogs w (es ++ [asked]) w') (hiff : accused ↔ asked.Accuses)

section Asked

variable {text : String} {w w₁ w' : World σ} {accused : Prop}

theorem Readies.after_idle {scope : Scope} {package : String} {es : List Exchange}
    (hidle : w.Idle OnlyLogs w₁) (hready : engine.Readies scope package w₁ es) :
    engine.Readies scope package w es :=
  ⟨hready.installer, fun hknown => hready.known (hidle.known hknown)⟩

theorem Asked.after_idle (hidle : w.Idle OnlyLogs w₁) (hasked : engine.Asked text w₁ accused w') :
    engine.Asked text w accused w' := by
  cases hasked with
  | missing hready hran hspared =>
    exact .missing (hready.after_idle hidle) (hran.after_idle hidle) hspared
  | answered hready hcommand hran hiff =>
    exact .answered (hready.after_idle hidle) hcommand (hran.after_idle hidle) hiff

theorem Asked.before_idle (hasked : engine.Asked text w accused w₁) (hidle : w₁.Idle OnlyLogs w') :
    engine.Asked text w accused w' := by
  cases hasked with
  | missing hready hran hspared =>
    exact .missing hready (by simpa using hran.append (.idle hidle)) hspared
  | answered hready hcommand hran hiff =>
    exact .answered hready hcommand (by simpa using hran.append (.idle hidle)) hiff

theorem isObfuscated_eq (engine : Engine σ) (text : String) : engine.isObfuscated text =
    discard (engine.ensure .project engine.settings.detectorPackage) >>= fun _ =>
      engine.tryRun (engine.detectCommand text) >>= fun ran => Act.lift (accusation ran) := by
  unfold isObfuscated classify
  simp only [bind_assoc]
  refine congrArg _ (funext fun _ => congrArg _ (funext fun ran => funext fun w => ?_))
  cases ran with
  | error fault => rfl
  | ok completed =>
    dsimp only [accusation]
    rcases verdict (completed.stdout.getD "") with fault | kind
    · rfl
    · cases kind <;> rfl

/-- The detector is asked about the text it is given, and its answer is what it says. -/
theorem isObfuscated_asked (engine : Engine σ) (text : String) (w : World σ) :
    engine.Asked text w ((engine.isObfuscated text).result w = .ok true)
      ((engine.isObfuscated text).final w) := by
  obtain ⟨es, hran, hready⟩ := engine.ensure_readies .project engine.settings.detectorPackage w
  rw [isObfuscated_eq]
  cases hensure : engine.ensure .project engine.settings.detectorPackage w with
  | error fault w₁ =>
    have hdiscard : (discard (engine.ensure .project engine.settings.detectorPackage) :
      Act σ Unit) w = .error fault w₁ := Act.bind_of_error hensure
    rw [Act.final_of_error hensure] at hran
    refine .missing hready ?_ ?_
    · rwa [Act.final_bind_of_error hdiscard]
    · simp [Act.result_of_error (Act.bind_of_error hdiscard)]
  | ok installed w₁ =>
    have hdiscard : (discard (engine.ensure .project engine.settings.detectorPackage) :
      Act σ Unit) w = .ok () w₁ := Act.bind_of_ok hensure
    rw [Act.final_of_ok hensure] at hran
    rw [Act.final_bind_of_ok hdiscard, Act.result_bind_of_ok hdiscard]
    have hasked {reply : Except Fault Completed} {accused : Prop}
        (hreply : (engine.runner (engine.detectCommand text) w₁.disk w₁.tools).1 = reply)
        (hiff : accused ↔ (⟨engine.detectCommand text, reply⟩ : Exchange).Accuses) :
        engine.Asked text w accused ((engine.run (engine.detectCommand text)).final w₁) :=
      .answered hready rfl (hran.append (ran_run hreply)) hiff
    rcases engine.tryRun_cases (engine.detectCommand text) w₁ with
      ⟨completed, hreply, htry⟩ | ⟨fault, -, hreply, htry⟩ | ⟨fault, -, hreply, htry⟩
    · rw [Act.final_bind_of_ok htry, Act.result_bind_of_ok htry, Act.final_lift, Act.result_lift]
      exact hasked hreply accusation_eq_ok_true_iff
    · rw [Act.final_bind_of_ok htry, Act.result_bind_of_ok htry, Act.final_lift, Act.result_lift]
      exact hasked hreply accusation_eq_ok_true_iff
    · rw [Act.final_bind_of_error htry, Act.result_of_error (Act.bind_of_error htry)]
      apply hasked hreply
      rw [← accusation_eq_ok_true_iff]
      simp [accusation]

/-- A file is sent on only if the detector has been asked about the text it holds and
accuses it. -/
theorem judge_cases (engine : Engine σ) (file : Path) (w : World σ) :
    (engine.judge file).final w = w ∧ (engine.judge file).result w ≠ .ok true ∧
        (∀ text, ¬w.disk.Reads file text) ∨
      ∃ text, w.disk.Reads file text ∧
        engine.Asked text w ((engine.judge file).result w = .ok true)
          ((engine.judge file).final w) := by
  rcases readFile_cases file w with ⟨text, hreads, hread⟩ | ⟨fault, hread, hnone⟩
  · refine .inr ⟨text, hreads, ?_⟩
    have hstart := engine.reporter.info_eq ("Processing " ++ file.toString ++ "...") w
    have hasked := engine.isObfuscated_asked text
      (w.said engine.reporter .info ("Processing " ++ file.toString ++ "..."))
    replace hasked := hasked.after_idle (said_idle _ _ _ _)
    cases hrun : engine.isObfuscated text
        (w.said engine.reporter .info ("Processing " ++ file.toString ++ "...")) with
    | error fault w' =>
      have hjudge : engine.judge file w = .error fault w' :=
        (Act.bind_of_ok hread).trans ((Act.bind_of_ok hstart).trans (Act.bind_of_error hrun))
      rw [Act.final_of_error hrun, Act.result_of_error hrun] at hasked
      rwa [Act.final_of_error hjudge, Act.result_of_error hjudge]
    | ok obfuscated w' =>
      have hjudge : engine.judge file w = .ok obfuscated _ :=
        (Act.bind_of_ok hread).trans ((Act.bind_of_ok hstart).trans ((Act.bind_of_ok hrun).trans
          (Act.bind_of_ok (engine.reporter.info_eq _ w'))))
      rw [Act.final_of_ok hrun, Act.result_of_ok hrun] at hasked
      rw [Act.final_of_ok hjudge, Act.result_of_ok hjudge]
      exact hasked.before_idle (said_idle _ _ _ _)
  · have hjudge : engine.judge file w = .error fault w := Act.bind_of_error hread
    rw [Act.final_of_error hjudge, Act.result_of_error hjudge]
    exact .inl ⟨rfl, nofun, hnone⟩

end Asked

/-! ## Visits -/

/-- What may happen in a visit to a file. -/
inductive Gated (engine : Engine σ) (visit : Visit σ) : Prop
  /-- The file is gone or holds no text, and nothing is run. -/
  | unread (hidle : visit.before.Idle OnlyLogs visit.after)
      (hunread : visit.before.disk.present visit.file ≠ .ok true ∨
        ∀ text, ¬visit.before.disk.Reads visit.file text)
  /-- The detector does not accuse the text, and nothing else is run. -/
  | spared {text : String} (hreads : visit.before.disk.Reads visit.file text)
      (hasked : engine.Asked text visit.before False visit.after)
  /-- The detector accuses the text, and steps are run on the file. -/
  | sent {text : String} {judged : World σ} {tools : List Exchange}
      (hreads : visit.before.disk.Reads visit.file text)
      (hasked : engine.Asked text visit.before True judged)
      (hran : engine.runner.Ran Anyhow judged tools visit.after)
      (htools : ∀ exchange ∈ tools, engine.IsFor visit.file exchange.command)

/-- Once a file has been processed, or if it is not there, a visit only reports. -/
theorem visit_idle (engine : Engine σ) (outcomes : List Outcome) (file : Path) (w : World σ) :
    (if w.disk.present file = .ok true then (engine.processFile file).final w else w).Idle OnlyLogs
      ((engine.visit outcomes file).final w) := by
  have hsay (level : Level) (message : String) (outcomes : List Outcome) :
      (engine.reporter.say level message >>= fun _ => pure outcomes :
        Act σ (List Outcome)).Within (World.Idle OnlyLogs) :=
    Act.within_bind (say_idle _ _ _) fun _ => Act.within_pure _
  cases hpresent : w.disk.present file with
  | error why =>
    have hask : (Act.ask Disk.present file : Act σ Bool) w = _ := Act.ask_of_error hpresent
    rw [if_neg nofun, visit, Act.final_bind_of_error hask]
    exact refl w
  | ok present =>
    have hask : (Act.ask Disk.present file : Act σ Bool) w = .ok present w :=
      Act.ask_of_ok hpresent
    rw [visit, Act.final_bind_of_ok hask]
    cases present with
    | false =>
      rw [if_neg (by simp)]
      exact hsay _ _ _ w
    | true =>
      rw [if_pos rfl]
      cases hrun : engine.processFile file w with
      | ok outcome w' =>
        rw [Act.final_of_ok hrun]
        refine (congrArg (World.Idle OnlyLogs w')
          (Act.final_bind_of_ok (Act.attempt_of_ok hrun))).mpr ?_
        exact refl w'
      | error fault w' =>
        rw [Act.final_of_error hrun]
        refine (congrArg (World.Idle OnlyLogs w')
          (Act.final_bind_of_ok (Act.attempt_of_error hrun))).mpr ?_
        split
        · exact refl w'
        · exact refl w'
        · split
          · exact refl w'
          · exact hsay _ _ _ w'

/-- No step is run on a file that the detector has not accused in the same visit. -/
theorem visit_gated (engine : Engine σ) (outcomes : List Outcome) (file : Path) (w : World σ) :
    engine.Gated ⟨file, w, (engine.visit outcomes file).final w⟩ := by
  have hidle := engine.visit_idle outcomes file w
  by_cases hpresent : w.disk.present file = .ok true
  case neg =>
    rw [if_neg hpresent] at hidle
    exact .unread hidle (.inl hpresent)
  rw [if_pos hpresent, processFile_eq] at hidle
  have hspared (hresult : (engine.judge file).result w ≠ .ok true) :
      (engine.judge file >>= engine.handle file).final w = (engine.judge file).final w := by
    cases hjudge : engine.judge file w with
    | error fault w' => rw [Act.final_bind_of_error hjudge, Act.final_of_error hjudge]
    | ok obfuscated w' =>
      rw [Act.final_bind_of_ok hjudge, Act.final_of_ok hjudge]
      cases obfuscated with
      | false => rfl
      | true => exact absurd (Act.result_of_ok hjudge) hresult
  rcases engine.judge_cases file w with ⟨hfinal, hresult, hnone⟩ | ⟨text, hreads, hasked⟩
  · rw [hspared hresult, hfinal] at hidle
    exact .unread hidle (.inr hnone)
  by_cases hresult : (engine.judge file).result w = .ok true
  case neg =>
    rw [hspared hresult] at hidle
    exact .spared hreads (by simpa [hresult] using hasked.before_idle hidle)
  cases hjudge : engine.judge file w with
  | error fault w' =>
    rw [Act.result_of_error hjudge] at hresult
    cases hresult
  | ok obfuscated w' =>
    rw [Act.result_of_ok hjudge] at hresult
    cases hresult
    rw [Act.final_bind_of_ok hjudge] at hidle
    rw [Act.result_of_ok hjudge, Act.final_of_ok hjudge] at hasked
    have hhandle : (engine.handle file true).Within
        (engine.runner.Only Anyhow (engine.IsFor file)) :=
      Act.within_bind (engine.deobfuscate_only file) fun _ => Act.within_bind
        (engine.only_of_runsNothing (say_runsNothing _ _ _) _) fun _ => Act.within_pure _
    obtain ⟨tools, hran, htools⟩ := hhandle w'
    have hend := hran.append (.idle { hidle with disk := trivial })
    exact .sent hreads (by simpa using hasked) (by simpa using hend) htools

end Engine

/-- In every run over targets, whatever the tools do, steps are run on a file only in a
visit to it, after the detector has been asked in this visit about the text that the file
held when the visit began, and has accused it.  A visit in which that does not happen runs
no step, and what the program itself does to the disk in it is to add lines to the log. -/
theorem visits_gated_of_processTargets (engine : Engine σ) (targets : List Path) (w : World σ) :
    ∃ visits, engine.Visits w visits ((engine.processTargets targets).final w) ∧
      ∀ visit ∈ visits, engine.Gated visit :=
  engine.processTargets_visitsWith engine.visit_gated targets w

/-- A script that is not UTF-8, and a debug log next to its directory. -/
def Sample.unreadable : Disk :=
  { Sample.disk [(["d"], .directory), (["d", "a.js"], .file [255] {}), (["notes"], .file [] {})]
    with log := some ["notes"] }

/-- A visit to a file that holds no text runs nothing, and yet adds to the log. -/
theorem log_grows_in_unread_visit :
    let file : Path := ⟨.here, ["d", "a.js"]⟩
    let before := Sample.world Sample.unreadable
    let after := (Sample.tidying.visit [] file).final before
    (∀ text, ¬before.disk.Reads file text) ∧ after.commands = before.commands ∧
      before.disk.tree.get? ["notes"] = some (.file [] {}) ∧
        after.disk.tree.get? ["notes"] ≠ some (.file [] {}) := by
  have hrun : (Sample.world Sample.unreadable).disk.readBytes ⟨.here, ["d", "a.js"]⟩ = .ok [255] ∧
      (Text.read [255]).isOk = false := by
    decide +kernel
  refine ⟨?_, by decide +kernel, by decide, by decide +kernel⟩
  rintro text ⟨bytes, hbytes, htext⟩
  rw [hrun.1] at hbytes
  cases hbytes
  have hok := hrun.2
  rw [htext] at hok
  cases hok

end Unscramble
