import Unscramble.Proofs.Disk.Check
import Unscramble.Proofs.Gate

/-!
# What a whole run leaves alone

A run goes through its targets and sends some of the files on the way to the steps.  It is
noted which files these are and in which world each of them is sent.  An entry that no such
file touches, neither by itself, nor by its artifacts, nor by what is swept after it, is
the same in the end.
-/

namespace Unscramble

open Disk Workspace

variable {σ : Type}

/-- A file that is sent to the steps, and the world in which it is. -/
structure Sent (σ : Type) where
  file : Path
  world : World σ

namespace Sent

variable (sent : Sent σ)

/-- The directory of the file lies here. -/
def LiesIn (dir : Loc) : Prop :=
  sent.world.disk.find .followed sent.file.parent = .ok (.present dir .directory)

/-- The directory of the file is reached without passing through the file or an artifact. -/
def Direct (outputName : String) : Prop :=
  ∃ dir, (sent.world.disk.without (fileLocs sent.file outputName dir)).find .followed
    sent.file.parent = .ok (.present dir .directory)

end Sent

/-- The entry is there, on a sound disk, and it is not the debug log. -/
structure Disk.Holds (loc : Loc) (entry : Entry) (disk : Disk) : Prop where
  sound : disk.Sound
  unlogged : disk.log ≠ some loc
  held : disk.tree.get? loc = some entry

/-- An entry that is there stays there. -/
def World.KeepsEntry (loc : Loc) (entry : Entry) (w w' : World σ) : Prop :=
  w.disk.Holds loc entry → w'.disk.Holds loc entry

instance (loc : Loc) (entry : Entry) : IsPreorder (World σ) (World.KeepsEntry loc entry) where
  refl _ := id
  trans _ _ _ hab hbc := hbc ∘ hab

section

variable {loc : Loc} {entry : Entry} {w w' : World σ}

theorem keepsEntry_of_onlyLogs (honly : World.OnlyLogs w w') : World.KeepsEntry loc entry w w' := by
  obtain ⟨lines, hlines⟩ := honly
  rintro ⟨hsound, hunlogged, hheld⟩
  rw [hlines]
  exact ⟨hsound.noted lines, by rwa [(w.disk.noted_places lines).2.2],
    (get?_noted lines hunlogged).trans hheld⟩

theorem say_keepsEntry (reporter : Reporter) (level : Level) (message : String) :
    (reporter.say level message : Act σ Unit).Within (World.KeepsEntry loc entry) :=
  fun w => keepsEntry_of_onlyLogs (say_onlyLogs reporter level message w)

end

namespace Engine

variable {engine : Engine σ} {file : Path} {w w' : World σ} {loc : Loc} {entry : Entry}

/-- The locations at which a run over a file may leave anything changed. -/
inductive Touches (engine : Engine σ) (sent : Sent σ) : Loc → Prop
  | file {dir : Loc} (hdir : sent.LiesIn dir) : Touches engine sent (dir ++ [sent.file.name])
  | artifact {dir loc : Loc} (hdir : sent.LiesIn dir)
      (hloc : Inside (artifactLocs sent.file engine.settings.outputDirName dir) loc) :
      Touches engine sent loc
  | swept {dir loc : Loc} (hdir : sent.LiesIn dir)
      (hloc : engine.Sweeps sent.file dir sent.world loc) : Touches engine sent loc

theorem touches_iff {sent : Sent σ} {dir : Loc} (hlies : sent.LiesIn dir) :
    engine.Touches sent loc ↔ loc = dir ++ [sent.file.name] ∨
      Inside (artifactLocs sent.file engine.settings.outputDirName dir) loc ∨
      engine.Sweeps sent.file dir sent.world loc := by
  have hsame {other : Loc} (hother : sent.LiesIn other) : other = dir := by
    unfold Sent.LiesIn at hlies hother
    rw [hlies] at hother
    cases hother
    rfl
  constructor
  · rintro (⟨hdir⟩ | ⟨hdir, hloc⟩ | ⟨hdir, hloc⟩) <;> cases hsame hdir
    · exact .inl rfl
    · exact .inr (.inl hloc)
    · exact .inr (.inr hloc)
  · rintro (rfl | hloc | hloc)
    · exact .file hlies
    · exact .artifact hlies hloc
    · exact .swept hlies hloc

/-! ## One visit -/

/-- What a visit sends to the steps: the file, if it is there and judged obfuscated. -/
def sent (engine : Engine σ) (file : Path) (w : World σ) : List (Sent σ) :=
  match w.disk.present file, engine.judge file w with
  | .ok true, .ok true w' => [⟨file, w'⟩]
  | _, _ => []

/-- A run over a file keeps the entries that the file does not touch. -/
theorem deobfuscate_keepsEntry (hcontained : engine.Contained)
    (hout : Path.Component engine.settings.outputDirName) (hname : Path.Ordinary file.name)
    (hfile : w.disk.isFile file = .ok true)
    (hdirect : (⟨file, w⟩ : Sent σ).Direct engine.settings.outputDirName)
    (huntouched : ¬engine.Touches ⟨file, w⟩ loc) :
    World.KeepsEntry loc entry w ((engine.deobfuscate file).final w) := by
  rintro ⟨hsound, hunlogged, hheld⟩
  obtain ⟨dir, hdir⟩ := hdirect
  have hlies : (⟨file, w⟩ : Sent σ).LiesIn dir :=
    (w.disk.thinner_without fun loc => ne_nil_of_mem_fileLocs).directory hsound hdir
  have hoff : ¬Inside (fileLocs file engine.settings.outputDirName dir) loc := by
    rintro ⟨place, hplace, hpre⟩
    rcases List.mem_cons.mp hplace with rfl | hartifact
    · by_cases heq : dir ++ [file.name] = loc
      · exact huntouched (heq ▸ .file hlies)
      · exact ne_directory_of_isFile_child hname hfile hlies
          (hsound.directory_of_prefix hpre heq hheld)
    · exact huntouched (.artifact hlies ⟨place, hartifact, hpre⟩)
  obtain ⟨hsound', hunlogged', hkept⟩ := deobfuscate_keeps hcontained hout hname
    (nameable_of_isFile hfile).1 hsound hdir hoff (fun hloc => huntouched (.swept hlies hloc))
    hunlogged
  exact ⟨hsound', hunlogged', hkept.trans hheld⟩

/-- What is kept by lines in the log and by a run over the file is kept when the file is
processed. -/
theorem processFile_invariant {inv : World σ → Prop} (honly : engine.OnlyStepsChange)
    (hsound : w.disk.Sound) (hlogs : ∀ {w w'}, World.OnlyLogs w w' → inv w → inv w')
    (hrun : ∀ w', engine.judge file w = .ok true w' → w'.disk.isFile file = .ok true → inv w' →
      inv ((engine.deobfuscate file).final w'))
    (hinv : inv w) : inv ((engine.processFile file).final w) := by
  have hjudged := judge_onlyLogs honly file w
  rw [processFile_eq]
  cases hjudge : engine.judge file w with
  | error fault w' =>
    rw [Act.final_of_error hjudge] at hjudged
    rw [Act.final_bind_of_error hjudge]
    exact hlogs hjudged hinv
  | ok obfuscated w' =>
    rw [Act.final_of_ok hjudge] at hjudged
    rw [Act.final_bind_of_ok hjudge]
    have hinv' := hlogs hjudged hinv
    cases obfuscated with
    | false => exact hinv'
    | true =>
      obtain ⟨lines, hlines⟩ := hjudged
      have hfile : w'.disk.isFile file = .ok true :=
        hlines ▸ isFile_noted hsound (isFile_of_judge hjudge) lines
      have hdone := hrun w' hjudge hfile hinv'
      have hsay (report : Report) : World.OnlyLogs ((engine.deobfuscate file).final w')
          ((engine.reporter.success (file.name ++ " has been deobfuscated and beautified.") >>=
              fun _ => pure { file, status := .deobfuscated, report } : Act σ Outcome).final
            ((engine.deobfuscate file).final w')) :=
        Act.within_bind (say_onlyLogs _ _ _) (fun _ => Act.within_pure _) _
      cases hreport : engine.deobfuscate file w' with
      | error fault w₁ =>
        rw [Act.final_of_error hreport] at hdone
        rwa [handle, Act.final_bind_of_error hreport]
      | ok report w₁ =>
        rw [Act.final_of_ok hreport] at hdone hsay
        rw [handle, Act.final_bind_of_ok hreport]
        exact hlogs (hsay report) hdone

/-- And when the file is visited. -/
theorem visit_invariant {inv : World σ → Prop} (honly : engine.OnlyStepsChange)
    (hsound : w.disk.Sound) (hlogs : ∀ {w w'}, World.OnlyLogs w w' → inv w → inv w')
    (hrun : ∀ w', engine.judge file w = .ok true w' → w'.disk.isFile file = .ok true → inv w' →
      inv ((engine.deobfuscate file).final w'))
    (outcomes : List Outcome) (hinv : inv w) : inv ((engine.visit outcomes file).final w) := by
  have hidle := (engine.visit_idle outcomes file w).disk
  split at hidle
  · exact hlogs hidle (processFile_invariant honly hsound hlogs hrun hinv)
  · exact hlogs hidle hinv

theorem visit_keepsEntry (hcontained : engine.Contained)
    (hout : Path.Component engine.settings.outputDirName)
    (hsent : ∀ sent ∈ engine.sent file w,
      sent.Direct engine.settings.outputDirName ∧ ¬engine.Touches sent loc)
    (outcomes : List Outcome) :
    World.KeepsEntry loc entry w ((engine.visit outcomes file).final w) := by
  intro hholds
  refine visit_invariant hcontained.others hholds.sound keepsEntry_of_onlyLogs
    (fun w' hjudge hfile hholds' => ?_) outcomes hholds
  obtain ⟨hdirect, huntouched⟩ := hsent ⟨file, w'⟩
    (by simp [sent, present_of_isFile (isFile_of_judge hjudge), hjudge])
  exact deobfuscate_keepsEntry hcontained hout (hholds'.sound.ordinary_name hfile) hfile hdirect
    huntouched hholds'

end Engine

/-! ## Taking notes -/

/-- The same world for tools with another state. -/
def World.withTools {τ : Type} (w : World σ) (tools : τ) : World τ where
  disk := w.disk
  tools := tools
  now := w.now
  commands := w.commands
  lines := w.lines
  screen := w.screen
  ensured := w.ensured

/-- A world with notes on what has been sent to the steps. -/
def World.withNotes (w : World σ) (notes : List (Sent σ)) : World (σ × List (Sent σ)) :=
  w.withTools (w.tools, notes)

@[simp]
theorem World.withNotes_disk (w : World σ) (notes : List (Sent σ)) :
    (w.withNotes notes).disk = w.disk := rfl

@[simp]
theorem World.withNotes_notes (w : World σ) (notes : List (Sent σ)) :
    (w.withNotes notes).tools.2 = notes := rfl

namespace Act

variable {α β : Type}

/-- Do the same and add to the notes. -/
def noting (act : Act σ α) (more : World σ → List (Sent σ)) : Act (σ × List (Sent σ)) α := fun w =>
  match act (w.withTools w.tools.1) with
  | .ok value w' => .ok value (w'.withNotes (w.tools.2 ++ more (w.withTools w.tools.1)))
  | .error fault w' => .error fault (w'.withNotes (w.tools.2 ++ more (w.withTools w.tools.1)))

variable {P : Sent σ → Prop} {R : World σ → World σ → Prop}

theorem noting_of_ok {act : Act σ α} {more : World σ → List (Sent σ)} {w w' : World σ} {value : α}
    (hact : act w = .ok value w') (notes : List (Sent σ)) :
    act.noting more (w.withNotes notes) = .ok value (w'.withNotes (notes ++ more w)) := by
  change (match act w with | .ok _ _ => _ | .error _ _ => _) = _
  rw [hact]
  rfl

theorem noting_of_error {act : Act σ α} {more : World σ → List (Sent σ)} {w w' : World σ}
    {fault : Fault} (hact : act w = .error fault w') (notes : List (Sent σ)) :
    act.noting more (w.withNotes notes) = .error fault (w'.withNotes (notes ++ more w)) := by
  change (match act w with | .ok _ _ => _ | .error _ _ => _) = _
  rw [hact]
  rfl

/-- One action does what another does and adds to the notes.  If all that it adds satisfies
`P`, the run stays within `R`. -/
def Notes (P : Sent σ → Prop) (R : World σ → World σ → Prop) (act : Act σ α)
    (noted : Act (σ × List (Sent σ)) α) : Prop :=
  ∀ w notes, ∃ new, noted (w.withNotes notes) = act.noting (fun _ => new) (w.withNotes notes) ∧
    ((∀ sent ∈ new, P sent) → R w (act.final w))

theorem notes_say (reporter : Reporter) (level : Level) (message : String)
    (hsay : (reporter.say level message : Act σ Unit).Within R) :
    Notes P R (reporter.say level message : Act σ Unit) (reporter.say level message) := by
  intro w notes
  refine ⟨[], ?_, fun _ => hsay w⟩
  rw [noting_of_ok (reporter.say_eq level message w), reporter.say_eq, List.append_nil]
  rfl

section

variable [IsPreorder (World σ) R]

theorem notes_pure (value : α) : Notes P R (pure value : Act σ α) (pure value) := by
  intro w notes
  refine ⟨[], ?_, fun _ => refl w⟩
  rw [noting_of_ok (rfl : (pure value : Act σ α) w = .ok value w), List.append_nil]
  rfl

theorem notes_bind {act : Act σ α} {next : α → Act σ β} {noted : Act (σ × List (Sent σ)) α}
    {noted' : α → Act (σ × List (Sent σ)) β} (hact : Notes P R act noted)
    (hnext : ∀ value, Notes P R (next value) (noted' value)) :
    Notes P R (act >>= next) (noted >>= noted') := by
  intro w notes
  obtain ⟨new, hnoted, hwithin⟩ := hact w notes
  cases hrun : act w with
  | error fault w' =>
    rw [noting_of_error hrun] at hnoted
    rw [final_of_error hrun] at hwithin
    exact ⟨new, by rw [bind_of_error hnoted, noting_of_error (bind_of_error hrun)],
      by rwa [final_bind_of_error hrun]⟩
  | ok value w' =>
    rw [noting_of_ok hrun] at hnoted
    rw [final_of_ok hrun] at hwithin
    obtain ⟨new', hnoted', hwithin'⟩ := hnext value w' (notes ++ new)
    refine ⟨new ++ new', ?_, fun hnew => ?_⟩
    · rw [bind_of_ok hnoted, hnoted']
      cases hrun' : next value w' with
      | ok value' w'' =>
        rw [noting_of_ok hrun', noting_of_ok ((bind_of_ok hrun).trans hrun'), List.append_assoc]
      | error fault w'' =>
        rw [noting_of_error hrun', noting_of_error ((bind_of_ok hrun).trans hrun'),
          List.append_assoc]
    · rw [final_bind_of_ok hrun]
      exact IsTrans.trans _ _ _ (hwithin fun sent hsent => hnew sent (List.mem_append_left _ hsent))
        (hwithin' fun sent hsent => hnew sent (List.mem_append_right _ hsent))

theorem notes_look (question : Disk → Except Fault α) :
    Notes P R (look question : Act σ α) (look question) := by
  intro w notes
  refine ⟨[], ?_, fun _ => within_look question w⟩
  have hdisk : (w.withNotes notes).disk = w.disk := rfl
  cases hanswer : question w.disk with
  | ok answer =>
    rw [noting_of_ok (look_of_ok hanswer), look_of_ok (hdisk ▸ hanswer), List.append_nil]
  | error fault =>
    rw [noting_of_error (look_of_error hanswer), look_of_error (hdisk ▸ hanswer), List.append_nil]

theorem notes_foldlM {γ : Type} {items : List γ} {act : β → γ → Act σ β}
    {noted : β → γ → Act (σ × List (Sent σ)) β}
    (hact : ∀ acc item, Notes P R (act acc item) (noted acc item)) (acc : β) :
    Notes P R (items.foldlM act acc) (items.foldlM noted acc) := by
  induction items generalizing acc with
  | nil => exact notes_pure acc
  | cons item rest ih =>
    rw [List.foldlM_cons, List.foldlM_cons]
    exact notes_bind (hact acc item) ih

end

end Act

/-! ## A whole run -/

section Tour

variable {P : Sent σ → Prop} {R : World σ → World σ → Prop} [IsPreorder (World σ) R]

theorem Scan.notes_foldM {β : Type} {rules : Rules} {visit : β → Path → Act σ β}
    {noted : β → Path → Act (σ × List (Sent σ)) β}
    (hvisit : ∀ acc path, Act.Notes P R (visit acc path) (noted acc path))
    (depth : Nat) (dir : Path) (acc : β) :
    Act.Notes P R (foldM Act.look rules visit depth dir acc)
      (foldM Act.look rules noted depth dir acc) := by
  induction depth generalizing dir acc with
  | zero =>
    unfold foldM
    exact Act.notes_look _
  | succ depth ih =>
    unfold foldM
    refine Act.notes_bind (Act.notes_look _) fun entries => Act.notes_foldlM (fun acc entry => ?_) acc
    split
    · split
      · exact Act.notes_pure acc
      · exact ih _ acc
    · refine Act.notes_bind (Act.notes_look _) fun script => ?_
      split
      · exact hvisit acc _
      · exact Act.notes_pure acc

namespace Tour

variable {tour : Tour σ} {noting : Tour (σ × List (Sent σ))}

/-- One tour goes the way of another and takes notes. -/
structure Notes (P : Sent σ → Prop) (R : World σ → World σ → Prop) (tour : Tour σ)
    (noting : Tour (σ × List (Sent σ))) : Prop where
  reporter : noting.reporter = tour.reporter
  rules : noting.rules = tour.rules
  visit : ∀ outcomes file, Act.Notes P R (tour.visit outcomes file) (noting.visit outcomes file)
  say : ∀ level message, (tour.reporter.say level message : Act σ Unit).Within R

theorem Notes.directory (hnotes : Notes P R tour noting) (directory : Path) :
    Act.Notes P R (tour.directory directory) (noting.directory directory) := by
  unfold Tour.directory
  rw [hnotes.reporter, hnotes.rules]
  exact Act.notes_bind (Act.notes_look _) fun _ =>
    Act.notes_bind (Act.notes_say _ _ _ (hnotes.say _ _)) fun _ =>
      Act.notes_bind (Scan.notes_foldM hnotes.visit _ _ _) fun _ =>
        Act.notes_bind (Act.notes_say _ _ _ (hnotes.say _ _)) fun _ => Act.notes_pure _

theorem Notes.target (hnotes : Notes P R tour noting) (target : Path) :
    Act.Notes P R (tour.target target) (noting.target target) := by
  have hsay (level : Level) (message : String) :
      Act.Notes P R (tour.reporter.say level message : Act σ Unit)
        (tour.reporter.say level message) := Act.notes_say _ _ _ (hnotes.say _ _)
  unfold Tour.target
  rw [hnotes.reporter, hnotes.rules]
  refine Act.notes_bind (Act.notes_look _) fun present => ?_
  cases present with
  | false => exact Act.notes_bind (hsay _ _) fun _ => Act.notes_pure _
  | true =>
    refine Act.notes_bind (Act.notes_look _) fun directory => ?_
    cases directory with
    | true => exact hnotes.directory target
    | false =>
      refine Act.notes_bind (Act.notes_look _) fun script => ?_
      cases script with
      | true => exact Act.notes_bind (hsay _ _) fun _ => hnotes.directory target.parent
      | false => exact Act.notes_bind (hsay _ _) fun _ => Act.notes_pure _

theorem Notes.targets (hnotes : Notes P R tour noting) (targets : List Path) :
    Act.Notes P R (tour.targets targets) (noting.targets targets) :=
  Act.notes_foldlM (fun _ target =>
    Act.notes_bind (hnotes.target target) fun _ => Act.notes_pure _) []

end Tour

end Tour

namespace Engine

variable {engine : Engine σ} {loc : Loc} {entry : Entry}

/-- The tour of an engine that notes what it sends to the steps. -/
def noting (engine : Engine σ) : Tour (σ × List (Sent σ)) where
  reporter := engine.reporter
  rules := engine.rules
  visit outcomes file := (engine.visit outcomes file).noting (engine.sent file)

/-- The files that a run over targets sends to the steps. -/
def sentFiles (engine : Engine σ) (targets : List Path) (w : World σ) : List (Sent σ) :=
  ((engine.noting.targets targets).final (w.withNotes [])).tools.2

theorem noting_notes (hcontained : engine.Contained)
    (hout : Path.Component engine.settings.outputDirName) :
    engine.tour.Notes
      (fun sent => sent.Direct engine.settings.outputDirName ∧ ¬engine.Touches sent loc)
      (World.KeepsEntry loc entry) engine.noting where
  reporter := rfl
  rules := rfl
  visit outcomes file := fun w _ =>
    ⟨engine.sent file w, rfl, fun hsent => visit_keepsEntry hcontained hout hsent outcomes⟩
  say := say_keepsEntry engine.reporter

end Engine

namespace Engine

variable {engine : Engine σ} {targets : List Path} {w : World σ}

theorem sentFiles_eq {new : List (Sent σ)} (hnoted : engine.noting.targets targets (w.withNotes []) =
    (engine.processTargets targets).noting (fun _ => new) (w.withNotes [])) :
    engine.sentFiles targets w = new := by
  rw [sentFiles, Act.final, hnoted]
  cases hrun : engine.processTargets targets w with
  | ok outcomes w' => rw [Act.noting_of_ok hrun]; rfl
  | error fault w' => rw [Act.noting_of_error hrun]; rfl

/-- Taking notes changes nothing about a run. -/
theorem noting_targets_eq (engine : Engine σ) (targets : List Path) (w : World σ) :
    engine.noting.targets targets (w.withNotes []) =
      (engine.processTargets targets).noting (fun _ => engine.sentFiles targets w)
        (w.withNotes []) := by
  have : IsPreorder (World σ) fun _ _ => True :=
    { refl := fun _ => trivial, trans := fun _ _ _ _ _ => trivial }
  have hnotes : engine.tour.Notes (fun _ => True) (fun _ _ => True) engine.noting :=
    ⟨rfl, rfl, fun _ file w _ => ⟨engine.sent file w, rfl, fun _ => trivial⟩,
      fun _ _ _ => trivial⟩
  obtain ⟨new, hnoted, -⟩ := hnotes.targets targets w []
  rwa [sentFiles_eq hnoted]

/-- What a run leaves when notes are taken: what it leaves, and the files it has sent. -/
theorem final_noting_targets (engine : Engine σ) (targets : List Path) (w : World σ) :
    (engine.noting.targets targets).final (w.withNotes []) =
      ((engine.processTargets targets).final w).withNotes (engine.sentFiles targets w) := by
  rw [Act.final, noting_targets_eq]
  cases hrun : engine.processTargets targets w with
  | ok outcomes w' => rw [Act.noting_of_ok hrun, Act.final_of_ok hrun]; rfl
  | error fault w' => rw [Act.noting_of_error hrun, Act.final_of_error hrun]; rfl

end Engine

/-- What a run leaves of an entry that is there at its start and is not the debug log: the
entry, unless it is touched by a file that has been sent to the steps. -/
theorem entries_kept_of_processTargets (engine : Engine σ) (targets : List Path) {w : World σ}
    (hcontained : engine.Contained) (hout : Path.Component engine.settings.outputDirName)
    (hsound : w.disk.Sound)
    (hdirect : ∀ sent ∈ engine.sentFiles targets w, sent.Direct engine.settings.outputDirName)
    {loc : Loc} {entry : Entry} (hentry : w.disk.tree.get? loc = some entry)
    (hlog : w.disk.log ≠ some loc)
    (huntouched : ∀ sent ∈ engine.sentFiles targets w, ¬engine.Touches sent loc) :
    ((engine.processTargets targets).final w).disk.tree.get? loc = some entry := by
  have hnotes : engine.tour.Notes
      (fun sent => sent.Direct engine.settings.outputDirName ∧ ¬engine.Touches sent loc)
      (World.KeepsEntry loc entry) engine.noting := Engine.noting_notes hcontained hout
  obtain ⟨new, hnoted, hkeeps⟩ := hnotes.targets targets w []
  rw [Engine.sentFiles_eq hnoted] at hdirect huntouched
  exact (hkeeps (fun sent hsent => ⟨hdirect sent hsent, huntouched sent hsent⟩)
    ⟨hsound, hlog, hentry⟩).held

section Samples

theorem Sample.runner_contained (steps : List Step) (settings : Settings) :
    (Sample.engine (Sample.runner id) steps settings).Contained where
  tools _ _ _ _ _ _ hsound _ := ⟨hsound, rfl, fun _ _ => id⟩
  others _ _ _ _ := rfl

/-- One file is sent: the one at `file`, which lies in `dir`, and does not touch `loc`. -/
inductive Sample.Apart (engine : Engine Unit) (file : Path) (dir loc : Loc) :
    List (Sent Unit) → Prop
  | intro {sent : Sent Unit} (hfile : sent.file = file) (hlies : sent.LiesIn dir)
      (hloc : loc ≠ dir ++ [sent.file.name] ∧
        ¬Inside (artifactLocs sent.file engine.settings.outputDirName dir) loc ∧
        ¬engine.Sweeps sent.file dir sent.world loc) :
      Sample.Apart engine file dir loc [sent]

instance (sent : Sent Unit) (dir : Loc) : Decidable (sent.LiesIn dir) :=
  inferInstanceAs (Decidable (_ = _))

instance (engine : Engine Unit) (file : Path) (dir loc : Loc) : (sent : List (Sent Unit)) →
    Decidable (Sample.Apart engine file dir loc sent)
  | [] => isFalse nofun
  | [sent] => decidable_of_iff (sent.file = file ∧ sent.LiesIn dir ∧
      loc ≠ dir ++ [sent.file.name] ∧
        ¬Inside (artifactLocs sent.file engine.settings.outputDirName dir) loc ∧
        ¬engine.Sweeps sent.file dir sent.world loc)
      ⟨fun h => .intro h.1 h.2.1 h.2.2, fun ⟨hfile, hlies, hloc⟩ => ⟨hfile, hlies, hloc⟩⟩
  | _ :: _ :: _ => isFalse nofun

theorem Sample.untouched_of_apart {engine : Engine Unit} {file : Path} {dir loc : Loc}
    {sent : List (Sent Unit)} (hapart : Sample.Apart engine file dir loc sent) :
    sent.map (·.file) = [file] ∧ ∀ s ∈ sent, ¬engine.Touches s loc := by
  obtain ⟨hfile, hlies, hname, hartifact, hswept⟩ := hapart
  refine ⟨by simp [hfile], fun other hother htouches => ?_⟩
  rw [List.mem_singleton.mp hother] at htouches
  rcases (Engine.touches_iff hlies).mp htouches with h | h | h
  · exact hname h
  · exact hartifact h
  · exact hswept h

/-- An obfuscated file and another file next to it. -/
def Sample.neighbours : Disk := Sample.disk [(["d"], .directory), (["d", "a.js"], .file [97] {}),
  (["d", "a.js.temp"], .directory), (["d", "b.txt"], .file [98] {})]

theorem neighbour_kept_of_processTargets :
    (Sample.tidying.sentFiles [⟨.here, ["d"]⟩] (Sample.world Sample.neighbours)).map (·.file) =
        [⟨.here, ["d", "a.js"]⟩] ∧
      ((Sample.tidying.processTargets [⟨.here, ["d"]⟩]).final
        (Sample.world Sample.neighbours)).disk.tree.get? ["d", "b.txt"] =
          some (.file [98] {}) := by
  have hrun : Sample.Apart Sample.tidying ⟨.here, ["d", "a.js"]⟩ ["d"] ["d", "b.txt"]
        (Sample.tidying.sentFiles [⟨.here, ["d"]⟩] (Sample.world Sample.neighbours)) ∧
      ∀ sent ∈ Sample.tidying.sentFiles [⟨.here, ["d"]⟩] (Sample.world Sample.neighbours),
        (sent.world.disk.without (fileLocs sent.file "output_dir" ["d"])).find .followed
          sent.file.parent = .ok (.present ["d"] .directory) := by
    decide +kernel
  have hsound : (Sample.world Sample.neighbours).disk.Sound :=
    show Sample.neighbours.Sound by decide
  have hapart := Sample.untouched_of_apart hrun.1
  exact ⟨hapart.1, entries_kept_of_processTargets Sample.tidying [⟨.here, ["d"]⟩]
    (Sample.runner_contained _ _) (by decide) hsound (fun sent hsent => ⟨["d"], hrun.2 sent hsent⟩)
    (by decide) (by decide) hapart.2⟩

/-- A directory, and a debug log next to it. -/
def Sample.logging : Disk :=
  { Sample.disk [(["d"], .directory), (["notes"], .file [] {})] with log := some ["notes"] }

/-- A working directory in which a link has the name of an artifact, and files of the same
names above it. -/
def Sample.linked : Disk := Sample.disk
  [(["a.js"], .file [97] {}), (["a.js.deobfuscated.js"], .file [98] {}), (["w"], .directory),
    (["w", "a.js"], .file [99] {}), (["w", "a.js.temp"], .link "p/q"), (["w", "p"], .directory),
    (["w", "p", "q"], .directory)] ["w"]

/-- An engine whose only step changes nothing and looks for output in a sibling. -/
def Sample.promoting : Engine Unit := Sample.engine (Sample.runner id) [Step.synchrony]

/-- A path to the working directory, by way of the link. -/
def Sample.detour : Path := ⟨.here, ["a.js.temp", "..", ".."]⟩

/-- A run does not keep the debug log, nor what lies where its paths lead once the link on
the way has been removed. -/
theorem entries_changed_off_route :
    Sample.promoting.Contained ∧ Path.Component Sample.promoting.settings.outputDirName ∧
      Sample.logging.Sound ∧ Sample.linked.Sound ∧
      (Sample.promoting.sentFiles [⟨.here, ["d"]⟩] (Sample.world Sample.logging) = [] ∧
        Sample.logging.tree.get? ["notes"] = some (.file [] {}) ∧
        ((Sample.promoting.processTargets [⟨.here, ["d"]⟩]).final
          (Sample.world Sample.logging)).disk.tree.get? ["notes"] ≠ some (.file [] {})) ∧
      ((∀ sent ∈ Sample.promoting.sentFiles [Sample.detour] (Sample.world Sample.linked),
          ¬Sample.promoting.Touches sent ["a.js"]) ∧
        Sample.linked.log = none ∧ Sample.linked.tree.get? ["a.js"] = some (.file [97] {}) ∧
        ((Sample.promoting.processTargets [Sample.detour]).final
          (Sample.world Sample.linked)).disk.tree.get? ["a.js"] = some (.file [98] {})) := by
  have hlogging :
      ((Sample.promoting.noting.targets [⟨.here, ["d"]⟩]).final
          ((Sample.world Sample.logging).withNotes [])).tools.2.length = 0 ∧
        ((Sample.promoting.noting.targets [⟨.here, ["d"]⟩]).final
          ((Sample.world Sample.logging).withNotes [])).disk.tree.get? ["notes"] ≠
            some (.file [] {}) := by
    decide +kernel
  have hlinked :
      Sample.Apart Sample.promoting (Sample.detour.child "a.js") ["w"] ["a.js"]
          ((Sample.promoting.noting.targets [Sample.detour]).final
            ((Sample.world Sample.linked).withNotes [])).tools.2 ∧
        ((Sample.promoting.noting.targets [Sample.detour]).final
          ((Sample.world Sample.linked).withNotes [])).disk.tree.get? ["a.js"] =
            some (.file [98] {}) := by
    decide +kernel
  rw [Engine.final_noting_targets, World.withNotes_notes, World.withNotes_disk] at hlogging hlinked
  exact ⟨Sample.runner_contained _ _, by decide, by decide, by decide,
    ⟨List.length_eq_zero_iff.mp hlogging.1, by decide, hlogging.2⟩,
    (Sample.untouched_of_apart hlinked.1).2, rfl, by decide, hlinked.2⟩

end Samples

end Unscramble
