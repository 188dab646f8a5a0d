import Unscramble.Proofs.Confined
import Unscramble.Proofs.Faults

/-!
# Judging a file

Before a file goes through the steps it is read and the detector is asked about it.  Where
only the commands of steps change anything, this adds nothing to the disk but lines in the
log, so what is judged is what the steps start from.
-/

namespace Unscramble

open Disk

variable {σ : Type}

namespace Engine

/-- Read a file and ask the detector about it. -/
def judge (engine : Engine σ) (file : Path) : Act σ Bool := do
  let content ← readFile file
  engine.reporter.info ("Processing " ++ file.toString ++ "...")
  let obfuscated ← engine.isObfuscated content
  engine.reporter.info
    (if obfuscated then "Deobfuscating " ++ file.name ++ "..."
      else file.toString ++ " is not obfuscated. Skipping...")
  return obfuscated

/-- What is done with a file that has been judged. -/
def handle (engine : Engine σ) (file : Path) : (obfuscated : Bool) → Act σ Outcome
  | false => return { file, status := .clean }
  | true => do
    let report ← engine.deobfuscate file
    engine.reporter.success (file.name ++ " has been deobfuscated and beautified.")
    return { file, status := .deobfuscated, report }

theorem processFile_eq (engine : Engine σ) (file : Path) :
    engine.processFile file = engine.judge file >>= engine.handle file := by
  unfold processFile judge
  simp only [bind_assoc, pure_bind]
  congr! 4 with content _
  congr! 2 with obfuscated
  cases obfuscated <;> rfl

end Engine

/-! ## What judging changes -/

/-- Nothing has become of the disk but lines in the log. -/
def World.OnlyLogs (w w' : World σ) : Prop := ∃ lines, w'.disk = w.disk.noted lines

instance : IsPreorder (World σ) World.OnlyLogs where
  refl _ := ⟨[], rfl⟩
  trans _ _ _ hab hbc := by
    obtain ⟨lines, hlines⟩ := hab
    obtain ⟨lines', hlines'⟩ := hbc
    exact ⟨lines ++ lines', by rw [hlines', hlines, noted_append]⟩

theorem say_onlyLogs (reporter : Reporter) (level : Level) (message : String) :
    (reporter.say level message : Act σ Unit).Within World.OnlyLogs := by
  intro w
  rw [Act.final_of_ok (reporter.say_eq level message w)]
  exact ⟨[_], rfl⟩

/-- A path that leads to a file on a thinner disk led to one before. -/
theorem Disk.Thinner.isFile {disk disk' : Disk} {path : Path} (hthin : disk'.Thinner disk)
    (hsound : disk.Sound) (hfile : disk'.isFile path = .ok true) : disk.isFile path = .ok true := by
  obtain ⟨loc, bytes, access, hfind⟩ := isFile_eq_true_iff.mp hfile
  obtain ⟨entry, hfind', hbare⟩ := hthin.present hsound hfind
  cases entry with
  | file held access => exact isFile_eq_true_iff.mpr ⟨loc, held, access, hfind'⟩
  | directory => cases hbare
  | link target => cases hbare

/-- A path that leads to a file still does when lines have been logged. -/
theorem isFile_noted {disk : Disk} {path : Path} (hsound : disk.Sound)
    (hfile : disk.isFile path = .ok true) (lines : List String) :
    (disk.noted lines).isFile path = .ok true := by
  have hthin : disk.Thinner (disk.noted lines) :=
    .of_shape (fun q => (disk.shape_noted lines q).symm) (disk.noted_places lines).1.symm
  exact hthin.isFile (hsound.noted lines) hfile

/-- A file, or a link to it, lies in the directory above it. -/
theorem held_of_isFile_child {disk : Disk} {path : Path} (hname : Path.Ordinary path.name)
    (hfile : disk.isFile path = .ok true) :
    ∃ dir held, disk.find .followed path.parent = .ok (.present dir .directory) ∧
      disk.tree.get? (dir ++ [path.name]) = some held ∧ held ≠ .directory := by
  obtain ⟨loc, bytes, access, hfind⟩ := isFile_eq_true_iff.mp hfile
  rw [← Path.child_parent (Path.ordinary_ne_empty hname)] at hfind
  rcases disk.find_followed (path.parent.child path.name) with ⟨q, text, hlink⟩ | hsame
  · obtain ⟨p, hp, -, ⟨h, -⟩ | ⟨_, h, hheld⟩⟩ := reached_of_find_child hname hlink <;> cases h
    exact ⟨p, _, hp, hheld, by simp⟩
  · rw [hsame] at hfind
    obtain ⟨p, hp, -, ⟨h, -⟩ | ⟨_, h, hheld⟩⟩ := reached_of_find_child hname hfind <;> cases h
    exact ⟨p, _, hp, hheld, by simp⟩

/-- A file is no directory, so nothing lies below it. -/
theorem ne_directory_of_isFile_child {disk : Disk} {path : Path} {dir : Loc}
    (hname : Path.Ordinary path.name) (hfile : disk.isFile path = .ok true)
    (hdir : disk.find .followed path.parent = .ok (.present dir .directory)) :
    disk.tree.get? (dir ++ [path.name]) ≠ some .directory := by
  intro hheld
  obtain ⟨p, held, hp, hentry, hother⟩ := held_of_isFile_child hname hfile
  cases hdir.symm.trans hp
  exact hother (Option.some.inj (hentry.symm.trans hheld))

namespace Engine

variable {engine : Engine σ}

theorem tryRun_onlyLogs (honly : engine.OnlyStepsChange) {command : Command}
    (hcommand : ∀ file, ¬engine.IsFor file command) :
    (engine.tryRun command).Within World.OnlyLogs := by
  refine (Act.composes_within _).tryRun fun w => ?_
  rw [final_run]
  exact ⟨[], honly command hcommand w.disk w.tools⟩

/-- The command of a step keeps no output and always has a directory. -/
theorem not_isFor {command : Command} (hcommand : command.capture = true ∨ command.echo = true)
    (file : Path) : ¬engine.IsFor file command := by
  rintro ⟨step, -, argv, -, rfl⟩
  rcases hcommand with h | h <;> cases h

theorem ensure_onlyLogs (honly : engine.OnlyStepsChange) (scope : Scope) (package : String) :
    (engine.ensure scope package).Within World.OnlyLogs := by
  have hremember : (remember scope package : Act σ Unit).Within World.OnlyLogs :=
    fun w => ⟨[], rfl⟩
  have hcheck : (engine.isInstalled scope package).Within World.OnlyLogs :=
    Act.within_bind (tryRun_onlyLogs honly (not_isFor (.inl (by cases scope <;> rfl))))
      fun _ => Act.within_pure _
  have hinstall : (engine.install scope package).Within World.OnlyLogs := by
    rw [install_eq]
    split
    · refine Act.within_bind (say_onlyLogs _ _ _) fun _ => Act.within_bind
        (tryRun_onlyLogs honly (not_isFor (.inr (by cases scope <;> rfl)))) fun ran => ?_
      cases ran with
      | ok completed => exact say_onlyLogs _ _ _
      | error fault => exact Act.within_throw _
    · exact Act.within_throw _
  unfold ensure
  refine Act.within_get_bind fun w => ?_
  split
  · exact Act.within_pure _ w
  · refine Act.within_bind hcheck (fun installed => ?_) w
    cases installed with
    | true =>
      exact Act.within_bind (say_onlyLogs _ _ _) fun _ =>
        Act.within_bind hremember fun _ => Act.within_pure _
    | false =>
      exact Act.within_bind hinstall fun _ =>
        Act.within_bind hremember fun _ => Act.within_pure _

theorem judge_onlyLogs (honly : engine.OnlyStepsChange) (file : Path) :
    (engine.judge file).Within World.OnlyLogs := by
  have hread : (readFile file : Act σ String).Within World.OnlyLogs := by
    refine Act.within_bind (Act.within_look _) fun bytes => ?_
    split
    · exact Act.within_pure _
    · exact Act.within_throw _
  have hclassify (content : String) : (engine.classify content).Within World.OnlyLogs := by
    refine Act.within_bind (Act.within_bind (ensure_onlyLogs honly _ _) fun _ =>
      Act.within_pure _) fun _ => Act.within_bind (tryRun_onlyLogs honly (not_isFor (.inl rfl)))
        fun ran => ?_
    cases ran with
    | ok completed => exact Act.within_lift _
    | error fault => exact Act.within_throw _
  have hask (content : String) : (engine.isObfuscated content).Within World.OnlyLogs := by
    refine Act.within_bind (hclassify content) fun found => ?_
    split <;> exact Act.within_pure _
  exact Act.within_bind hread fun content => Act.within_bind (say_onlyLogs _ _ _) fun _ =>
    Act.within_bind (hask content) fun _ => Act.within_bind (say_onlyLogs _ _ _) fun _ =>
      Act.within_pure _

/-- Only a file is judged. -/
theorem isFile_of_judge {file : Path} {w w' : World σ} {obfuscated : Bool}
    (hjudge : engine.judge file w = .ok obfuscated w') : w.disk.isFile file = .ok true := by
  cases hread : w.disk.readBytes file with
  | error why =>
    have hfault : (readFile file : Act σ String) w = .error _ w :=
      Act.bind_of_error (Act.ask_of_error hread)
    rw [judge, Act.bind_of_error hfault] at hjudge
    cases hjudge
  | ok bytes =>
    rw [isFile, Disk.ask]
    unfold readBytes at hread
    cases hstat : w.disk.stat .followed file with
    | error why =>
      rw [hstat] at hread
      cases hread
    | ok entry =>
      rw [hstat] at hread
      cases entry with
      | file held access => rfl
      | directory => cases hread
      | link target => cases hread

end Engine

end Unscramble
