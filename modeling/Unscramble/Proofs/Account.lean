import Unscramble.Proofs.Disk.Below
import Unscramble.Proofs.Selection
import Unscramble.Proofs.Succession
import Unscramble.Proofs.Untouched

/-!
# The account of a walk

A walk announces how many scripts it has found, and goes through them with a second, lazy scan.
What the runs on the way take away is not met any more: a script at the artifact of an earlier file
drops out without a word.  All others end up as an outcome, and nothing else does.
-/

namespace Unscramble

open Disk Workspace

variable {σ : Type}

/-! ## What runs over files leave -/

/-- The locations where runs over the files at these spots work. -/
def Spot.zone (name : String) (spots : List Spot) : List Loc :=
  spots.flatMap fun spot => fileLocs spot.file name spot.dir

theorem Spot.inside_zone_iff {name : String} {spots : List Spot} {loc : Loc} :
    Inside (zone name spots) loc ↔
      ∃ spot ∈ spots, Inside (fileLocs spot.file name spot.dir) loc := by
  simp only [Inside, zone, List.mem_flatMap]
  constructor
  · rintro ⟨z, ⟨spot, hspot, hz⟩, hpre⟩
    exact ⟨spot, hspot, z, hz, hpre⟩
  · rintro ⟨spot, hspot, z, hz, hpre⟩
    exact ⟨z, ⟨spot, hspot, hz⟩, hpre⟩

namespace Disk

/-- What becomes of a disk in runs over the files at `spots`, and in sweeps from `top` on.  At the
files anything may have changed; at their artifacts nothing is left. -/
structure Outlasts (top : Loc) (name : String) (spots : List Spot) (disk disk' : Disk) : Prop where
  sound : disk'.Sound
  shape : ∀ loc, ¬Inside (Spot.zone name spots) loc → disk'.tree.shape loc = disk.tree.shape loc ∨
    Covered top name loc ∧ disk'.tree.get? loc = none
  working : ∀ start, ¬Inside (Spot.zone name spots) start → ¬Covered top name start →
    disk.workingLoc? = some start → disk'.workingLoc? = some start
  links : ∀ loc target, (∀ spot ∈ spots, ¬spot.loc <+: loc) →
    disk'.tree.get? loc = some (.link target) → disk.tree.get? loc = some (.link target)
  cleared : ∀ spot ∈ spots, ∀ loc ∈ artifactLocs spot.file name spot.dir,
    disk'.tree.get? loc = none

namespace Outlasts

variable {top loc : Loc} {name : String} {spots spots' : List Spot} {disk disk' disk'' : Disk}

theorem of_course (hcourse : Course top name [] disk disk') : Outlasts top name [] disk disk' where
  sound := hcourse.sound
  shape loc hloc := hcourse.shape loc hloc
  working start _ huncovered hstart := hcourse.working start hstart huncovered
  links loc target _ hlink := by
    rcases hcourse.shape loc (by simp [Inside]) with hsame | ⟨-, hgone⟩
    · rwa [← Tree.shape_eq_link_iff, ← hsame, Tree.shape_eq_link_iff]
    · rw [hgone] at hlink
      cases hlink
  cleared := by simp

/-- Where runs clear artifacts that earlier runs have cleared, nothing comes back. -/
theorem trans (hfirst : Outlasts top name spots disk disk')
    (hsecond : Outlasts top name spots' disk' disk'')
    (hapart : ∀ spot ∈ spots', ∀ earlier ∈ spots,
      ∀ loc ∈ artifactLocs earlier.file name earlier.dir, ¬spot.loc <+: loc) :
    Outlasts top name (spots ++ spots') disk disk'' := by
  have hinside (loc : Loc) : Inside (Spot.zone name (spots ++ spots')) loc ↔
      Inside (Spot.zone name spots) loc ∨ Inside (Spot.zone name spots') loc := by
    simp only [Spot.inside_zone_iff, List.mem_append, or_and_right, exists_or]
  constructor
  case sound => exact hsecond.sound
  case shape =>
    intro loc hloc
    rw [hinside, not_or] at hloc
    rcases hsecond.shape loc hloc.2 with hsame | hgone
    · rcases hfirst.shape loc hloc.1 with hsame' | ⟨hcovered, hgone⟩
      · exact .inl (hsame.trans hsame')
      · refine .inr ⟨hcovered, ?_⟩
        simpa [Tree.shape, hgone] using hsame
    · exact .inr hgone
  case working =>
    intro start hstart huncovered hworking
    rw [hinside, not_or] at hstart
    exact hsecond.working start hstart.2 huncovered
      (hfirst.working start hstart.1 huncovered hworking)
  case links =>
    intro loc target hloc hlink
    exact hfirst.links loc target (fun spot hspot => hloc spot (List.mem_append_left _ hspot))
      (hsecond.links loc target (fun spot hspot => hloc spot (List.mem_append_right _ hspot)) hlink)
  case cleared =>
    intro spot hspot loc hloc
    rcases List.mem_append.mp hspot with hspot | hspot
    · have hgone := hfirst.cleared spot hspot loc hloc
      by_cases hlater : Inside (Spot.zone name spots') loc
      · obtain ⟨later, hmem, hlater⟩ := Spot.inside_zone_iff.mp hlater
        obtain ⟨artifact, hartifact, hpre⟩ :=
          (inside_fileLocs_iff.mp hlater).resolve_left (hapart later hmem spot hspot loc hloc)
        have hnone := hsecond.cleared later hmem artifact hartifact
        by_cases heq : artifact = loc
        · rwa [← heq]
        · exact hsecond.sound.missing_below (by simp [hnone]) hpre heq
      · rcases hsecond.shape loc hlater with hsame | ⟨-, hnone⟩
        · simpa [Tree.shape, hgone] using hsame
        · exact hnone
    · exact hsecond.cleared spot hspot loc hloc

end Outlasts

/-- What a name in a directory leads to can be told where the system takes the path and it is no
link. -/
theorem resolvable_child {disk : Disk} {path : Path} {dir : Loc} {name : String}
    (hdir : disk.find .followed path = .ok (.present dir .directory)) (hname : Path.Ordinary name)
    (htakes : path.Takes name)
    (hlink : ∀ target, disk.tree.get? (dir ++ [name]) ≠ some (.link target)) :
    disk.Resolvable (path.child name) := by
  intro why hwhy
  have hfind := find_child_of_reached hname htakes.2 htakes.1 hdir
  cases hheld : disk.tree.get? (dir ++ [name]) with
  | none =>
    rw [hheld] at hfind
    rw [find_followed_of_ne_link hfind (by simp)] at hwhy
    cases hwhy
  | some entry =>
    rw [hheld] at hfind
    rw [find_followed_of_ne_link hfind fun _ target heq => by
      cases heq
      exact hlink target hheld] at hwhy
    cases hwhy

end Disk

namespace Engine

variable {engine : Engine σ} {file : Path} {dir top : Loc} {w : World σ}

/-- A workspace is released if the directory is reached without what lies in a zone around the
artifacts, and no artifact is a link. -/
theorem release_surrounded_ok {zone : List Loc} {base : Disk} {outputName : String}
    (hfile : Path.Ordinary file.name) (hout : Path.Component outputName)
    (hnul : file.hasNul = false) (hsurrounds : Surrounds zone base w.disk)
    (hzone : ∀ loc ∈ artifactLocs file outputName dir, Inside zone loc)
    (hreached : base.find .followed file.parent = .ok (.present dir .directory))
    (htakes : ∀ name ∈ artifactNames file outputName, file.parent.Takes name)
    (hlinks : ∀ name ∈ artifactNames file outputName, ∀ target,
      w.disk.tree.get? (dir ++ [name]) ≠ some (.link target)) :
    ((ofFile file outputName).release : Act σ Unit) w =
      .ok () { w with disk := w.disk.without (artifactLocs file outputName dir) } := by
  have hwithout := hsurrounds.without fun loc hloc => ⟨ne_nil_of_mem_artifactLocs hloc, hzone loc hloc⟩
  exact release_of_reached hsurrounds.sound (Path.ordinary_ne_empty hfile) hout hnul
    (fun name hname => resolvable_child (hsurrounds.reached hreached)
      (ordinary_of_mem_artifactNames hout hname) (htakes name hname) (hlinks name hname))
    (hwithout.reached hreached)

/-- A workspace around which the directory is reached is released, if no artifact is a link. -/
theorem release_around_ok {base : Disk} {outputName : String} (hfile : Path.Ordinary file.name)
    (hout : Path.Component outputName) (hnul : file.hasNul = false)
    (haround : Around file outputName dir base w.disk)
    (htakes : ∀ name ∈ artifactNames file outputName, file.parent.Takes name)
    (hlinks : ∀ name ∈ artifactNames file outputName, ∀ target,
      w.disk.tree.get? (dir ++ [name]) ≠ some (.link target)) :
    ((ofFile file outputName).release : Act σ Unit) w =
      .ok () { w with disk := w.disk.without (artifactLocs file outputName dir) } :=
  release_surrounded_ok hfile hout hnul haround.toSurrounds
    (fun loc hloc => inside_fileLocs ⟨loc, hloc, List.prefix_rfl⟩) haround.reached htakes hlinks

section Run

variable (hcontained : engine.Contained) (hout : Path.Component engine.settings.outputDirName)
  (hfile : Path.Ordinary file.name) (hnul : file.hasNul = false) (hsound : w.disk.Sound)
  (hdir : (w.disk.without (fileLocs file engine.settings.outputDirName dir)).find .followed
    file.parent = .ok (.present dir .directory))
  (htakes : ∀ name ∈ artifactNames file engine.settings.outputDirName, file.parent.Takes name)
  (hlinks : ∀ name ∈ artifactNames file engine.settings.outputDirName, ∀ target,
    w.disk.tree.get? (dir ++ [name]) ≠ some (.link target))

include hcontained hout hfile hnul hsound hdir htakes hlinks

/-- A run up to its last sweep leaves nothing at the artifacts. -/
theorem work_clears {loc : Loc} (hloc : loc ∈ artifactLocs file engine.settings.outputDirName dir) :
    ((engine.work file).final w).disk.tree.get? loc = none := by
  let out := engine.settings.outputDirName
  have haround : Around file out dir _ w.disk :=
    ⟨surrounds_without hsound fun loc => ne_nil_of_mem_fileLocs, hdir⟩
  let w₁ := w.said engine.reporter .info ("Deobfuscating file: " ++ file.toString)
  have haround₁ : Around file out dir _ w₁.disk := haround.logged _
  have hlinks₁ (name : String) (hname : name ∈ artifactNames file out) (target : String) :
      w₁.disk.tree.get? (dir ++ [name]) ≠ some (.link target) := fun hlink =>
    hlinks name hname target ((w.disk.thinner_logged _).held_link hlink)
  have hrelease := release_around_ok hfile hout hnul haround₁ htakes hlinks₁
  obtain ⟨w₂, hmake, hconfined⟩ := staging_confined haround₁ hfile hout hnul hrelease
  have hsteps := runSteps_confined hcontained hout hfile engine.steps.length 1 w₂ hconfined
  have hunlinked (name : String) (hname : name ∈ artifactNames file out) (target : String) :=
    hsteps.unlinked (dir ++ [name]) target (inside_artifact hname [])
  have hend := release_around_ok hfile hout hnul hsteps.toAround htakes hunlinked
  have hfinal : (engine.work file).final w = _ :=
    (Act.final_bind_of_ok (Reporter.info_eq _ _ w)).trans
      ((Act.final_bind_of_ok hrelease).trans
        ((Act.final_bind_of_ok hmake).trans (Act.final_always.trans (Act.final_of_ok hend))))
  rw [hfinal]
  exact (get?_without _ (fun _ => ne_nil_of_mem_artifactLocs) loc).trans
    (if_pos ⟨loc, hloc, List.prefix_rfl⟩)

theorem deobfuscate_outlasts (htop : ∀ root ∈ engine.sweepRoot? file dir w, top <+: root) :
    Outlasts top engine.settings.outputDirName [⟨file, dir⟩] w.disk
      ((engine.deobfuscate file).final w).disk := by
  have hzone : ∀ loc ∈ fileLocs file engine.settings.outputDirName dir, loc ≠ [] :=
    fun _ => ne_nil_of_mem_fileLocs
  obtain ⟨disk', haround, hnew, hend⟩ := deobfuscate_worked hcontained hout hfile hnul
    ⟨surrounds_without hsound hzone, hdir⟩
  have hinside (loc : Loc) : Inside (Spot.zone engine.settings.outputDirName [⟨file, dir⟩]) loc ↔
      Inside (fileLocs file engine.settings.outputDirName dir) loc := by
    simp [Spot.inside_zone_iff]
  have hcourse : Course top engine.settings.outputDirName [] disk'
      ((engine.deobfuscate file).final w).disk := by
    rcases hend with heq | ⟨root, hroot, hswept⟩
    · rw [heq]
      exact .refl haround.sound
    · exact .swept (htop root hroot) hswept
  have hshape (loc : Loc) (hloc : ¬Inside (fileLocs file engine.settings.outputDirName dir) loc) :
      disk'.tree.shape loc = w.disk.tree.shape loc := by
    rw [haround.shape loc hloc, Tree.shape, get?_without_zone hzone, if_neg hloc, Tree.shape]
  constructor
  case sound => exact hcourse.sound
  case shape =>
    intro loc hloc
    rw [← hshape loc (mt (hinside loc).mpr hloc)]
    exact hcourse.shape loc (by simp [Inside])
  case working =>
    intro start hstart huncovered hworking
    exact hcourse.working start (haround.toSurrounds.thinner.workingLoc?
      (workingLoc?_without hworking (mt (hinside start).mpr hstart))) huncovered
  case links =>
    intro loc target hloc hlink
    replace hlink := (Outlasts.of_course hcourse).links loc target (by simp) hlink
    by_cases hartifact : Inside (artifactLocs file engine.settings.outputDirName dir) loc
    · exact hnew loc target hartifact hlink
    · have hoff : ¬Inside (fileLocs file engine.settings.outputDirName dir) loc := by
        rw [inside_fileLocs_iff, not_or]
        exact ⟨hloc ⟨file, dir⟩ List.mem_cons_self, hartifact⟩
      rwa [← Tree.shape_eq_link_iff, ← hshape loc hoff, Tree.shape_eq_link_iff]
  case cleared =>
    intro spot hspot loc hloc
    obtain rfl := List.mem_singleton.mp hspot
    have hgone := work_clears hcontained hout hfile hnul hsound hdir htakes hlinks hloc
    rw [deobfuscate_eq]
    cases hrun : engine.work file w with
    | error fault w' =>
      rw [Act.final_of_error hrun] at hgone
      rwa [Act.final_bind_of_error hrun]
    | ok results w' =>
      rw [Act.final_of_ok hrun] at hgone
      have hsound' : w'.disk.Sound := by
        have hstays := work_around hcontained hout hfile hnul w
          ⟨surrounds_without hsound hzone, hdir⟩
        rw [Act.final_of_ok hrun] at hstays
        exact hstays.1.sound
      rw [Act.final_bind_of_ok hrun]
      rcases (engine.conclude_fades file results w' hsound').2.tree loc with hnone | hsame
      · exact hnone
      · simpa [Tree.shape, hgone] using hsame

end Run

/-! ## What a visit leaves -/

variable {outcomes : List Outcome} {outcome : Outcome} {w' w₁ : World σ}

/-- A file that is judged obfuscated is not noted as clean. -/
theorem ne_clean_of_judge (hjudge : engine.judge file w = .ok true w₁)
    (hvisit : engine.visit outcomes file w = .ok (outcomes ++ [outcome]) w') :
    outcome.status ≠ .clean := by
  have hpresent := present_of_isFile (isFile_of_judge hjudge)
  rw [visit, Act.bind_of_ok (Act.ask_of_ok hpresent)] at hvisit
  obtain ⟨result, w₂, hattempt, hnote⟩ := Act.ok_of_bind hvisit
  cases hrun : engine.processFile file w with
  | ok made w₃ =>
    rw [Act.attempt_of_ok hrun] at hattempt
    cases hattempt
    obtain rfl : made = outcome := by
      have heq := (EStateM.Result.ok.inj hnote).1
      exact List.singleton_inj.mp (List.append_cancel_left heq)
    rw [processFile_eq, Act.bind_of_ok hjudge] at hrun
    obtain ⟨report, w₄, -, hrest⟩ := Act.ok_of_bind hrun
    obtain ⟨_, w₅, -, hend⟩ := Act.ok_of_bind hrest
    cases hend
    simp
  | error fault w₃ =>
    rw [Act.attempt_of_error hrun] at hattempt
    cases hattempt
    have hfailed (hnote : (if fault.endsRun then throw fault else
        engine.reporter.error ("Failed to deobfuscate " ++ file.name ++ ": " ++ fault.message) >>=
          fun _ => pure (outcomes ++ [{ file, status := .failed, error := fault.message }]) :
            Act σ (List Outcome)) w₂ = .ok (outcomes ++ [outcome]) w') :
        outcome.status ≠ .clean := by
      split at hnote
      · cases hnote
      · obtain ⟨_, w₄, -, hend⟩ := Act.ok_of_bind hnote
        have heq := (EStateM.Result.ok.inj hend).1
        rw [← List.singleton_inj.mp (List.append_cancel_left heq)]
        simp
    cases fault <;> first
      | exact hfailed hnote
      | cases hnote

/-- A visit runs the steps over the file, or nothing outlasts it but lines in the log. -/
theorem visit_outlasts (hcontained : engine.Contained)
    (hout : Path.Component engine.settings.outputDirName) (hfile : Path.Ordinary file.name)
    (hnul : file.hasNul = false) (hsound : w.disk.Sound)
    (hway : w.disk.Through (¬Inside (fileLocs file engine.settings.outputDirName dir) ·)
      file.parent dir)
    (htakes : ∀ name ∈ artifactNames file engine.settings.outputDirName, file.parent.Takes name)
    (hlinks : ∀ name ∈ artifactNames file engine.settings.outputDirName, ∀ target,
      w.disk.tree.get? (dir ++ [name]) ≠ some (.link target))
    (htop : ∀ w₁, ∀ root ∈ engine.sweepRoot? file dir w₁, top <+: root) (outcomes : List Outcome) :
    ∃ later, (later = [] ∨ later = [⟨file, dir⟩] ∧ ∃ w₁, engine.judge file w = .ok true w₁) ∧
      Outlasts top engine.settings.outputDirName later w.disk
        ((engine.visit outcomes file).final w).disk := by
  have hnoted {w₁ w₂ : World σ} (hsound : w₁.disk.Sound) (honly : World.OnlyLogs w₁ w₂) :
      Outlasts top engine.settings.outputDirName [] w₁.disk w₂.disk := by
    obtain ⟨lines, hlines⟩ := honly
    rw [hlines]
    exact .of_course (.noted hsound lines)
  let inv : World σ → Prop := fun w' =>
    ∃ later, (later = [] ∨ later = [⟨file, dir⟩] ∧ ∃ w₁, engine.judge file w = .ok true w₁) ∧
      Outlasts top engine.settings.outputDirName later w.disk w'.disk
  have hinv : inv w := ⟨[], .inl rfl, hnoted hsound (refl w)⟩
  change inv ((engine.visit outcomes file).final w)
  refine visit_invariant hcontained.others hsound ?logs ?run outcomes hinv
  case logs =>
    rintro w₁ w₂ honly ⟨later, hlater, houtlasts⟩
    refine ⟨later ++ [], by rwa [List.append_nil],
      houtlasts.trans (hnoted houtlasts.sound honly) ?_⟩
    simp
  case run =>
    intro w₁ hjudge _ _
    have honly := judge_onlyLogs hcontained.others file w
    rw [Act.final_of_ok hjudge] at honly
    have hbefore := hnoted hsound honly
    obtain ⟨lines, hlines⟩ := honly
    have hway₁ : w₁.disk.Through (¬Inside (fileLocs file engine.settings.outputDirName dir) ·)
        file.parent dir := by
      refine hway.mono (fun loc hloc houtside => ⟨?_, houtside⟩) fun start hstart _ => ?_
      · rwa [hlines, ← Tree.shape_eq_directory_iff, shape_noted, Tree.shape_eq_directory_iff]
      · rwa [hlines, workingLoc?_eq_some_iff, (w.disk.noted_places lines).1,
          ← workingLoc?_eq_some_iff]
    have hdir := (hway₁.without (fun _ => ne_nil_of_mem_fileLocs) fun _ => id).found
    have hlinks₁ (name : String) (hname : name ∈ artifactNames file engine.settings.outputDirName)
        (target : String) : w₁.disk.tree.get? (dir ++ [name]) ≠ some (.link target) := fun hlink =>
      hlinks name hname target (hbefore.links _ target (by simp) hlink)
    exact ⟨[⟨file, dir⟩], .inr ⟨rfl, w₁, hjudge⟩, hbefore.trans
      (deobfuscate_outlasts hcontained hout hfile hnul hbefore.sound hdir htakes hlinks₁ (htop w₁))
      (by simp)⟩

end Engine

/-! ## The same question later on -/

section Later

variable {P Q : Loc → Prop} {root : Path} {base loc : Loc} {names : List String} {name : String}
  {disk disk' : Disk} {entry : Entry} {bytes bytes' : Bytes} {access access' : Access}
  {rules : Scan.Rules}

/-- Below a readable path the paths of entries are readable. -/
theorem Disk.Sound.readable_below (hsound : disk.Sound) (hslash : disk.tree.Slashless)
    (hroot : ∀ part ∈ root.parts, part ≠ "" ∧ '/' ∉ part.toList)
    (hheld : disk.tree.get? (base ++ names) = some entry) :
    ∀ part ∈ (root.below names).parts, part ≠ "" ∧ '/' ∉ part.toList := by
  intro part hpart
  rcases List.mem_append.mp hpart with hpart | hpart
  · exact hroot part hpart
  · obtain ⟨init, rest, rfl⟩ := List.append_of_mem hpart
    have hordinary := hsound.ordinary_of_mem hheld part (by simp)
    refine ⟨Path.ordinary_ne_empty hordinary, ?_⟩
    by_cases hrest : rest = []
    · subst hrest
      rw [← List.append_assoc] at hheld
      exact hslash _ _ _ hheld
    · have hdirectory := hsound.directory_of_prefix (p := base ++ init ++ [part])
        (by simp) (by simpa using hrest) hheld
      exact hslash _ _ _ hdirectory

theorem Disk.Ground.readable (hground : disk.Ground base) (hway : disk.Through P root base)
    (hheld : disk.tree.get? (base ++ names) = some entry) :
    ∀ part ∈ (root.below names).parts, part ≠ "" ∧ '/' ∉ part.toList := by
  obtain ⟨start, -, hpasses⟩ := hway.passes
  exact hground.sound.readable_below hground.slashless (hpasses.readable hground.slashless) hheld

/-- A file that is a script is one on every disk on which it is a file, and reached. -/
theorem Scan.isScript_of_held (hway : disk.Through P root base) (hway' : disk'.Through Q root base)
    (hsound : disk.Sound) (hsound' : disk'.Sound)
    (hread : ∀ part ∈ (root.below names).parts, part ≠ "" ∧ '/' ∉ part.toList)
    (hheld : disk.tree.get? (base ++ names) = some (.file bytes access))
    (hheld' : disk'.tree.get? (base ++ names) = some (.file bytes' access'))
    (hscript : isScript rules (root.below names) disk = .ok true) :
    isScript rules (root.below names) disk' = .ok true := by
  obtain ⟨hsuffix, hfile, place, hplace, hother⟩ := isScript_eq_true_iff.mp hscript
  have hadmits := hway.admits_of_isFile hsound hheld hfile
  cases (hway.canonicalPath_file hsound hheld hadmits hread).symm.trans hplace
  exact isScript_eq_true_iff.mpr ⟨hsuffix,
    isFile_eq_true_iff.mpr ⟨_, _, _, hway'.find_file hsound' hheld' hadmits⟩, _,
    hway'.canonicalPath_file hsound' hheld' hadmits hread, hother⟩

theorem Scan.Enters.append {tree : Tree} {way : List String} (hway : Enters rules tree loc way)
    {more : List String} (hmore : Enters rules tree (loc ++ way) more) :
    Enters rules tree loc (way ++ more) := by
  induction hway with
  | stay => simpa using hmore
  | down hheld hentered _ ih => exact .down hheld hentered (ih (by simpa using hmore))

theorem Scan.Enters.not_mem {tree : Tree} {way : List String} (hway : Enters rules tree loc way) :
    ∀ name ∈ way, name ∉ rules.skipped := by
  induction hway with
  | stay => simp
  | down _ hentered _ ih => exact List.forall_mem_cons.mpr ⟨hentered, ih⟩

/-- What a scan enters does not lie below a name that it skips. -/
theorem Scan.Enters.not_covered {tree : Tree} {way : List String} {top : Loc}
    (hway : Enters rules tree base way) (hskipped : name ∈ rules.skipped)
    (hbase : ¬Covered top name base) : ¬Covered top name (base ++ way) := by
  have hnames := hway.not_mem
  clear hway
  induction way using List.reverseRecOn with
  | nil => rwa [List.append_nil]
  | append_singleton init last ih =>
    rw [← List.append_assoc]
    refine not_covered_child (ih fun name hname => hnames name (List.mem_append_left _ hname)) ?_
    rintro rfl
    exact hnames _ (by simp) hskipped

theorem Scan.Comes.after {tree : Tree} {way : List String} (hway : Enters rules tree loc way)
    (hcomes : Comes rules tree (loc ++ way) names) : Comes rules tree loc (way ++ names) := by
  obtain ⟨more, name, held, rfl, hmore, hheld, hother⟩ := hcomes
  exact ⟨way ++ more, name, held, (List.append_assoc _ _ _).symm, hway.append hmore,
    by simpa using hheld, hother⟩

end Later

/-! ## On the way through a directory -/

namespace Engine

variable {engine : Engine σ} {start : Disk} {root : Path} {base loc : Loc} {counted : List Path}
  {sent later : List Spot} {way names : List String} {name : String} {disk : Disk}

/-- Above which directories are swept while a directory is gone through. -/
def sweepTop (engine : Engine σ) (base : Loc) : Loc :=
  match engine.settings.cleanupScope with
  | .file => base
  | .workingDirectory => []

/-- The location lies neither below the directory at `base` nor in anything that is swept. -/
def Spares (engine : Engine σ) (base loc : Loc) : Prop :=
  (base <+: loc → loc = base) ∧
    (engine.settings.cleanupScope = .workingDirectory → engine.settings.outputDirName ∉ loc)

/-- The scripts below a directory have been counted.  The way to the directory does not lead
through what lies in it, nor through what is swept; no link lies below it; and the artifacts of the
scripts have paths that the system takes, and none of the scripts has the name of the staging
directory. -/
structure Surveys (engine : Engine σ) (disk : Disk) (root : Path) (base : Loc)
    (counted : List Path) : Prop where
  ground : disk.Ground base
  way : disk.Through (engine.Spares base) root base
  scripts : Scan.scripts engine.rules disk root = .ok counted
  takes : ∀ file ∈ counted, ∀ name ∈ artifactNames file engine.settings.outputDirName,
    file.parent.Takes name
  other : ∀ file ∈ counted, file.name ≠ engine.settings.outputDirName

/-- Some of the files that lay below the directory at the start have been sent to the steps. -/
structure Sends (engine : Engine σ) (start : Disk) (root : Path) (base : Loc) (sent : List Spot)
    (disk : Disk) : Prop where
  outlasts : Outlasts (engine.sweepTop base) engine.settings.outputDirName sent start disk
  spots : ∀ spot ∈ sent, ∃ way name bytes access,
    spot = ⟨(root.below way).child name, base ++ way⟩ ∧ name ≠ engine.settings.outputDirName ∧
    start.tree.get? (base ++ way ++ [name]) = some (.file bytes access)

theorem mem_fileLocs_concat {file : Path} {dir : Loc} {out : String}
    (hloc : loc ∈ fileLocs file out dir) : ∃ last, loc = dir ++ [last] := by
  rcases List.mem_cons.mp hloc with rfl | hartifact
  · exact ⟨_, rfl⟩
  · obtain ⟨artifact, -, rfl⟩ := List.mem_map.mp hartifact
    exact ⟨artifact, rfl⟩

/-- A run over a file works further down than the file's directory. -/
theorem not_inside_fileLocs {file : Path} {dir : Loc} {out : String}
    (hlength : loc.length ≤ dir.length) : ¬Inside (fileLocs file out dir) loc := by
  rintro ⟨z, hz, hpre⟩
  obtain ⟨last, rfl⟩ := mem_fileLocs_concat hz
  have hbelow := hpre.length_le
  simp only [List.length_append, List.length_singleton] at hbelow
  omega

/-- No sweep starts further up. -/
theorem sweepTop_above {place : Loc} (hplace : place ∈ engine.sweepTop? disk (base ++ way)) :
    engine.sweepTop base <+: place := by
  unfold sweepTop? at hplace
  unfold sweepTop
  cases hscope : engine.settings.cleanupScope with
  | file =>
    rw [hscope] at hplace
    cases hplace
    exact List.prefix_append _ _
  | workingDirectory => exact List.nil_prefix

theorem sweepTop_prefix {file : Path} {w : World σ} {place : Loc}
    (hplace : place ∈ engine.sweepRoot? file (base ++ way) w) : engine.sweepTop base <+: place := by
  rw [Option.mem_def, sweepRoot?] at hplace
  split at hplace
  · cases hplace
  · exact sweepTop_above hplace

theorem Spares.not_covered (hspares : engine.Spares base loc) :
    ¬Covered (engine.sweepTop base) engine.settings.outputDirName loc := by
  rintro ⟨hpre, hmem⟩
  unfold sweepTop at hpre hmem
  cases hscope : engine.settings.cleanupScope with
  | file =>
    simp only [hscope] at hpre hmem
    rw [hspares.1 hpre] at hmem
    simp at hmem
  | workingDirectory =>
    simp only [hscope] at hmem
    exact hspares.2 hscope (by simpa using hmem)

theorem Spares.outside (hspares : engine.Spares base loc) (file : Path) (way : Loc) (out : String) :
    ¬Inside (fileLocs file out (base ++ way)) loc := by
  intro hinside
  have hbelow : base <+: loc := by
    obtain ⟨z, hz, hpre⟩ := hinside
    obtain ⟨last, rfl⟩ := mem_fileLocs_concat hz
    exact ((List.prefix_append _ _).trans (List.prefix_append _ _)).trans hpre
  rw [hspares.1 hbelow] at hinside
  exact not_inside_fileLocs (by simp) hinside

section Survey

variable (hsurvey : engine.Surveys start root base counted)

include hsurvey

/-- What a scan enters is not swept. -/
theorem Surveys.not_covered (hway : Scan.Enters engine.rules start.tree base way) :
    ¬Covered (engine.sweepTop base) engine.settings.outputDirName (base ++ way) := by
  obtain ⟨_, -, hpasses⟩ := hsurvey.way.passes
  exact hway.not_covered engine.settings.outputDirName_mem_skipped hpasses.goal_holds.not_covered

theorem Surveys.directory (hway : Scan.Enters engine.rules start.tree base way) :
    start.tree.get? (base ++ way) = some .directory :=
  hway.directory (find_fits hsurvey.way.found)

/-- A script that is met has been counted. -/
theorem Surveys.mem_counted (hway : Scan.Enters engine.rules start.tree base way)
    (hcomes : Scan.Comes engine.rules start.tree (base ++ way) names)
    (hscript : Scan.isScript engine.rules (root.below (way ++ names)) start = .ok true) :
    root.below (way ++ names) ∈ counted := by
  have hinventory :=
    Scan.Inventory.of_scripts hsurvey.ground.sound hsurvey.way.found hsurvey.scripts
  exact (hinventory.mem_iff _).mpr ⟨_, hcomes.after hway, rfl, hscript⟩

end Survey

/-- What has come to lie in the zone of the runs, next to what has not, is one of their files or
artifacts. -/
theorem mem_fileLocs_of_inside
    (houtside : ¬Inside (Spot.zone engine.settings.outputDirName sent) loc)
    (hinside : Inside (Spot.zone engine.settings.outputDirName sent) (loc ++ [name])) :
    ∃ spot ∈ sent, spot.loc = loc ++ [name] ∨
      loc ++ [name] ∈ artifactLocs spot.file engine.settings.outputDirName spot.dir := by
  obtain ⟨spot, hspot, z, hz, hpre⟩ := Spot.inside_zone_iff.mp hinside
  rcases List.prefix_concat_iff.mp hpre with rfl | habove
  · exact ⟨spot, hspot, (List.mem_cons.mp hz).imp Eq.symm id⟩
  · exact absurd (Spot.inside_zone_iff.mpr ⟨spot, hspot, z, hz, habove⟩) houtside

section Sends

variable (hsurvey : engine.Surveys start root base counted)
  (hsends : engine.Sends start root base sent disk)

include hsends

theorem Sends.spares (hspares : engine.Spares base loc) :
    ¬Inside (Spot.zone engine.settings.outputDirName sent) loc := by
  intro hinside
  obtain ⟨spot, hspot, hinside⟩ := Spot.inside_zone_iff.mp hinside
  obtain ⟨way, name, _, _, rfl, -, -⟩ := hsends.spots spot hspot
  exact hspares.outside _ way _ hinside

include hsurvey

theorem Sends.through : disk.Through (engine.Spares base) root base := by
  refine hsurvey.way.mono (fun loc hloc hspares => ⟨?_, hspares⟩) fun start hstart hspares =>
    hsends.outlasts.working start (hsends.spares hspares) hspares.not_covered hstart
  rcases hsends.outlasts.shape loc (hsends.spares hspares) with hsame | ⟨hcovered, -⟩
  · rwa [← Tree.shape_eq_directory_iff, hsame, Tree.shape_eq_directory_iff]
  · exact absurd hcovered hspares.not_covered

theorem Sends.not_link {target : String} (hbelow : base <+: loc)
    (hoff : ∀ spot ∈ sent, ¬spot.loc <+: loc) : disk.tree.get? loc ≠ some (.link target) :=
  fun hlink =>
    hsurvey.ground.linkless loc target hbelow (hsends.outlasts.links loc target hoff hlink)

section Directory

variable (hway : Scan.Enters engine.rules start.tree base way)
  (houtside : ¬Inside (Spot.zone engine.settings.outputDirName sent) (base ++ way))

include hway houtside

theorem Sends.directory : disk.tree.get? (base ++ way) = some .directory := by
  rcases hsends.outlasts.shape _ houtside with hsame | ⟨hcovered, -⟩
  · rw [← Tree.shape_eq_directory_iff, hsame, Tree.shape_eq_directory_iff]
    exact hsurvey.directory hway
  · exact absurd hcovered (hsurvey.not_covered hway)

/-- A directory that is listed is one whose path the system takes. -/
theorem Sends.listed {entries : List (String × Kind)}
    (hlist : disk.list (root.below way) = .ok entries) :
    root.Admits way ∧
      disk.find .followed (root.below way) = .ok (.present (base ++ way) .directory) ∧
      entries = disk.tree.listing (base ++ way) := by
  have hroot := (hsends.through hsurvey).found
  have hdirectory := hsends.directory hsurvey hway houtside
  have hsound := hsends.outlasts.sound
  obtain ⟨place, hplace⟩ : ∃ place,
      disk.find .followed (root.below way) = .ok (.present place .directory) := by
    refine (Scan.cases_of_list hlist).resolve_right fun hremoved => ?_
    rcases List.eq_nil_or_concat' way with rfl | ⟨init, last, rfl⟩
    · rw [Path.below_nil, hroot] at hremoved
      cases hremoved
    · rw [← Path.child_below] at hremoved
      exact find_child_ne_removed (hsound.ordinary_of_mem hdirectory last (by simp)) hremoved
  obtain ⟨rfl, hadmits⟩ := spells_of_unlinked hroot
    (fun name hname => hsound.ordinary_of_mem hdirectory name (List.mem_append_right _ hname))
    (hsound.unlinked_of_held hdirectory (by simp)) hplace
  refine ⟨hadmits, hplace, ?_⟩
  rw [list, hplace] at hlist
  exact (Except.ok.inj hlist).symm

variable (hadmits : root.Admits way)

include hadmits

/-- The way to a directory does not lead through what lies in it. -/
theorem Sends.through_file (file : Path) : disk.Through
    (¬Inside (fileLocs file engine.settings.outputDirName (base ++ way)) ·) (root.below way)
    (base ++ way) := by
  have hroot := hsends.through hsurvey
  exact Through.below
    (hroot.mono (fun loc hloc hspares => ⟨hloc, hspares.outside _ way _⟩) fun _ hstart _ => hstart)
    hsends.outlasts.sound (hsends.directory hsurvey hway houtside) hadmits fun front hfront =>
      not_inside_fileLocs (by simpa using hfront.length_le)

end Directory

end Sends

end Engine

/-! ## From entry to entry -/

theorem le_append (text ending : String) : text ≤ text ++ ending := by
  refine not_lt.mp fun hlt => ?_
  rw [String.lt_iff_toList_lt, String.toList_append] at hlt
  exact List.le_append_left hlt

/-- What a path next to a directory leads to lies in it, if that is no link. -/
theorem Disk.held_of_find_child {disk : Disk} {dir : Path} {loc place : Loc} {name : String}
    {entry : Entry} (hdir : disk.find .followed dir = .ok (.present loc .directory))
    (hname : Path.Ordinary name)
    (hlink : ∀ target, disk.tree.get? (loc ++ [name]) ≠ some (.link target))
    (hfind : disk.find .followed (dir.child name) = .ok (.present place entry)) :
    disk.tree.get? (loc ++ [name]) = some entry := by
  have hitself : disk.find .itself (dir.child name) = .ok (.present place entry) := by
    rcases disk.find_followed (dir.child name) with ⟨q, text, hother⟩ | hsame
    · obtain ⟨p, hp, -, ⟨h, -⟩ | ⟨_, h, hheld⟩⟩ := reached_of_find_child hname hother <;> cases h
      cases hdir.symm.trans hp
      exact absurd hheld (hlink text)
    · rwa [← hsame]
  obtain ⟨p, hp, -, ⟨h, -⟩ | ⟨_, h, hheld⟩⟩ := reached_of_find_child hname hitself <;> cases h
  cases hdir.symm.trans hp
  exact hheld

namespace Engine

variable {engine : Engine σ} {start disk disk' : Disk} {root : Path} {base loc : Loc}
  {counted : List Path} {sent first later : List Spot} {more more' : List Outcome}
  {items items' : List String → Prop} {way : List String} {name : String}

/-- A part of a walk, over what a scan of the disk at the start comes to by these names below the
directory. -/
structure Leg (engine : Engine σ) (start : Disk) (root : Path) (base loc : Loc)
    (items : List String → Prop) (sent later : List Spot) (more : List Outcome) (disk : Disk) :
    Prop where
  sends : engine.Sends start root base (sent ++ later) disk
  below : ∀ spot ∈ later, loc <+: spot.loc
  noted : ∀ spot ∈ later, ∃ outcome ∈ more, outcome.file = spot.file ∧ outcome.status ≠ .clean
  met : ∀ outcome ∈ more, ∃ names, items names ∧ outcome.file = root.below names ∧
    Scan.isScript engine.rules outcome.file start = .ok true
  missed : ∀ names, items names → Scan.isScript engine.rules (root.below names) start = .ok true →
    root.below names ∈ more.map Outcome.file ∨ ∃ spot ∈ sent ++ later,
      base ++ names ∈ artifactLocs spot.file engine.settings.outputDirName spot.dir

namespace Leg

theorem idle (hsends : engine.Sends start root base sent disk)
    (hmissed : ∀ names, items names →
      Scan.isScript engine.rules (root.below names) start = .ok true → ∃ spot ∈ sent,
        base ++ names ∈ artifactLocs spot.file engine.settings.outputDirName spot.dir) :
    engine.Leg start root base loc items sent [] [] disk where
  sends := by rwa [List.append_nil]
  below := by simp
  noted := by simp
  met := by simp
  missed names hnames hscript := .inr (by simpa using hmissed names hnames hscript)

theorem append (hfirst : engine.Leg start root base loc items sent first more disk)
    (hsecond : engine.Leg start root base loc items' (sent ++ first) later more' disk') :
    engine.Leg start root base loc (fun names => items names ∨ items' names) sent (first ++ later)
      (more ++ more') disk' where
  sends := by
    rw [← List.append_assoc]
    exact hsecond.sends
  below spot hspot := (List.mem_append.mp hspot).elim (hfirst.below spot) (hsecond.below spot)
  noted spot hspot := by
    rcases List.mem_append.mp hspot with hspot | hspot
    · obtain ⟨outcome, houtcome, hnoted⟩ := hfirst.noted spot hspot
      exact ⟨outcome, List.mem_append_left _ houtcome, hnoted⟩
    · obtain ⟨outcome, houtcome, hnoted⟩ := hsecond.noted spot hspot
      exact ⟨outcome, List.mem_append_right _ houtcome, hnoted⟩
  met outcome houtcome := by
    rcases List.mem_append.mp houtcome with houtcome | houtcome
    · obtain ⟨names, hnames, hmet⟩ := hfirst.met outcome houtcome
      exact ⟨names, .inl hnames, hmet⟩
    · obtain ⟨names, hnames, hmet⟩ := hsecond.met outcome houtcome
      exact ⟨names, .inr hnames, hmet⟩
  missed names hnames hscript := by
    rw [List.map_append, ← List.append_assoc]
    rcases hnames with hnames | hnames
    · rcases hfirst.missed names hnames hscript with hmet | ⟨spot, hspot, hartifact⟩
      · exact .inl (List.mem_append_left _ hmet)
      · exact .inr ⟨spot, List.mem_append_left _ hspot, hartifact⟩
    · exact (hsecond.missed names hnames hscript).imp_left (List.mem_append_right _)

/-- The same part, where other names stand for the same. -/
theorem mono {loc' : Loc} (hleg : engine.Leg start root base loc items sent later more disk)
    (hloc : loc' <+: loc) (hitems : ∀ names, items names → items' names)
    (hmissed : ∀ names, items' names → ¬items names →
      Scan.isScript engine.rules (root.below names) start ≠ .ok true) :
    engine.Leg start root base loc' items' sent later more disk where
  sends := hleg.sends
  below spot hspot := hloc.trans (hleg.below spot hspot)
  noted := hleg.noted
  met outcome houtcome := by
    obtain ⟨names, hnames, hmet⟩ := hleg.met outcome houtcome
    exact ⟨names, hitems names hnames, hmet⟩
  missed names hnames hscript := by
    by_cases hitem : items names
    · exact hleg.missed names hitem hscript
    · exact absurd hscript (hmissed names hnames hitem)

end Leg

section File

variable {bytes : Bytes} {access : Access} (hsurvey : engine.Surveys start root base counted)
  (hway : Scan.Enters engine.rules start.tree base way)
  (hheld : start.tree.get? (base ++ way ++ [name]) = some (.file bytes access))

section Start

variable (hscript : Scan.isScript engine.rules ((root.below way).child name) start = .ok true)

include hsurvey hway hheld hscript

/-- A script of a directory has been counted. -/
theorem Surveys.child_mem_counted : (root.below way).child name ∈ counted := by
  have hcomes : Scan.Comes engine.rules start.tree (base ++ way) [name] :=
    Scan.comes_cons_iff.mpr (.inl ⟨rfl, _, hheld, by simp⟩)
  rw [Path.child_below] at hscript ⊢
  exact hsurvey.mem_counted hway hcomes hscript

theorem Surveys.child_ne_outputDirName : name ≠ engine.settings.outputDirName := by
  have hother := hsurvey.other _ (hsurvey.child_mem_counted hway hheld hscript)
  rwa [Path.name_child] at hother

end Start

variable (hsends : engine.Sends start root base sent disk)

include hsurvey hsends

/-- No link has come to lie next to the files of a directory that have not been sent. -/
theorem Sends.child_ne_link
    (houtside : ¬Inside (Spot.zone engine.settings.outputDirName sent) (base ++ way))
    (hnew : ∀ spot ∈ sent, spot.loc ≠ base ++ way ++ [name]) (target : String) :
    disk.tree.get? (base ++ way ++ [name]) ≠ some (.link target) := by
  refine hsends.not_link hsurvey (by simp) fun spot hspot hpre => ?_
  rcases List.prefix_concat_iff.mp hpre with heq | habove
  · exact hnew spot hspot heq
  · exact houtside (Spot.inside_zone_iff.mpr ⟨spot, hspot, _, List.mem_cons_self, habove⟩)

include hheld

/-- A file that is met does not lie where, or above where, artifacts have been removed. -/
theorem Sends.not_above_artifact {entry : Entry}
    (hthere : disk.tree.get? (base ++ way ++ [name]) = some entry) {spot : Spot}
    (hspot : spot ∈ sent) {loc : Loc}
    (hloc : loc ∈ artifactLocs spot.file engine.settings.outputDirName spot.dir) :
    ¬base ++ way ++ [name] <+: loc := by
  intro hpre
  have hgone := hsends.outlasts.cleared spot hspot loc hloc
  obtain ⟨way', name', _, _, rfl, -, hfile⟩ := hsends.spots spot hspot
  obtain ⟨last, -, rfl⟩ := List.mem_map.mp hloc
  rcases List.prefix_concat_iff.mp hpre with heq | habove
  · rw [← heq, hthere] at hgone
    cases hgone
  · -- a file at the start is not above the directory of another one
    have hdirectory := hsurvey.ground.sound.closed hfile
    by_cases heq : base ++ way ++ [name] = base ++ way'
    · rw [← heq, hheld] at hdirectory
      cases hdirectory
    · have habove := hsurvey.ground.sound.directory_of_prefix habove heq hdirectory
      rw [hheld] at habove
      cases habove

include hway

/-- A script that is none any more was an artifact of a file that has been sent. -/
theorem Sends.artifact_of_no_script
    (houtside : ¬Inside (Spot.zone engine.settings.outputDirName sent) (base ++ way))
    (hnew : ∀ spot ∈ sent, spot.loc ≠ base ++ way ++ [name])
    (hscript : Scan.isScript engine.rules ((root.below way).child name) start = .ok true)
    (hnone : Scan.isScript engine.rules ((root.below way).child name) disk = .ok false) :
    ∃ spot ∈ sent, base ++ way ++ [name] ∈
      artifactLocs spot.file engine.settings.outputDirName spot.dir := by
  by_contra hartifact
  have hinside :
      ¬Inside (Spot.zone engine.settings.outputDirName sent) (base ++ way ++ [name]) := by
    intro hinside
    obtain ⟨spot, hspot, heq | hmem⟩ := mem_fileLocs_of_inside houtside hinside
    · exact hnew spot hspot heq
    · exact hartifact ⟨spot, hspot, hmem⟩
  rcases hsends.outlasts.shape _ hinside with hsame | ⟨hcovered, -⟩
  · obtain ⟨held, hthere, hbare⟩ := get?_of_shape hsame hheld
    cases held with
    | directory => cases hbare
    | link target => cases hbare
    | file bytes' access' =>
      rw [List.append_assoc] at hheld hthere
      rw [Path.child_below] at hscript hnone
      have hstill := Scan.isScript_of_held hsurvey.way (hsends.through hsurvey)
        hsurvey.ground.sound hsends.outlasts.sound (hsurvey.ground.readable hsurvey.way hheld)
        hheld hthere hscript
      cases hstill.symm.trans hnone
  · exact not_covered_child (hsurvey.not_covered hway)
      (hsurvey.child_ne_outputDirName hway hheld hscript) hcovered

end File

section Walk

variable {w w' : World σ} {outcomes outcomes' : List Outcome} {depth : Nat} {kind : Kind}
  {bytes : Bytes} {access : Access}
  (hcontained : engine.Contained) (hout : Path.Component engine.settings.outputDirName)
  (hsurvey : engine.Surveys start root base counted)
  (hway : Scan.Enters engine.rules start.tree base way)
  (hsends : engine.Sends start root base sent w.disk)
  (houtside : ¬Inside (Spot.zone engine.settings.outputDirName sent) (base ++ way))
  (hadmits : root.Admits way)
  (hheld : start.tree.get? (base ++ way ++ [name]) = some (.file bytes access))
  (hnew : ∀ spot ∈ sent, ∀ next, name ≤ next → ¬base ++ way ++ [next] <+: spot.loc)

include hcontained hout hsurvey hway hsends houtside hadmits hheld hnew

/-- A script that is met is visited. -/
theorem leg_of_script
    (hscript : Scan.isScript engine.rules ((root.below way).child name) w.disk = .ok true)
    (hvisit : engine.visit outcomes ((root.below way).child name) w = .ok outcomes' w') :
    ∃ more later, outcomes' = outcomes ++ more ∧
      engine.Leg start root base (base ++ way ++ [name]) (· = way ++ [name]) sent later more
        w'.disk := by
  have hname := hsurvey.ground.sound.named hheld
  have hsound := hsends.outlasts.sound
  have hlater (next : String) (hle : name ≤ next) (spot : Spot) (hspot : spot ∈ sent) :
      spot.loc ≠ base ++ way ++ [next] := fun heq =>
    hnew spot hspot next hle (heq ▸ List.prefix_rfl)
  have hway' := hsends.through_file hsurvey hway houtside hadmits ((root.below way).child name)
  obtain ⟨place, bytes', access', hfind⟩ :=
    isFile_eq_true_iff.mp (Scan.isFile_of_isScript hscript)
  have hthere := held_of_find_child hway'.found hname
    (hsends.child_ne_link hsurvey houtside (hlater name le_rfl)) hfind
  have hstart : Scan.isScript engine.rules ((root.below way).child name) start = .ok true := by
    rw [List.append_assoc] at hheld hthere
    rw [Path.child_below] at hscript ⊢
    exact Scan.isScript_of_held (hsends.through hsurvey) hsurvey.way hsound
      hsurvey.ground.sound (hsurvey.ground.readable hsurvey.way hheld) hthere hheld hscript
  have hmem := hsurvey.child_mem_counted hway hheld hstart
  have hlast : ((root.below way).child name).name = name := Path.name_child _ _
  have hlinks (next : String) (hartifact : next ∈ artifactNames ((root.below way).child name)
      engine.settings.outputDirName) (target : String) :
      w.disk.tree.get? (base ++ way ++ [next]) ≠ some (.link target) := by
    refine hsends.child_ne_link hsurvey houtside (fun spot hspot => ?_) target
    rw [artifactNames, hlast] at hartifact
    rcases List.mem_cons.mp hartifact with rfl | hending
    · obtain ⟨way', name', _, _, rfl, hother, -⟩ := hsends.spots spot hspot
      rw [Spot.loc, Path.name_child]
      exact fun heq => hother (List.singleton_inj.mp (List.append_inj' heq rfl).2)
    · refine hlater next ?_ spot hspot
      simp only [List.mem_cons, List.not_mem_nil, or_false] at hending
      rcases hending with rfl | rfl <;> exact le_append _ _
  obtain ⟨later, hsent, houtlasts⟩ := visit_outlasts hcontained hout (hlast.symm ▸ hname)
    (nameable_of_find hfind).1 hsound (Path.parent_child _ _ ▸ hway') (hsurvey.takes _ hmem)
    hlinks (fun w₁ place => sweepTop_prefix) outcomes
  rw [Act.final_of_ok hvisit] at houtlasts
  obtain ⟨outcome, hfile, rfl⟩ := outcome_of_visit hscript hvisit
  have hspot (spot : Spot) (hspot : spot ∈ later) :
      spot = ⟨(root.below way).child name, base ++ way⟩ := by
    rcases hsent with rfl | ⟨rfl, -⟩
    · cases hspot
    · exact List.mem_singleton.mp hspot
  refine ⟨[outcome], later, rfl, ⟨hsends.outlasts.trans houtlasts ?apart, ?spots⟩, ?below, ?noted,
    ?met, ?missed⟩
  case apart =>
    intro spot hnewer earlier hearlier artifact hartifact
    rw [hspot spot hnewer, Spot.loc, hlast]
    exact hsends.not_above_artifact hsurvey hheld hthere hearlier hartifact
  case spots =>
    intro spot hmember
    rcases List.mem_append.mp hmember with hmember | hmember
    · exact hsends.spots spot hmember
    · exact ⟨way, name, bytes, access, hspot spot hmember,
        hsurvey.child_ne_outputDirName hway hheld hstart, hheld⟩
  case below =>
    intro spot hmember
    rw [hspot spot hmember, Spot.loc, hlast]
  case noted =>
    intro spot hmember
    rcases hsent with rfl | ⟨-, w₂, hjudge⟩
    · cases hmember
    · refine ⟨outcome, List.mem_singleton_self _, ?_, ne_clean_of_judge hjudge hvisit⟩
      rw [hspot spot hmember, hfile]
  case met =>
    intro other hmember
    obtain rfl := List.mem_singleton.mp hmember
    exact ⟨_, rfl, by rw [hfile, Path.child_below], by rwa [hfile]⟩
  case missed =>
    rintro _ rfl -
    exact .inl (by simp [hfile, Path.child_below])

/-- A file of a directory is visited if it is a script.  If it is one no more, it was an artifact of
a file before it. -/
theorem leg_of_file (hkind : kind ≠ .directory)
    (hrun : Scan.entryM Act.look engine.rules engine.visit depth (root.below way) outcomes
      (name, kind) w = .ok outcomes' w') :
    ∃ more later, outcomes' = outcomes ++ more ∧
      engine.Leg start root base (base ++ way ++ [name]) (· = way ++ [name]) sent later more
        w'.disk := by
  rw [Scan.entryM, if_neg hkind] at hrun
  obtain ⟨script, w₁, hlook, hnext⟩ := Act.ok_of_bind hrun
  obtain ⟨hscript, rfl⟩ := Act.ok_of_look hlook
  cases script with
  | false =>
    cases hnext
    refine ⟨[], [], (List.append_nil _).symm, .idle hsends ?_⟩
    rintro _ rfl hstart
    rw [← Path.child_below] at hstart
    rw [← List.append_assoc]
    refine hsends.artifact_of_no_script hsurvey hway hheld houtside (fun spot hspot heq => ?_)
      hstart hscript
    exact hnew spot hspot name le_rfl (heq ▸ List.prefix_rfl)
  | true =>
    rw [if_pos rfl] at hnext
    exact leg_of_script hcontained hout hsurvey hway hsends houtside hadmits hheld hnew hscript
      hnext

end Walk

/-- Whatever has been processed before, a walk down to `depth` accounts for the scripts that lie
below a directory at the start. -/
def AccountsBelow (engine : Engine σ) (start : Disk) (root : Path) (base : Loc) (depth : Nat) :
    Prop :=
  ∀ way sent outcomes outcomes' (w w' : World σ), Scan.Enters engine.rules start.tree base way →
    engine.Sends start root base sent w.disk →
    ¬Inside (Spot.zone engine.settings.outputDirName sent) (base ++ way) →
    (∀ spot ∈ sent, ¬base ++ way <+: spot.loc) →
    Scan.foldM Act.look engine.rules engine.visit depth (root.below way) outcomes w =
      .ok outcomes' w' →
    ∃ more later, outcomes' = outcomes ++ more ∧ engine.Leg start root base (base ++ way)
      (fun names => ∃ rest, names = way ++ rest ∧
        Scan.Comes engine.rules start.tree (base ++ way) rest) sent later more w'.disk

section Walk

variable {w w' : World σ} {outcomes outcomes' : List Outcome} {depth : Nat} {entry : String × Kind}
  {entries : List (String × Kind)} {held : Entry}
  (hcontained : engine.Contained) (hout : Path.Component engine.settings.outputDirName)
  (hsurvey : engine.Surveys start root base counted)
  (hway : Scan.Enters engine.rules start.tree base way)

include hsurvey hway

/-- A directory that a walk goes down to has not been cleared away. -/
theorem Sends.outside_of_walk (hsends : engine.Sends start root base sent w.disk)
    (houtside : ¬Inside (Spot.zone engine.settings.outputDirName sent) (base ++ way))
    (hadmits : root.Admits way)
    (hheld : start.tree.get? (base ++ way ++ [name]) = some .directory)
    (hnew : ∀ spot ∈ sent, ¬base ++ way ++ [name] <+: spot.loc)
    (hrun : Scan.foldM Act.look engine.rules engine.visit depth ((root.below way).child name)
      outcomes w = .ok outcomes' w') :
    ¬Inside (Spot.zone engine.settings.outputDirName sent) (base ++ way ++ [name]) := by
  intro hinside
  have hname := hsurvey.ground.sound.named hheld
  have hdir := (hsends.through_file hsurvey hway houtside hadmits root).found
  obtain ⟨spot, hspot, heq | hartifact⟩ := mem_fileLocs_of_inside houtside hinside
  · exact hnew spot hspot (heq ▸ List.prefix_rfl)
  · have hgone := hsends.outlasts.cleared spot hspot _ hartifact
    cases depth with
    | zero =>
      rw [Scan.foldM] at hrun
      cases (Act.ok_of_look hrun).1
    | succ depth =>
      rw [Scan.foldM_succ] at hrun
      obtain ⟨entries, _, hlook, -⟩ := Act.ok_of_bind hrun
      have hlist := Scan.list_of_query (Act.ok_of_look hlook).1
      rcases Scan.cases_of_list hlist with ⟨place, hplace⟩ | hremoved
      · have hthere := held_of_find_child hdir hname (fun target => by rw [hgone]; simp) hplace
        rw [hgone] at hthere
        cases hthere
      · exact find_child_ne_removed hname hremoved

include hcontained hout

/-- What an entry of a directory stands for is accounted for. -/
theorem leg_of_entry (hdeeper : engine.AccountsBelow start root base depth)
    (hsends : engine.Sends start root base sent w.disk)
    (houtside : ¬Inside (Spot.zone engine.settings.outputDirName sent) (base ++ way))
    (hadmits : root.Admits way)
    (hheld : start.tree.get? (base ++ way ++ [entry.1]) = some held) (hkind : entry.2 = held.kind)
    (hnew : ∀ spot ∈ sent, ∀ next, entry.1 ≤ next → ¬base ++ way ++ [next] <+: spot.loc)
    (hrun : Scan.entryM Act.look engine.rules engine.visit depth (root.below way) outcomes entry w =
      .ok outcomes' w') :
    ∃ more later, outcomes' = outcomes ++ more ∧
      engine.Leg start root base (base ++ way ++ [entry.1])
        (fun names => ∃ rest, names = way ++ rest ∧
          Scan.ComesBy engine.rules start.tree (base ++ way) [entry] rest)
        sent later more w'.disk := by
  cases held with
  | link target => exact absurd hheld (hsurvey.ground.linkless _ _ (by simp))
  | file bytes access =>
    have hother : entry.2 ≠ .directory := by simp [hkind, Entry.kind]
    obtain ⟨more, later, hmore, hleg⟩ := leg_of_file hcontained hout hsurvey hway hsends
      houtside hadmits hheld hnew hother hrun
    have hitems (names : List String) : names = way ++ [entry.1] ↔ ∃ rest, names = way ++ rest ∧
        Scan.ComesBy engine.rules start.tree (base ++ way) [entry] rest := by
      simp [Scan.comesBy_other_iff hheld]
    exact ⟨more, later, hmore, hleg.mono List.prefix_rfl (fun names => (hitems names).mp)
      fun names hnames hnot => absurd ((hitems names).mpr hnames) hnot⟩
  | directory =>
    have hdirectory : entry.2 = .directory := hkind
    rw [Scan.entryM, if_pos hdirectory] at hrun
    split at hrun
    · next hskipped =>
      cases hrun
      refine ⟨[], [], (List.append_nil _).symm, .idle hsends ?_⟩
      rintro _ ⟨rest, -, hcomes⟩
      obtain ⟨_, -, hentered, -⟩ := (Scan.comesBy_directory_iff hheld).mp hcomes
      exact absurd hskipped hentered
    · next hentered =>
      have hnew' (spot : Spot) (hspot : spot ∈ sent) := hnew spot hspot entry.1 le_rfl
      have houtside' := hsends.outside_of_walk hsurvey hway houtside hadmits hheld hnew' hrun
      rw [Path.child_below] at hrun
      have hdown : Scan.Enters engine.rules start.tree base (way ++ [entry.1]) :=
        hway.append (.down hheld hentered (.stay _))
      rw [List.append_assoc] at houtside' hnew'
      obtain ⟨more, later, hmore, hleg⟩ := hdeeper _ sent _ _ w w' hdown hsends houtside' hnew' hrun
      refine ⟨more, later, hmore, hleg.mono (by simp) ?_ ?_⟩
      · rintro _ ⟨rest, rfl, hcomes⟩
        refine ⟨entry.1 :: rest, by simp, (Scan.comesBy_directory_iff hheld).mpr
          ⟨rest, rfl, hentered, by rwa [List.append_assoc]⟩⟩
      · rintro _ ⟨_, rfl, hcomes⟩ hnot
        obtain ⟨rest, rfl, -, hrest⟩ := (Scan.comesBy_directory_iff hheld).mp hcomes
        exact absurd ⟨rest, by simp, by rwa [← List.append_assoc]⟩ hnot

/-- The entries of a listing are gone through one after the other. -/
theorem leg_of_entries (hdeeper : engine.AccountsBelow start root base depth)
    (hsends : engine.Sends start root base sent w.disk)
    (houtside : ¬Inside (Spot.zone engine.settings.outputDirName sent) (base ++ way))
    (hadmits : root.Admits way)
    (hentries : ∀ entry ∈ entries, ∃ held, start.tree.get? (base ++ way ++ [entry.1]) = some held ∧
      entry.2 = held.kind)
    (hsorted : entries.Pairwise fun left right => left.1 < right.1)
    (hnew : ∀ spot ∈ sent, ∀ entry ∈ entries, ∀ next, entry.1 ≤ next →
      ¬base ++ way ++ [next] <+: spot.loc)
    (hrun : entries.foldlM (Scan.entryM Act.look engine.rules engine.visit depth (root.below way))
      outcomes w = .ok outcomes' w') :
    ∃ more later, outcomes' = outcomes ++ more ∧ engine.Leg start root base (base ++ way)
      (fun names => ∃ rest, names = way ++ rest ∧
        Scan.ComesBy engine.rules start.tree (base ++ way) entries rest)
      sent later more w'.disk := by
  induction entries generalizing sent outcomes w with
  | nil =>
    cases hrun
    refine ⟨[], [], (List.append_nil _).symm, .idle hsends ?_⟩
    rintro _ ⟨rest, -, -, entry, hentry, -⟩
    cases hentry
  | cons entry rest ih =>
    obtain ⟨hlt, hordered⟩ := List.pairwise_cons.mp hsorted
    obtain ⟨⟨held, hheld, hkind⟩, hothers⟩ := List.forall_mem_cons.mp hentries
    rw [List.foldlM_cons] at hrun
    obtain ⟨mid, w₁, hentry, hfold⟩ := Act.ok_of_bind hrun
    obtain ⟨more, first, rfl, hleg⟩ := leg_of_entry hcontained hout hsurvey hway hdeeper hsends
      houtside hadmits hheld hkind (fun spot hspot => hnew spot hspot entry List.mem_cons_self)
      hentry
    have houtside' :
        ¬Inside (Spot.zone engine.settings.outputDirName (sent ++ first)) (base ++ way) := by
      intro hinside
      obtain ⟨spot, hspot, hinside⟩ := Spot.inside_zone_iff.mp hinside
      rcases List.mem_append.mp hspot with hspot | hspot
      · exact houtside (Spot.inside_zone_iff.mpr ⟨spot, hspot, hinside⟩)
      · have hbelow := (hleg.below spot hspot).length_le
        simp only [Spot.loc, List.length_append, List.length_singleton] at hbelow
        exact not_inside_fileLocs (by rw [List.length_append]; omega) hinside
    have hnew' : ∀ spot ∈ sent ++ first, ∀ other ∈ rest, ∀ next, other.1 ≤ next →
        ¬base ++ way ++ [next] <+: spot.loc := by
      intro spot hspot other hother next hle hpre
      rcases List.mem_append.mp hspot with hspot | hspot
      · exact hnew spot hspot other (List.mem_cons_of_mem _ hother) next hle hpre
      · have hsame := List.prefix_of_prefix_length_le (hleg.below spot hspot) hpre (by simp)
        have heq := List.append_cancel_left (hsame.eq_of_length (by simp))
        exact absurd ((hlt other hother).trans_le hle) (List.singleton_inj.mp heq ▸ lt_irrefl _)
    obtain ⟨more', later, rfl, hleg'⟩ := ih hleg.sends houtside' hothers hordered hnew' hfold
    refine ⟨more ++ more', first ++ later, List.append_assoc _ _ _,
      ((hleg.mono (List.prefix_append _ _) (fun _ => id) fun _ h hnot => absurd h hnot).append
        hleg').mono List.prefix_rfl ?_ ?_⟩
    · rintro _ (⟨names, rfl, hcomes, hmem⟩ | ⟨names, rfl, hcomes, other, hother, hhead⟩)
      · exact ⟨names, rfl, hcomes, by simpa using .inl (by simpa using hmem)⟩
      · exact ⟨names, rfl, hcomes, other, List.mem_cons_of_mem _ hother, hhead⟩
    · rintro _ ⟨names, rfl, hcomes, other, hother, hhead⟩ hnot
      rcases List.mem_cons.mp hother with rfl | hother
      · exact absurd (.inl ⟨names, rfl, hcomes, other, List.mem_cons_self, hhead⟩) hnot
      · exact absurd (.inr ⟨names, rfl, hcomes, other, hother, hhead⟩) hnot

end Walk

/-- A walk accounts for what lies below a directory.  The induction is on how far down a path can
still be named; below it goes the one over the entries of a listing. -/
theorem accountsBelow (hcontained : engine.Contained)
    (hout : Path.Component engine.settings.outputDirName)
    (hsurvey : engine.Surveys start root base counted) (depth : Nat) :
    engine.AccountsBelow start root base depth := by
  induction depth with
  | zero =>
    intro way sent outcomes outcomes' w w' hway hsends houtside hnew hrun
    rw [Scan.foldM] at hrun
    cases (Act.ok_of_look hrun).1
  | succ depth ih =>
    intro way sent outcomes outcomes' w w' hway hsends houtside hnew hrun
    rw [Scan.foldM_succ] at hrun
    obtain ⟨entries, w₁, hlook, hfold⟩ := Act.ok_of_bind hrun
    obtain ⟨hlist, rfl⟩ := Act.ok_of_look hlook
    obtain ⟨hadmits, -, rfl⟩ := hsends.listed hsurvey hway houtside (Scan.list_of_query hlist)
    have hsound := hsends.outlasts.sound
    -- no file next to the entries has been processed yet
    have hoff (name : String) :
        ¬Inside (Spot.zone engine.settings.outputDirName sent) (base ++ way ++ [name]) := by
      intro hinside
      obtain ⟨spot, hspot, heq | hartifact⟩ := mem_fileLocs_of_inside houtside hinside
      · exact hnew spot hspot (heq ▸ List.prefix_append _ _)
      · obtain ⟨artifact, -, heq⟩ := List.mem_map.mp hartifact
        exact hnew spot hspot ((List.append_inj' heq rfl).1 ▸ List.prefix_append _ _)
    have hshape (name : String) := hsends.outlasts.shape _ (hoff name)
    have hentries (entry : String × Kind) (hentry : entry ∈ w₁.disk.tree.listing (base ++ way)) :
        ∃ held, start.tree.get? (base ++ way ++ [entry.1]) = some held ∧ entry.2 = held.kind := by
      obtain ⟨held', hheld', hkind⟩ := hsound.mem_listing_iff.mp hentry
      rcases hshape entry.1 with hsame | ⟨-, hgone⟩
      · obtain ⟨held, hheld, hbare⟩ := get?_of_shape hsame.symm hheld'
        exact ⟨held, hheld, by rw [hkind, ← kind_bare held', ← kind_bare held, hbare]⟩
      · rw [hheld'] at hgone
        cases hgone
    obtain ⟨more, later, hmore, hleg⟩ := leg_of_entries hcontained hout hsurvey hway ih hsends
      houtside hadmits hentries (w₁.disk.tree.listing_pairwise _)
      (fun spot hspot _ _ _ _ hpre => hnew spot hspot ((List.prefix_append _ _).trans hpre)) hfold
    refine ⟨more, later, hmore, hleg.mono List.prefix_rfl ?_ ?_⟩
    · rintro _ ⟨rest, rfl, hcomes, -⟩
      exact ⟨rest, rfl, hcomes⟩
    · -- what is not listed any more has been swept, and no script has the name for that
      rintro _ ⟨rest, rfl, hcomes⟩ hnot hscript
      cases rest with
      | nil => exact Scan.not_comes_nil _ _ _ hcomes
      | cons name rest =>
        obtain ⟨held, hheld⟩ : ∃ held, start.tree.get? (base ++ way ++ [name]) = some held := by
          rcases Scan.comes_cons_iff.mp hcomes with ⟨-, held, hheld, -⟩ | ⟨hheld, -⟩
          · exact ⟨held, hheld⟩
          · exact ⟨_, hheld⟩
        have hother : name ≠ engine.settings.outputDirName := by
          rcases Scan.comes_cons_iff.mp hcomes with ⟨rfl, -⟩ | ⟨-, hentered, -⟩
          · have hlast := hsurvey.other _ (hsurvey.mem_counted hway hcomes hscript)
            rwa [← Path.child_below, Path.name_child] at hlast
          · exact fun heq => hentered (heq ▸ engine.settings.outputDirName_mem_skipped)
        rcases hshape name with hsame | ⟨hcovered, -⟩
        · obtain ⟨held', hheld', -⟩ := get?_of_shape hsame hheld
          exact hnot ⟨name :: rest, rfl, hcomes, (name, held'.kind),
            hsound.mem_listing_iff.mpr ⟨held', hheld', rfl⟩, rfl⟩
        · exact not_covered_child (hsurvey.not_covered hway) hother hcovered

/-- A walk that comes to its end, where commands keep to their files, has an outcome for each script
that has been counted, but for the artifacts of files that have been processed before it; it has no
other outcomes, and passes over no file as gone. -/
theorem processDirectory_accounts (hcontained : engine.Contained)
    (hout : Path.Component engine.settings.outputDirName) {w w' : World σ} {outcomes : List Outcome}
    (hsurvey : engine.Surveys w.disk root base counted)
    (hrun : engine.processDirectory root w = .ok outcomes w') :
    (outcomes.map Outcome.file).Sublist counted ∧
      (∃ w₁, Scan.Goes engine.rules engine.visit []
        (w.said engine.reporter .info ("Processing directory: " ++ root.toString ++
          " (" ++ toString counted.length ++ " files)"))
        (outcomes.map Outcome.file) outcomes w₁) ∧
      outcomes.length + (counted.filter (· ∉ outcomes.map Outcome.file)).length = counted.length ∧
      ∀ file ∈ counted, file ∉ outcomes.map Outcome.file → ∃ outcome ∈ outcomes,
        outcome.status ≠ .clean ∧
          ∃ name ∈ artifactNames outcome.file engine.settings.outputDirName,
            file = outcome.file.parent.child name := by
  obtain ⟨counted', w₁, hscripts, hwalk, -⟩ := walk_of_processDirectory hrun
  cases hsurvey.scripts.symm.trans hscripts
  have hinventory := Scan.Inventory.of_scripts hsurvey.ground.sound hsurvey.way.found hscripts
  have hsends (line : String) : engine.Sends w.disk root base [] (w.disk.logged line) :=
    ⟨.of_course (.noted hsurvey.ground.sound [line]), by simp⟩
  obtain ⟨more, later, houtcomes, hleg⟩ := accountsBelow hcontained hout hsurvey pathMax [] []
    _ _ _ _ (.stay base) (hsends _) (by simp [Spot.zone, Inside]) (by simp)
    ((Path.below_nil root).symm ▸ hwalk)
  obtain ⟨noted, hnoted, hgoes, hordered⟩ := outcomes_of_walk hwalk
  rw [List.nil_append] at houtcomes hnoted
  subst houtcomes
  subst hnoted
  have hnodup {files : List Path}
      (hsorted : files.Pairwise fun left right => left.parts < right.parts) : files.Nodup := by
    refine hsorted.imp ?_
    rintro left _ hlt rfl
    exact lt_irrefl _ hlt
  have hmet : outcomes.map Outcome.file ⊆ counted := by
    intro file hfile
    obtain ⟨outcome, houtcome, rfl⟩ := List.mem_map.mp hfile
    obtain ⟨names, ⟨_, rfl, hcomes⟩, hpath, hscript⟩ := hleg.met outcome houtcome
    rw [List.append_nil] at hcomes
    exact (hinventory.mem_iff _).mpr ⟨_, hcomes, hpath, hscript⟩
  have hsublist : (outcomes.map Outcome.file).Sublist counted := by
    have hantisymm : Std.Antisymm fun left right : Path => left.parts < right.parts :=
      ⟨fun _ _ hlt hgt => absurd hgt hlt.asymm⟩
    exact List.sublist_of_subperm_of_pairwise
      (List.subperm_of_subset (hnodup hordered.sorted) hmet) hordered.sorted hinventory.sorted
  have hlength : (counted.filter (· ∈ outcomes.map Outcome.file)).length = outcomes.length := by
    have hperm : (counted.filter (· ∈ outcomes.map Outcome.file)).Perm
        (outcomes.map Outcome.file) := by
      refine (List.perm_ext_iff_of_nodup ((hnodup hinventory.sorted).filter _)
        (hnodup hordered.sorted)).mpr fun file => ?_
      simp only [List.mem_filter, decide_eq_true_eq]
      exact ⟨And.right, fun hfile => ⟨hmet hfile, hfile⟩⟩
    rw [hperm.length_eq, List.length_map]
  refine ⟨hsublist, ⟨_, hgoes⟩, ?_, ?_⟩
  · have hsplit := List.length_eq_length_filter_add (l := counted)
      (fun file => decide (file ∈ outcomes.map Outcome.file))
    simp only [hlength] at hsplit
    rw [hsplit]
    simp only [decide_not]
  · intro file hfile hmissing
    obtain ⟨names, hcomes, rfl, hscript⟩ := (hinventory.mem_iff _).mp hfile
    rcases hleg.missed names ⟨names, rfl, by rwa [List.append_nil]⟩ hscript with
      hnoted | ⟨spot, hspot, hartifact⟩
    · exact absurd hnoted hmissing
    · rw [List.nil_append] at hspot
      obtain ⟨outcome, houtcome, hsame, hstatus⟩ := hleg.noted spot hspot
      obtain ⟨way, name, _, _, rfl, -, -⟩ := hleg.sends.spots spot hspot
      obtain ⟨artifact, hname, heq⟩ := List.mem_map.mp hartifact
      rw [List.append_assoc] at heq
      refine ⟨outcome, houtcome, hstatus, artifact, hsame ▸ hname, ?_⟩
      rw [hsame, Path.parent_child, Path.child_below, List.append_cancel_left heq]

end Engine

section Samples

/-- A script next to the output that an earlier run has left of it. -/
def Sample.stale : Disk := Sample.disk
  [(["d"], .directory), (["d", "a.js"], .file [97] {}),
    (["d", "a.js.deobfuscated.js"], .file [98] {})]

theorem Sample.stale_surveys : Sample.tidying.Surveys Sample.stale ⟨.here, ["d"]⟩ ["d"]
    [⟨.here, ["d", "a.js"]⟩, ⟨.here, ["d", "a.js.deobfuscated.js"]⟩] where
  ground := by
    have hlinkless : Sample.stale.tree.Linkless := by decide
    exact ⟨by decide, by decide, fun loc target _ => hlinkless loc target⟩
  way := by
    have hspares {loc : Loc} (hloc : ["d"] <+: loc → loc = ["d"]) :
        Sample.tidying.Spares ["d"] loc :=
      ⟨hloc, nofun⟩
    exact ⟨by decide, [], rfl, .down (by decide) (hspares (by simp)) (by decide) (by decide)
      (.arrive (by decide) (hspares fun _ => rfl))⟩
  scripts := Except.eq_ok_of_toOption (by decide +kernel)
  takes := by decide
  other := by decide

theorem Sample.stale_run : ∃ outcomes w',
    Sample.tidying.processDirectory ⟨.here, ["d"]⟩ (Sample.provided Sample.stale) =
      .ok outcomes w' ∧
    outcomes.map Outcome.file = [⟨.here, ["d", "a.js"]⟩] ∧
    w'.lines.head? = some (.info, "Processing directory: d (2 files)") ∧
    (w'.lines.filter (·.1 = .debug)).map Prod.snd =
      ["tidy d/a.js", "Cleaning up temporary data..."] := by
  have hfiles : ((Sample.tidying.processDirectory ⟨.here, ["d"]⟩).result
      (Sample.provided Sample.stale)).toOption.map (·.map Outcome.file) =
        some [⟨.here, ["d", "a.js"]⟩] := by
    decide +kernel
  obtain ⟨outcomes, hsome, hfiles⟩ := Option.map_eq_some_iff.mp hfiles
  exact ⟨outcomes, _, Act.eq_of_result_ok (Except.eq_ok_of_toOption hsome), hfiles,
    by decide +kernel⟩

/-- The output that the first run of the steps removes is counted, but not met. -/
theorem stale_output_accounted :
    Sample.tidying.Contained ∧ ∃ outcomes w',
      Sample.tidying.processDirectory ⟨.here, ["d"]⟩ (Sample.provided Sample.stale) =
        .ok outcomes w' ∧
      (outcomes.map Outcome.file).Sublist
        [⟨.here, ["d", "a.js"]⟩, ⟨.here, ["d", "a.js.deobfuscated.js"]⟩] ∧
      outcomes.length + 1 = 2 := by
  have hcontained : Sample.tidying.Contained := Sample.runner_contained _ _
  obtain ⟨outcomes, w', hrun, hfiles, -⟩ := Sample.stale_run
  obtain ⟨hsublist, -, htotal, -⟩ :=
    Engine.processDirectory_accounts hcontained (by decide) Sample.stale_surveys hrun
  rw [hfiles] at htotal
  exact ⟨hcontained, outcomes, w', hrun, hsublist, htotal⟩

/-- A walk says how many files it goes through, and says nothing of one that has dropped out. -/
theorem stale_output_passed_over :
    Sample.tidying.Contained ∧ Sample.stale.Sound ∧ Sample.stale.tree.Linkless ∧
      ∃ outcomes w', Sample.tidying.processDirectory ⟨.here, ["d"]⟩
          (Sample.provided Sample.stale) = .ok outcomes w' ∧
        outcomes.map Outcome.file = [⟨.here, ["d", "a.js"]⟩] ∧
        w'.lines.head? = some (.info, "Processing directory: d (2 files)") ∧
        (w'.lines.filter (·.1 = .debug)).map Prod.snd =
          ["tidy d/a.js", "Cleaning up temporary data..."] :=
  ⟨Sample.runner_contained _ _, by decide, by decide, Sample.stale_run⟩

end Samples

end Unscramble
