import Unscramble.Proofs.Account
import Unscramble.Proofs.Disk.Losses
import Unscramble.Proofs.Rescan

/-!
# What a walk with idle tools spares

Where no command changes anything on the disk, all that a run over a file does is to take entries
away: its artifacts, and what its last sweep finds.  Nothing else is lost in a walk.  So a script
stays what it was as long as nothing on the way to it lies where a run takes something away.
-/

namespace Unscramble

open Disk Workspace

variable {σ : Type}

/-- No command changes anything on the disk. -/
def Runner.KeepsDisk (runner : Runner σ) : Prop :=
  ∀ command disk tools, (runner command disk tools).2.1 = disk

/-! ## Nothing but directories at the artifacts -/

section Hollow

variable {file artifact : Path} {outputName name : String} {dir loc : Loc} {base disk disk' : Disk}

/-- The disk consists of `base` and of directories at the artifacts of a file, whose directory
`base` reaches. -/
structure Disk.Hollow (file : Path) (outputName : String) (dir : Loc) (base disk : Disk) : Prop
    extends Surrounds (artifactLocs file outputName dir) base disk where
  reached : base.find .followed file.parent = .ok (.present dir .directory)
  place : disk.cwd.Raised base.cwd
  bare : ∀ loc entry, Inside (artifactLocs file outputName dir) loc →
    disk.tree.get? loc = some entry → entry = .directory

namespace Disk.Hollow

variable (hhollow : Hollow file outputName dir base disk)

include hhollow

theorem reached_whole : disk.find .followed file.parent = .ok (.present dir .directory) :=
  hhollow.toSurrounds.reached hhollow.reached

theorem thinner (hsurrounds : Surrounds (artifactLocs file outputName dir) base disk')
    (hthin : disk'.Thinner disk) : Hollow file outputName dir base disk' where
  toSurrounds := hsurrounds
  reached := hhollow.reached
  place := hthin.cwd.trans hhollow.place
  bare loc entry hloc hheld := by
    obtain ⟨held, hbefore, hbare⟩ := hthin.held hheld
    rw [hhollow.bare loc held hloc hbefore] at hbare
    exact Entry.bare_eq_directory.mp hbare.symm

theorem ne_link {target : String} (hloc : Inside (artifactLocs file outputName dir) loc) :
    disk.tree.get? loc ≠ some (.link target) := by
  intro hlink
  cases hhollow.bare loc _ hloc hlink

theorem logged (line : String) : Hollow file outputName dir base (disk.logged line) :=
  hhollow.thinner (hhollow.toSurrounds.logged line) (disk.thinner_logged line)

/-- There is no output. -/
theorem not_isFile (hout : Path.Component outputName)
    (hartifact : artifact ∈ outputPlaces file outputName) : disk.isFile artifact ≠ .ok true := by
  intro hfile
  have hnone {loc : Loc} {entry : Entry} (hentry : entry ≠ .directory) :
      disk.find .itself artifact ≠ .ok (.present loc entry) := fun hfind =>
    hentry (hhollow.bare loc entry (inside_of_output hhollow.reached_whole
      (fun _ _ hloc => hhollow.ne_link hloc) hout hartifact hfind) (find_fits hfind))
  obtain ⟨loc, bytes, access, hfind⟩ := isFile_eq_true_iff.mp hfile
  rcases disk.find_followed artifact with ⟨place, text, hlink⟩ | hsame
  · exact hnone (by simp) hlink
  · exact hnone (by simp) (hsame ▸ hfind)

/-- Once nothing is left at the artifacts, `base` has been restored, but for lines in the log. -/
theorem loses {lost : Loc → Prop}
    (hgone : ∀ loc, Inside (artifactLocs file outputName dir) loc → disk.tree.get? loc = none) :
    Loses lost base disk := by
  have hempty := hhollow.empty
  have hkept (loc : Loc) : disk.tree.shape loc = base.tree.shape loc := by
    by_cases hloc : Inside (artifactLocs file outputName dir) loc
    · rw [Tree.shape, Tree.shape, hgone loc hloc, hempty loc hloc]
    · exact hhollow.shape loc hloc
  constructor
  case sound => exact hhollow.sound
  case thinner => exact ⟨fun loc => .inr (hkept loc), hhollow.place⟩
  case shape => exact fun loc _ => hkept loc
  case kept =>
    intro loc _ hlog
    by_cases hloc : Inside (artifactLocs file outputName dir) loc
    · rw [hgone loc hloc, hempty loc hloc]
    · exact hhollow.kept loc hloc hlog
  case working => exact fun _ _ => hhollow.toSurrounds.thinner.workingLoc?
  case log =>
    cases hlog : disk.log with
    | none => exact .inr rfl
    | some loc =>
      rcases hhollow.log loc hlog with hloc | hbefore
      · obtain ⟨_, _, hheld⟩ := hhollow.sound.logging hlog
        cases hhollow.bare loc _ hloc hheld
      · exact .inl hbefore.symm

end Disk.Hollow

/-- At the artifacts nothing but directories comes to lie. -/
def World.StaysHollow (file : Path) (outputName : String) (dir : Loc) (base : Disk)
    (w w' : World σ) : Prop :=
  Hollow file outputName dir base w.disk → Hollow file outputName dir base w'.disk

instance : IsPreorder (World σ) (World.StaysHollow file outputName dir base) where
  refl _ := id
  trans _ _ _ hab hbc := hbc ∘ hab

theorem say_hollow (reporter : Reporter) (level : Level) (message : String) :
    (reporter.say level message : Act σ Unit).Within
      (World.StaysHollow file outputName dir base) := by
  intro w hhollow
  rw [Act.final_of_ok (reporter.say_eq level message w)]
  exact hhollow.logged _

theorem remove_hollow (hout : Path.Component outputName)
    (hname : name ∈ artifactNames file outputName) :
    (Act.remove (file.parent.child name) : Act σ Bool).Within
      (World.StaysHollow file outputName dir base) := by
  intro w hhollow
  have hinside : Inside (artifactLocs file outputName dir) (dir ++ [name]) :=
    inside_artifact hname []
  obtain ⟨disk', hfinal, rfl | rfl | ⟨hheld, rfl⟩⟩ :=
      remove_artifact_final hhollow.sound hhollow.reached_whole hout hname <;> rw [hfinal]
  · exact hhollow
  · exact hhollow.thinner (hhollow.toSurrounds.eraseWithin hinside (by simp))
      (w.disk.thinner_eraseWithin (by simp))
  · exact hhollow.thinner (hhollow.toSurrounds.eraseBelow hinside hheld) (w.disk.thinner_eraseBelow _)

/-- Where there is no output nothing is brought back. -/
theorem promote_hollow (hout : Path.Component outputName)
    (hartifact : artifact ∈ outputPlaces file outputName) :
    (promote artifact file : Act σ Bool).Within (World.StaysHollow file outputName dir base) := by
  intro w hhollow
  have hfile := hhollow.not_isFile hout hartifact
  rcases hanswer : w.disk.isFile artifact with why | _ | _
  · rwa [Act.final_of_error (promote_of_refused hanswer)]
  · rwa [Act.final_of_ok (promote_of_no_file hanswer)]
  · exact absurd hanswer hfile

/-- Made where nothing lies at the artifacts, the staging directory is all that lies there. -/
theorem hollow_staged (hsound : disk.Sound)
    (hdir : disk.find .followed file.parent = .ok (.present dir .directory))
    (hgone : ∀ loc, Inside (artifactLocs file outputName dir) loc → disk.tree.get? loc = none)
    (hmade : (disk.insert (dir ++ [outputName]) .directory).Sound) :
    Hollow file outputName dir disk (disk.insert (dir ++ [outputName]) .directory) where
  toSurrounds := (surrounds_self hsound hgone).insert
    (inside_artifact (by simp [artifactNames]) []) (by simp) hmade
  reached := hdir
  place := .refl _
  bare loc entry hloc hheld := by
    rw [get?_insert _ (by simp), hgone loc hloc] at hheld
    split at hheld <;> cases hheld
    rfl

/-- A release removes the directories, if the system takes the paths of the artifacts. -/
theorem release_hollow {lost : Loc → Prop} {w : World σ}
    (hhollow : Hollow file outputName dir base w.disk) (hfile : Path.Ordinary file.name)
    (hout : Path.Component outputName) (hnul : file.hasNul = false)
    (htakes : ∀ name ∈ artifactNames file outputName, file.parent.Takes name) :
    Loses lost base (((ofFile file outputName).release : Act σ Unit).final w).disk := by
  have hlocs : ∀ loc ∈ artifactLocs file outputName dir, loc ≠ [] :=
    fun loc => ne_nil_of_mem_artifactLocs
  rw [Act.final_of_ok (Engine.release_surrounded_ok hfile hout hnul hhollow.toSurrounds
    (fun loc hloc => ⟨loc, hloc, List.prefix_rfl⟩) hhollow.reached htakes
    fun name hname target => hhollow.ne_link (inside_artifact hname []))]
  have hcleared := hhollow.toSurrounds.without fun loc hloc =>
    ⟨hlocs loc hloc, loc, hloc, List.prefix_rfl⟩
  refine (hhollow.thinner hcleared (thinner_without _ hlocs)).loses fun loc hloc => ?_
  exact (get?_without_zone hlocs _ loc).trans (if_pos hloc)

theorem runSteps_hollow {engine : Engine σ} (hidle : engine.runner.KeepsDisk)
    (hout : Path.Component engine.settings.outputDirName) (hfile : file.name ≠ "")
    (total index : Nat) :
    (engine.runSteps (.ofFile file engine.settings.outputDirName) total index
      engine.steps).Within (World.StaysHollow file engine.settings.outputDirName dir base) := by
  have hcompose :=
    Act.composes_within (World.StaysHollow (σ := σ) file engine.settings.outputDirName dir base)
  refine hcompose.runSteps (fun level message => say_hollow engine.reporter level message)
    (fun step _ argv _ w hhollow => ?_) fun convention => ?_
  · rwa [Engine.final_run, hidle]
  · exact reconcile_ofFile hcompose hfile hout (fun _ => promote_hollow hout) (Act.within_look _)
      (remove_hollow hout (by simp [artifactNames])) convention

end Hollow

/-! ## A run over a file -/

section Run

variable {file : Path} {outputName name : String} {dir loc : Loc} {lost : Loc → Prop}
  {disk disk' : Disk} {w : World σ}

/-- Entries are taken away in these places only, if the way to a directory keeps off them. -/
def World.LosesOnly (lost : Loc → Prop) (path : Path) (dir : Loc) (w w' : World σ) : Prop :=
  w.disk.Sound → w.disk.Along (¬lost ·) path dir → Loses lost w.disk w'.disk

instance (path : Path) : IsPreorder (World σ) (World.LosesOnly lost path dir) where
  refl _ hsound _ := .refl hsound
  trans _ _ _ hfirst hsecond hsound halong :=
    have hb := hfirst hsound halong
    hb.trans (hsecond hb.sound (hb.along halong))

theorem Disk.Loses.of_onlyLogs {w w' : World σ} (hsound : w.disk.Sound)
    (honly : World.OnlyLogs w w') : Loses lost w.disk w'.disk := by
  obtain ⟨lines, hlines⟩ := honly
  rw [hlines]
  exact .noted hsound lines

theorem say_loses (reporter : Reporter) (level : Level) (message : String) :
    (reporter.say level message : Act σ Unit).Within (World.LosesOnly lost file.parent dir) :=
  fun w hsound _ => .of_onlyLogs hsound (say_onlyLogs reporter level message w)

theorem release_loses (hfile : file.name ≠ "") (hout : Path.Component outputName) :
    ((ofFile file outputName).release : Act σ Unit).Within
      (World.LosesOnly (Inside (artifactLocs file outputName dir)) file.parent dir) := by
  refine release_ofFile_within hfile hout fun name hname w hsound halong => ?_
  obtain ⟨disk', hfinal, rfl | rfl | ⟨hheld, rfl⟩⟩ :=
      remove_artifact_final hsound halong.found hout hname <;> rw [hfinal]
  · exact .refl hsound
  · exact .eraseWithin hsound (inside_artifact hname []) (by simp)
  · exact .eraseBelow hsound (inside_artifact hname []) hheld

namespace Engine

variable {engine : Engine σ} (hidle : engine.runner.KeepsDisk)
  (hout : Path.Component engine.settings.outputDirName) (hfile : Path.Ordinary file.name)
  (hnul : file.hasNul = false)

include hidle hout hfile hnul

/-- Up to its last sweep a run takes nothing away but the artifacts. -/
theorem work_loses : (engine.work file).Within (World.LosesOnly
    (Inside (artifactLocs file engine.settings.outputDirName dir)) file.parent dir) := by
  refine Act.within_bind (say_loses _ _ _) fun _ w hsound halong => ?_
  have hname := Path.ordinary_ne_empty hfile
  have hrelease := release_loses hname hout w hsound halong
  cases hrun : ((ofFile file engine.settings.outputDirName).release : Act σ Unit) w with
  | error fault w' =>
    rw [Act.final_of_error hrun] at hrelease
    rwa [use, Act.final_bind_of_error hrun]
  | ok _ w' =>
    rw [Act.final_of_ok hrun] at hrelease
    have hdir := (hrelease.along halong).found
    obtain ⟨hgone, hvacant, hmake, hmade⟩ := staged_of_release hsound hfile hout hnul hrun hdir
    rw [use, Act.final_bind_of_ok hrun, Act.final_bind_of_ok hmake, Act.final_always]
    let w'' : World σ :=
      { w' with disk := w'.disk.insert (dir ++ [engine.settings.outputDirName]) .directory }
    have hsteps := runSteps_hollow hidle hout hname engine.steps.length 1 w''
      (hollow_staged hrelease.sound hdir hgone hmade)
    -- the system has taken the paths of the artifacts before, and it does so again
    refine hrelease.trans (release_hollow hsteps hfile hout hnul fun name hartifact => ?_)
    have hfree := hvacant name hartifact
    obtain ⟨_, -, hshort, -⟩ :=
      reached_of_find_child (ordinary_of_mem_artifactNames hout hartifact) hfree
    exact ⟨nameable_of_find hfree, hshort⟩

end Engine

end Run

namespace Engine

variable {engine : Engine σ} {file : Path} {dir loc : Loc} {disk disk' : Disk} {w : World σ}

/-- A run over the file may take an entry away: it lies at or below an artifact, or the last sweep
finds it when one works where one does on this disk. -/
def Clears (engine : Engine σ) (disk : Disk) (file : Path) (dir loc : Loc) : Prop :=
  Inside (artifactLocs file engine.settings.outputDirName dir) loc ∨
    ∃ top ∈ engine.sweepTop? disk dir, Covered top engine.settings.outputDirName loc

theorem Clears.below {loc' : Loc} (hclears : engine.Clears disk file dir loc) (hpre : loc <+: loc') :
    engine.Clears disk file dir loc' :=
  hclears.imp (fun hinside => hinside.trans hpre)
    fun ⟨top, htop, hcovered⟩ => ⟨top, htop, hcovered.below hpre⟩

theorem sweepTop?_thinner {top : Loc} (hthin : disk'.Thinner disk)
    (htop : top ∈ engine.sweepTop? disk' dir) : top ∈ engine.sweepTop? disk dir := by
  unfold sweepTop? at htop ⊢
  cases hscope : engine.settings.cleanupScope with
  | file => rwa [hscope] at htop
  | workingDirectory =>
    rw [hscope] at htop
    exact hthin.workingLoc? htop

theorem Clears.thinner (hclears : engine.Clears disk' file dir loc) (hthin : disk'.Thinner disk) :
    engine.Clears disk file dir loc :=
  hclears.imp_right fun ⟨top, htop, hcovered⟩ => ⟨top, sweepTop?_thinner hthin htop, hcovered⟩

theorem deobfuscate_loses (hidle : engine.runner.KeepsDisk)
    (hout : Path.Component engine.settings.outputDirName) (hfile : Path.Ordinary file.name)
    (hnul : file.hasNul = false) :
    (engine.deobfuscate file).Within fun w w' => World.LosesOnly (engine.Clears w.disk file dir)
      file.parent dir w w' := by
  intro w hsound halong
  have hworked := (work_loses hidle hout hfile hnul w hsound (halong.mono fun _ hloc hinside =>
    hloc (.inl hinside))).mono fun _ hinside => (.inl hinside : engine.Clears w.disk file dir _)
  rw [deobfuscate_eq]
  cases hrun : engine.work file w with
  | error fault w' =>
    rw [Act.final_of_error hrun] at hworked
    rwa [Act.final_bind_of_error hrun]
  | ok results w' =>
    rw [Act.final_of_ok hrun] at hworked
    rw [Act.final_bind_of_ok hrun]
    have hleads := leads_of_found (hworked.along halong).found
    rcases conclude_swept_from hworked.sound hleads results with hsame | ⟨top, htop, hswept⟩
    · rwa [hsame]
    · exact hworked.trans ((Loses.of_swept hswept).mono fun loc hcovered =>
        .inr ⟨top, sweepTop?_thinner hworked.thinner htop, hcovered⟩)

end Engine

/-! ## On the way through a directory -/

namespace Engine

variable {engine : Engine σ} {start disk : Disk} {root : Path} {base loc : Loc}
  {counted : List Path} {way : List String} {name : String} {held : Entry}

/-- Runs over these files below a root may take an entry away. -/
def Removes (engine : Engine σ) (disk : Disk) (root : Path) (base : Loc) (files : List Path)
    (loc : Loc) : Prop :=
  ∃ way name, (root.below way).child name ∈ files ∧
    engine.Clears disk ((root.below way).child name) (base ++ way) loc

theorem Removes.below {loc' : Loc} (hremoves : engine.Removes start root base counted loc)
    (hpre : loc <+: loc') : engine.Removes start root base counted loc' := by
  obtain ⟨way, name, hmem, hclears⟩ := hremoves
  exact ⟨way, name, hmem, hclears.below hpre⟩

/-- What is not below the directory, nor swept from further up, is not taken away. -/
theorem Spares.not_removes (hspares : engine.Spares base loc) :
    ¬engine.Removes start root base counted loc := by
  rintro ⟨way, name, -, hinside | ⟨top, htop, hcovered⟩⟩
  · exact hspares.outside _ way _ (inside_fileLocs hinside)
  · exact hspares.not_covered (Course.covered_of_root (sweepTop_above htop) hcovered)

/-- The scripts below a directory have been counted, on a disk where names can be read back from
paths and the search for a script's canonical form stays within the limits of the system.  The way
to the directory keeps off all that runs over the scripts take away. -/
structure Counts (engine : Engine σ) (start : Disk) (root : Path) (base : Loc)
    (counted : List Path) : Prop where
  sound : start.Sound
  slashless : start.tree.Slashless
  readable : ∀ part ∈ root.parts, part ≠ "" ∧ '/' ∉ part.toList
  way : start.Along (¬engine.Removes start root base counted ·) root base
  scripts : Scan.scripts engine.rules start root = .ok counted
  searchable : ∀ names, Text.lowerString (root.below names).suffix ∈ engine.rules.extensions →
    start.isFile (root.below names) = .ok true → start.Searchable (root.below names)

section Counts

variable (hcounts : engine.Counts start root base counted)
  (hway : Scan.Enters engine.rules start.tree base way)

include hcounts

theorem Counts.inventory :
    Scan.Inventory engine.rules start root (Scan.Comes engine.rules start.tree base) counted :=
  .of_scripts hcounts.sound hcounts.way.found hcounts.scripts

include hway

/-- No sweep after a script finds what a scan enters. -/
theorem Counts.not_covered {way' : List String} {name' : String} {top : Loc}
    (hmem : (root.below way').child name' ∈ counted)
    (htop : top ∈ engine.sweepTop? start (base ++ way')) :
    ¬Covered top engine.settings.outputDirName (base ++ way) :=
  hway.not_covered engine.settings.outputDirName_mem_skipped fun hcovered =>
    hcounts.way.holds ⟨way', name', hmem, .inr ⟨top, htop, hcovered⟩⟩

/-- The way to the directory of a script keeps off what the run over it takes away. -/
theorem Counts.along (hmem : (root.below way).child name ∈ counted)
    (hloses : Loses (engine.Removes start root base counted) start disk)
    (hdir : disk.find .followed (root.below way) = .ok (.present (base ++ way) .directory)) :
    disk.Along (¬engine.Clears disk ((root.below way).child name) (base ++ way) ·) (root.below way)
      (base ++ way) := by
  have hroot := (hloses.along hcounts.way).mono (Q := fun loc =>
    ¬engine.Clears disk ((root.below way).child name) (base ++ way) loc)
    fun loc hloc hclears => hloc ⟨way, name, hmem, hclears.thinner hloses.thinner⟩
  refine hroot.below hloses.sound hdir fun front hfront => ?_
  rintro (hinside | ⟨top, htop, hcovered⟩)
  · exact not_inside_fileLocs (by simpa using hfront.length_le) (inside_fileLocs hinside)
  · exact hcounts.not_covered hway hmem (sweepTop?_thinner hloses.thinner htop)
      (hcovered.below ((List.prefix_append_right_inj base).mpr hfront))

/-- A script that is met has been counted. -/
theorem Counts.mem_counted (hloses : Loses (engine.Removes start root base counted) start disk)
    (hheld : start.tree.get? (base ++ way ++ [name]) = some held) (hother : held ≠ .directory)
    (hscript : Scan.isScript engine.rules ((root.below way).child name) disk = .ok true) :
    (root.below way).child name ∈ counted := by
  rw [Path.child_below] at hscript ⊢
  obtain ⟨hsuffix, hfile, place, hplace, hown⟩ := Scan.isScript_eq_true_iff.mp hscript
  obtain ⟨loc, bytes, access, hfind⟩ := isFile_eq_true_iff.mp hfile
  have hfile' := hloses.thinner.isFile hcounts.sound hfile
  obtain ⟨top, hstart, hkeeps⟩ := hcounts.way.way
  have hcanonical : disk.canonicalPath (root.below (way ++ [name])) =
      start.canonicalPath (root.below (way ++ [name])) :=
    hcounts.sound.canonicalPath_thinner hloses.sound hloses.thinner hstart
      (hloses.start? hstart (hkeeps.place (.refl _ _)))
      (hcounts.sound.readable_below hcounts.slashless hcounts.readable
        (List.append_assoc _ _ _ ▸ hheld))
      (hcounts.searchable _ hsuffix hfile') hfind
  exact (hcounts.inventory.mem_iff _).mpr ⟨_, ⟨way, name, held, rfl, hway, hheld, hother⟩, rfl,
    Scan.isScript_eq_true_iff.mpr ⟨hsuffix, hfile', place, hcanonical.symm.trans hplace, hown⟩⟩

end Counts

end Engine

/-! ## The walk -/

/-- Once entries have been lost in these places only, no others are lost. -/
def World.LosesMore (lost : Loc → Prop) (start : Disk) (w w' : World σ) : Prop :=
  Loses lost start w.disk → Loses lost start w'.disk

instance (lost : Loc → Prop) (start : Disk) : IsPreorder (World σ) (World.LosesMore lost start) where
  refl _ := id
  trans _ _ _ hab hbc := hbc ∘ hab

theorem losesMore_of_onlyLogs {lost : Loc → Prop} {start : Disk} {w w' : World σ}
    (honly : World.OnlyLogs w w') : World.LosesMore lost start w w' :=
  fun hloses => hloses.trans (.of_onlyLogs hloses.sound honly)

theorem Runner.KeepsDisk.onlyStepsChange {engine : Engine σ} (hidle : engine.runner.KeepsDisk) :
    engine.OnlyStepsChange := fun _ _ => hidle _

namespace Engine

variable {engine : Engine σ} {start : Disk} {root : Path} {base : Loc} {counted : List Path}
  {way : List String} {name : String} {held : Entry} {outcomes : List Outcome}
  {entry : String × Kind} {depth : Nat} (hidle : engine.runner.KeepsDisk)
  (hout : Path.Component engine.settings.outputDirName)
  (hcounts : engine.Counts start root base counted)
  (hway : Scan.Enters engine.rules start.tree base way)

include hidle hout hcounts hway

theorem visit_loses (hleads : start.Leads (root.below way) (base ++ way))
    (hmem : (root.below way).child name ∈ counted) :
    (engine.visit outcomes ((root.below way).child name)).Within
      (World.LosesMore (engine.Removes start root base counted) start) := by
  intro w hloses
  refine visit_invariant hidle.onlyStepsChange hloses.sound losesMore_of_onlyLogs
    (fun w' _ hfile hinv => ?_) outcomes hloses
  obtain ⟨dir, _, hdir, -, -⟩ := held_of_isFile_child (hinv.sound.ordinary_name hfile) hfile
  rw [Path.parent_child] at hdir
  obtain rfl := hleads.thinner hinv.thinner hcounts.sound dir hdir
  have halong := hcounts.along hway hmem hinv hdir
  have hrun := deobfuscate_loses hidle hout (hinv.sound.ordinary_name hfile)
    (nameable_of_isFile hfile).1 w' hinv.sound (by rwa [Path.parent_child])
  exact hinv.trans (hrun.mono fun loc hclears => ⟨way, name, hmem, hclears.thinner hinv.thinner⟩)

/-- What an entry of a directory stands for is gone through. -/
theorem entryM_loses
    (hdeeper : ∀ way acc, Scan.Enters engine.rules start.tree base way →
      start.Leads (root.below way) (base ++ way) →
        (Scan.foldM Act.look engine.rules engine.visit depth (root.below way) acc).Within
          (World.LosesMore (engine.Removes start root base counted) start))
    (hdir : start.find .followed (root.below way) = .ok (.present (base ++ way) .directory))
    (hheld : start.tree.get? (base ++ way ++ [entry.1]) = some held) (hkind : entry.2 = held.kind) :
    (Scan.entryM Act.look engine.rules engine.visit depth (root.below way) outcomes entry).Within
      (World.LosesMore (engine.Removes start root base counted) start) := by
  unfold Scan.entryM
  by_cases hdirectory : entry.2 = .directory
  · obtain rfl : held = .directory := Scan.kind_eq_directory_iff.mp (hkind.symm.trans hdirectory)
    simp only [if_pos hdirectory]
    split
    · exact Act.within_pure _
    · next hentered =>
      have hleads := Scan.leads_child hcounts.sound hdir hheld
      rw [Path.child_below, List.append_assoc] at hleads
      rw [Path.child_below]
      exact hdeeper _ _ (hway.append (.down hheld hentered (.stay _))) hleads
  · simp only [if_neg hdirectory]
    have hother : held ≠ .directory := fun h =>
      hdirectory (hkind.trans (Scan.kind_eq_directory_iff.mpr h))
    intro w hloses
    cases hscript : Scan.isScript engine.rules ((root.below way).child entry.1) w.disk with
    | error fault => rwa [Act.final_bind_of_error (Act.look_of_error hscript)]
    | ok script =>
      rw [Act.final_bind_of_ok (Act.look_of_ok hscript)]
      cases script with
      | false => exact hloses
      | true =>
        have hmem := hcounts.mem_counted hway hloses hheld hother hscript
        exact visit_loses hidle hout hcounts hway (leads_of_found hdir) hmem w hloses

omit hway

/-- A walk loses nothing but what runs over the scripts that have been counted take away.  The
induction is on how far down a path can still be named. -/
theorem foldM_loses (depth : Nat) :
    ∀ way acc, Scan.Enters engine.rules start.tree base way →
      start.Leads (root.below way) (base ++ way) →
        (Scan.foldM Act.look engine.rules engine.visit depth (root.below way) acc).Within
          (World.LosesMore (engine.Removes start root base counted) start) := by
  induction depth with
  | zero =>
    intro way acc _ _
    unfold Scan.foldM
    exact Act.within_look _
  | succ depth ih =>
    intro way acc hway hleads w hloses
    rw [Scan.foldM_succ]
    cases hquery : w.disk.query Disk.list (root.below way) with
    | error fault => rwa [Act.final_bind_of_error (Act.look_of_error hquery)]
    | ok entries =>
      rw [Act.final_bind_of_ok (Act.look_of_ok hquery)]
      refine Act.within_foldlM (R := World.LosesMore (engine.Removes start root base counted) start)
        (fun entry hentry acc => ?_) acc w hloses
      obtain ⟨dir, held, hdir, hheld, hkind⟩ :=
        hloses.sound.mem_list (Scan.list_of_query hquery) hentry
      obtain rfl := hleads.thinner hloses.thinner hcounts.sound dir hdir
      obtain ⟨held', hheld', hbare⟩ := hloses.thinner.held hheld
      exact entryM_loses hidle hout hcounts hway ih
        (hloses.thinner.directory hcounts.sound hdir) hheld'
        (by rw [hkind, ← kind_bare held, ← hbare, kind_bare])

end Engine

/-- Where the scripts cannot be counted, nothing is done. -/
theorem processDirectory_of_uncounted {engine : Engine σ} {root : Path} {w : World σ} {fault : Fault}
    (hscripts : Scan.scripts engine.rules w.disk root = .error fault) :
    (engine.processDirectory root).final w = w := by
  have hcount : Scan.count engine.rules w.disk root = .error fault := by
    rw [Scan.count, hscripts]
    rfl
  exact Act.final_bind_of_error (Act.look_of_error hcount)

theorem processDirectory_loses {engine : Engine σ} (hidle : engine.runner.KeepsDisk)
    (hout : Path.Component engine.settings.outputDirName) {w : World σ} {root : Path} {base : Loc}
    {counted : List Path} (hcounts : engine.Counts w.disk root base counted) :
    Loses (engine.Removes w.disk root base counted) w.disk
      ((engine.processDirectory root).final w).disk := by
  have hsay (level : Level) (message : String) : (engine.reporter.say level message :
      Act σ Unit).Within (World.LosesMore (engine.Removes w.disk root base counted) w.disk) :=
    fun w' => losesMore_of_onlyLogs (say_onlyLogs engine.reporter level message w')
  have hleads : w.disk.Leads (root.below []) (base ++ []) := by
    rw [Path.below_nil, List.append_nil]
    exact leads_of_found hcounts.way.found
  have hfold := engine.foldM_loses hidle hout hcounts pathMax [] [] (.stay base) hleads
  rw [Path.below_nil] at hfold
  refine Act.within_bind (R := World.LosesMore (engine.Removes w.disk root base counted) w.disk)
    (Act.within_look _) (fun _ => Act.within_bind (hsay _ _) fun _ => Act.within_bind hfold fun _ =>
      Act.within_bind (hsay _ _) fun _ => Act.within_pure _) w (.refl hcounts.sound)

/-! ## A script on its own -/

/-- Where a name leads anywhere, without links it leads to its entry. -/
theorem Disk.itself_of_found {disk : Disk} {dir : Path} {loc : Loc} {name : String} {held : Entry}
    {found : Found} (hname : Path.Ordinary name)
    (hdir : disk.find .followed dir = .ok (.present loc .directory))
    (hheld : disk.tree.get? (loc ++ [name]) = some held)
    (hfind : disk.find .followed (dir.child name) = .ok found) :
    disk.find .itself (dir.child name) = .ok (.present (loc ++ [name]) held) := by
  obtain ⟨other, hitself⟩ : ∃ other, disk.find .itself (dir.child name) = .ok other := by
    rcases disk.find_followed (dir.child name) with ⟨q, text, hlink⟩ | hsame
    · exact ⟨_, hlink⟩
    · exact ⟨_, hsame ▸ hfind⟩
  obtain ⟨p, hp, -, hend⟩ := reached_of_find_child hname hitself
  cases hdir.symm.trans hp
  rcases hend with ⟨-, hnone⟩ | ⟨entry, rfl, hentry⟩
  · cases hheld.symm.trans hnone
  · cases hheld.symm.trans hentry
    exact hitself

namespace Engine

variable {engine : Engine σ} {start : Disk} {root file : Path} {base : Loc} {counted : List Path}
  {way : List String} {name : String}

/-- No other script has an artifact at or above this path. -/
def Apart (engine : Engine σ) (counted : List Path) (file : Path) : Prop :=
  ∀ other ∈ counted, other ≠ file → ∀ name ∈ artifactNames other engine.settings.outputDirName,
    ¬(other.parent.child name).parts <+: file.parts

section Counts

variable (hcounts : engine.Counts start root base counted)
  (hnames : ∀ other ∈ counted, other.name ≠ engine.settings.outputDirName)

include hcounts hnames

/-- Nothing is taken away at a script, nor above it. -/
theorem Counts.not_removes (hway : Scan.Enters engine.rules start.tree base way)
    (hmem : (root.below way).child name ∈ counted)
    (hapart : engine.Apart counted ((root.below way).child name)) :
    ¬engine.Removes start root base counted (base ++ way ++ [name]) := by
  have hother := hnames _ hmem
  rintro ⟨way', name', hmem', ⟨loc, hloc, hpre⟩ | ⟨top, htop, hcovered⟩⟩
  · obtain ⟨artifact, hartifact, rfl⟩ := List.mem_map.mp hloc
    rw [List.append_assoc, List.append_assoc, List.prefix_append_right_inj] at hpre
    by_cases heq : (root.below way').child name' = (root.below way).child name
    · have hparts := congrArg Path.parts heq
      simp only [Path.child_below] at hparts
      have hsame : way' ++ [name'] = way ++ [name] := List.append_cancel_left hparts
      obtain ⟨rfl, hlast⟩ := List.append_inj' hsame rfl
      rw [List.prefix_append_right_inj] at hpre
      obtain rfl := List.singleton_inj.mp hlast
      obtain rfl := List.singleton_inj.mp (hpre.eq_of_length rfl)
      refine ne_of_mem_artifactNames (Ne.symm hother) hartifact ?_
      rw [Path.name_child]
    · refine hapart _ hmem' heq artifact hartifact ?_
      rw [Path.parent_child, Path.child_below, Path.child_below]
      exact (List.prefix_append_right_inj root.parts).mpr hpre
  · rw [Path.name_child] at hother
    exact not_covered_child (hcounts.not_covered hway hmem' htop) hother hcovered

/-- The way to a script keeps off all that is taken away, if it does so beyond the script where that
is a link. -/
theorem Counts.treads (hmem : file ∈ counted) (hapart : engine.Apart counted file)
    (hlink : start.isLink file = .ok true →
      start.Treads (¬engine.Removes start root base counted ·) file) :
    start.Treads (¬engine.Removes start root base counted ·) file := by
  obtain ⟨_, ⟨way, name, held, rfl, hway, hheld, -⟩, rfl, hscript⟩ :=
    (hcounts.inventory.mem_iff _).mp hmem
  obtain ⟨-, hfile, -⟩ := Scan.isScript_eq_true_iff.mp hscript
  obtain ⟨place, bytes, access, hfind⟩ := isFile_eq_true_iff.mp hfile
  have hdir : start.find .followed (root.below way) = .ok (.present (base ++ way) .directory) :=
    hcounts.sound.reached_above hcounts.way.found (List.append_assoc _ _ _ ▸ hheld) hfind
      List.prefix_rfl
  rw [← Path.child_below] at hmem hapart hlink hfind ⊢
  have hkept := hcounts.not_removes hnames hway hmem hapart
  have hname := hcounts.sound.named hheld
  by_cases hother : ∃ target, held = .link target
  · obtain ⟨target, rfl⟩ := hother
    refine hlink ?_
    exact ask_of_present (itself_of_found hname hdir hheld hfind) _
  · have hroot := hcounts.way.below hcounts.sound hdir fun front hfront hremoves =>
      hkept (hremoves.below (by simpa using hfront.trans (List.prefix_append way [name])))
    refine hroot.child hname (fun _ _ => hkept) fun target hentry => hother ⟨target, ?_⟩
    exact Option.some.inj (hheld.symm.trans hentry)

end Counts

end Engine

/-- Where no command changes anything, a walk that cannot count its scripts changes nothing, and
otherwise every script that has been counted holds the same bytes in the end, however the walk ends
-- apart from those at or below an artifact of another one, and from the open log -- provided that
neither the path of the directory nor what a script that is a link leads to runs through anything
that the runs take away. -/
theorem processDirectory_spares {engine : Engine σ} {root : Path} {w : World σ}
    (hidle : engine.runner.KeepsDisk) (hout : Path.Component engine.settings.outputDirName) :
    (∀ fault, Scan.scripts engine.rules w.disk root = .error fault →
      (engine.processDirectory root).final w = w) ∧
    ∀ base counted, engine.Counts w.disk root base counted →
      (∀ other ∈ counted, other.name ≠ engine.settings.outputDirName) →
      ∀ file ∈ counted, engine.Apart counted file →
        (w.disk.isLink file = .ok true →
          w.disk.Treads (¬engine.Removes w.disk root base counted ·) file) →
        w.disk.Unlogged file →
        ∃ bytes, w.disk.content? file = some bytes ∧
          ((engine.processDirectory root).final w).disk.content? file = some bytes := by
  refine ⟨fun fault => processDirectory_of_uncounted, ?_⟩
  intro base counted hcounts hnames file hmem hapart hlink hlog
  obtain ⟨names, -, rfl, hscript⟩ := (hcounts.inventory.mem_iff _).mp hmem
  obtain ⟨place, bytes, access, hfind⟩ :=
    isFile_eq_true_iff.mp (Scan.isScript_eq_true_iff.mp hscript).2.1
  have hcontent := content?_eq_some_iff.mpr ⟨place, access, hfind⟩
  exact ⟨bytes, hcontent, (processDirectory_loses hidle hout hcounts).content?
    (hcounts.treads hnames hmem hapart hlink) hlog hcontent⟩

section Samples

theorem Sample.runner_keepsDisk : (Sample.runner id).KeepsDisk := fun _ _ _ => rfl

/-- The scripts of a directory, the first of them a link to the second. -/
def Sample.restagedScripts : List Path := [locPath ["d", "a.js"], locPath ["d", "x", "b.js"]]

theorem Sample.restaged_counts :
    Sample.tidying.Counts Sample.restaged (locPath ["d"]) ["d"] restagedScripts where
  sound := by decide
  slashless := by decide
  readable := by decide
  way := by
    have hway : Sample.restaged.Through (Sample.tidying.Spares ["d"]) (locPath ["d"]) ["d"] :=
      ⟨by decide, [], rfl, .down (by decide) ⟨by decide, nofun⟩ (by decide) (by decide)
        (.arrive (by decide) ⟨by decide, nofun⟩)⟩
    exact hway.along.mono fun _ hspares => hspares.not_removes
  scripts := Except.eq_ok_of_toOption (by decide +kernel)
  searchable _ _ _ := Sample.restaged_searchable rfl

theorem Sample.restaged_apart : ∀ file ∈ restagedScripts, Sample.tidying.Apart restagedScripts file := by
  unfold Engine.Apart
  decide

/-- What the link among the scripts leads to stays too. -/
theorem Sample.restaged_treads : Sample.restaged.Treads
    (¬Sample.tidying.Removes Sample.restaged (locPath ["d"]) ["d"] restagedScripts ·)
    (locPath ["d", "a.js"]) := by
  have hcounts := restaged_counts
  have hnames : ∀ other ∈ restagedScripts,
      other.name ≠ Sample.tidying.settings.outputDirName := by decide
  have hlink : ¬Sample.tidying.Removes Sample.restaged (locPath ["d"]) ["d"] restagedScripts
      (["d"] ++ [] ++ ["a.js"]) :=
    hcounts.not_removes hnames (.stay _) (by decide) (restaged_apart _ (by decide))
  have hfile : ¬Sample.tidying.Removes Sample.restaged (locPath ["d"]) ["d"] restagedScripts
      (["d"] ++ ["x"] ++ ["b.js"]) :=
    hcounts.not_removes hnames (.down (by decide) (by decide) (.stay _)) (by decide)
      (restaged_apart _ (by decide))
  have hnext : ¬Sample.tidying.Removes Sample.restaged (locPath ["d"]) ["d"]
      restagedScripts ["d", "x"] :=
    fun hremoves => hfile (hremoves.below (by decide))
  have hdirectory : Sample.restaged.tree.get? ["d", "x"] = some .directory := by decide
  obtain ⟨start, hstart, hkeeps⟩ := hcounts.way.way
  refine ⟨start, hstart, hkeeps.child hcounts.way.found hstart (by decide) (fun _ _ => hlink) ?_⟩
  rintro target ⟨path, _⟩ hheld rfl
  obtain rfl : target = "x/b.js" := by
    have htarget : Sample.restaged.tree.get? ["d", "a.js"] = some (.link "x/b.js") := by decide
    exact (Entry.link.inj (Option.some.inj (htarget.symm.trans hheld))).symm
  have hpasses : Sample.restaged.tree.Passes
      (¬Sample.tidying.Removes Sample.restaged (locPath ["d"]) ["d"]
        restagedScripts ·) ["d"] ["x"] ["d", "x"] :=
    .down (by decide) hcounts.way.holds (by decide) (by decide) (.arrive hdirectory hnext)
  have hdown : Keeps Sample.restaged.tree (¬Sample.tidying.Removes Sample.restaged (locPath ["d"])
      ["d"] restagedScripts ·) ⟨path, ["d"]⟩ ["x"] := .of_passes hpasses
  refine hdown.append fun mid hmid => (?_ : Keeps _ _ mid ["b.js"])
  have hroute : Disk.route Sample.restaged.tree .followed 0 ["d"] ["x"] =
      .ok (.present ["d", "x"] .directory) := by decide +kernel
  obtain ⟨_, hend⟩ := hmid.route hroute
  obtain ⟨_, _⟩ := mid
  cases eq_of_route_nil hend
  refine .single (by decide) hnext (fun _ _ => hfile) fun target hlink => ?_
  have hbytes : Sample.restaged.tree.get? ["d", "x", "b.js"] = some (.file [98] {}) := by decide
  cases hbytes.symm.trans hlink

theorem restaged_scripts_spared :
    Sample.tidying.runner.KeepsDisk ∧ Path.Component "output_dir" ∧
      Sample.tidying.Counts Sample.restaged (locPath ["d"]) ["d"] Sample.restagedScripts ∧
      (∀ file ∈ Sample.restagedScripts, file.name ≠ "output_dir" ∧
        Sample.tidying.Apart Sample.restagedScripts file ∧ Sample.restaged.Unlogged file) ∧
      Sample.restaged.isLink (locPath ["d", "a.js"]) = .ok true ∧
      Sample.restaged.isLink (locPath ["d", "x", "b.js"]) = .ok false ∧
      ∀ file ∈ Sample.restagedScripts, Sample.restaged.content? file = some [98] ∧
        ((Sample.tidying.processDirectory (locPath ["d"])).final
          (Sample.provided Sample.restaged)).disk.content? file = some [98] := by
  have hlog (file : Path) : Sample.restaged.Unlogged file := fun _ _ _ => nofun
  have hnames : ∀ file ∈ Sample.restagedScripts, file.name ≠ "output_dir" := by decide
  have hlinks : Sample.restaged.isLink (locPath ["d", "a.js"]) = .ok true ∧
      Sample.restaged.isLink (locPath ["d", "x", "b.js"]) = .ok false := ⟨by rfl, by rfl⟩
  refine ⟨Sample.runner_keepsDisk, by decide, Sample.restaged_counts,
    fun file hfile => ⟨hnames file hfile, Sample.restaged_apart file hfile, hlog file⟩, hlinks.1,
    hlinks.2, fun file hfile => ?_⟩
  have hcontent : ∀ file ∈ Sample.restagedScripts, Sample.restaged.content? file = some [98] := by
    decide +kernel
  have hmeant : Sample.restaged.isLink file = .ok true →
      Sample.restaged.Treads (¬Sample.tidying.Removes Sample.restaged (locPath ["d"]) ["d"]
        Sample.restagedScripts ·) file := by
    intro hlink
    rcases List.mem_pair.mp hfile with rfl | rfl
    · exact Sample.restaged_treads
    · cases hlinks.2.symm.trans hlink
  obtain ⟨bytes, hbytes, hkept⟩ :=
    (processDirectory_spares (w := Sample.provided Sample.restaged) Sample.runner_keepsDisk
      (by decide)).2 _ _ Sample.restaged_counts hnames file hfile
        (Sample.restaged_apart file hfile) hmeant (hlog file)
  cases (hcontent file hfile).symm.trans hbytes
  exact ⟨hbytes, hkept⟩

/-- Where all is swept from where one works, the scripts of a directory inside a staging directory
are gone after the first of them, though the scan does find them; and a script that is a link into
a staging directory leads nowhere after it has been processed itself. -/
theorem scripts_lost_by_sweeps :
    let engine := Sample.engine (Sample.runner id) [Step.custom ["tidy"]]
      { cleanupScope := .workingDirectory }
    let root : Path := ⟨.here, ["output_dir", "d"]⟩
    let counted := [root.child "a.js", root.child "b.js"]
    let w := Sample.provided (Sample.disk [(["output_dir"], .directory),
      (["output_dir", "d"], .directory), (["output_dir", "d", "a.js"], .file [97] {}),
      (["output_dir", "d", "b.js"], .file [98] {})])
    let link : Path := ⟨.here, ["n.js"]⟩
    let w' := Sample.provided (Sample.disk [(["n.js"], .link "output_dir/x.js"),
      (["output_dir"], .directory), (["output_dir", "x.js"], .file [120] {})])
    engine.runner.KeepsDisk ∧ Sample.tidying.runner.KeepsDisk ∧
      (w.disk.WellFormed ∧ w.disk.tree.Linkless ∧
        Scan.scripts engine.rules w.disk root = .ok counted ∧
        (∀ other ∈ counted, other.name ≠ "output_dir") ∧
        engine.Apart counted (root.child "b.js") ∧
        w.disk.content? (root.child "b.js") = some [98] ∧
        ((engine.processDirectory root).final w).disk.content? (root.child "b.js") = none) ∧
      (w'.disk.WellFormed ∧
        Scan.scripts Sample.tidying.rules w'.disk ⟨.here, []⟩ = .ok [link] ∧
        link.name ≠ "output_dir" ∧ Sample.tidying.Apart [link] link ∧
        w'.disk.content? link = some [120] ∧
        ((Sample.tidying.processDirectory ⟨.here, []⟩).final w').disk.content? link = none) := by
  intro engine root counted w link w'
  refine ⟨Sample.runner_keepsDisk, Sample.runner_keepsDisk,
    ⟨⟨by decide, by decide⟩, by decide, Except.eq_ok_of_toOption (by decide +kernel), by decide, ?_,
      by decide +kernel, by decide +kernel⟩,
    ⟨by decide, by decide⟩, Except.eq_ok_of_toOption (by decide +kernel), by decide, ?_,
      by decide +kernel, by decide +kernel⟩
  · unfold Engine.Apart
    decide
  · unfold Engine.Apart
    decide

end Samples

end Unscramble
