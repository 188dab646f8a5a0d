import Unscramble.Proofs.Disk.Surrounds
import Unscramble.Proofs.Staging

/-!
# A run stays with its file

As long as the commands for a file change nothing but the file and its artifacts, and
make no links, the steps stay there too: what they remove and move lies at the file or
at an artifact.  Whatever else a run takes away, its last sweep does.
-/

namespace Unscramble

open Disk Workspace

variable {σ : Type} {file : Path} {outputName : String} {dir loc : Loc} {base disk disk' : Disk}

/-- The locations of a file and of its artifacts. -/
def fileLocs (file : Path) (outputName : String) (dir : Loc) : List Loc :=
  (dir ++ [file.name]) :: artifactLocs file outputName dir

theorem ne_nil_of_mem_fileLocs (hloc : loc ∈ fileLocs file outputName dir) : loc ≠ [] := by
  rcases List.mem_cons.mp hloc with rfl | hartifact
  · simp
  · exact ne_nil_of_mem_artifactLocs hartifact

theorem inside_fileLocs (hloc : Inside (artifactLocs file outputName dir) loc) :
    Inside (fileLocs file outputName dir) loc := by
  obtain ⟨artifact, hartifact, hpre⟩ := hloc
  exact ⟨artifact, List.mem_cons_of_mem _ hartifact, hpre⟩

theorem inside_artifact {name : String} (hname : name ∈ artifactNames file outputName)
    (below : Loc) : Inside (artifactLocs file outputName dir) (dir ++ name :: below) :=
  ⟨dir ++ [name], List.mem_map_of_mem hname, by simp⟩

theorem inside_file : Inside (fileLocs file outputName dir) (dir ++ [file.name]) :=
  ⟨_, List.mem_cons_self, List.prefix_rfl⟩

/-- Where a name in a directory that is reached lies. -/
theorem Disk.loc_of_found_child {path : Path} {name : String} {found : Found}
    (hdir : disk.find .followed path = .ok (.present dir .directory)) (hname : Path.Ordinary name)
    (hfind : disk.find .itself (path.child name) = .ok found) :
    found = .vacant (dir ++ [name]) ∨ ∃ entry, found = .present (dir ++ [name]) entry := by
  obtain ⟨p, hp, -, ⟨rfl, -⟩ | ⟨entry, rfl, -⟩⟩ := reached_of_find_child hname hfind
  all_goals
    rw [hdir] at hp
    cases hp
  · exact .inl rfl
  · exact .inr ⟨entry, rfl⟩

/-- Output lies inside the artifacts, unless they hold a link. -/
theorem Disk.inside_of_output {artifact : Path} {entry : Entry}
    (hdir : disk.find .followed file.parent = .ok (.present dir .directory))
    (hunlinked : ∀ loc target, Inside (artifactLocs file outputName dir) loc →
      disk.tree.get? loc ≠ some (.link target))
    (hout : Path.Component outputName) (hartifact : artifact ∈ outputPlaces file outputName)
    (hfind : disk.find .itself artifact = .ok (.present loc entry)) :
    Inside (artifactLocs file outputName dir) loc := by
  have hlinks : ∀ name ∈ artifactNames file outputName, ∀ q target,
      disk.find .itself (file.parent.child name) ≠ .ok (.present q (.link target)) := by
    intro name hname q target hlink
    have hordinary := ordinary_of_mem_artifactNames hout hname
    rcases loc_of_found_child hdir hordinary hlink with h | ⟨_, h⟩
    · cases h
    · cases h
      exact hunlinked _ target (inside_artifact hname []) (find_fits hlink)
  obtain ⟨p, next, below, hp, rfl, hnext⟩ := place_of_found_itself hout hlinks hartifact hfind
  rw [hdir] at hp
  cases hp
  exact inside_artifact hnext below

/-! ## Around a file -/

/-- The disk consists of `base` and of what lies at the file and its artifacts, in a
directory that `base` reaches. -/
structure Disk.Around (file : Path) (outputName : String) (dir : Loc) (base disk : Disk) : Prop
    extends Surrounds (fileLocs file outputName dir) base disk where
  reached : base.find .followed file.parent = .ok (.present dir .directory)

/-- In addition no artifact holds a link. -/
structure Disk.Confined (file : Path) (outputName : String) (dir : Loc) (base disk : Disk) : Prop
    extends Around file outputName dir base disk where
  unlinked : ∀ loc target, Inside (artifactLocs file outputName dir) loc →
    disk.tree.get? loc ≠ some (.link target)

namespace Disk.Around

variable (haround : Around file outputName dir base disk)

include haround

theorem reached_whole : disk.find .followed file.parent = .ok (.present dir .directory) :=
  haround.toSurrounds.reached haround.reached

/-- Where a name next to the file lies. -/
theorem loc_of_child {name : String} (hname : Path.Ordinary name) {found : Found}
    (hfind : disk.find .itself (file.parent.child name) = .ok found) :
    found = .vacant (dir ++ [name]) ∨ ∃ entry, found = .present (dir ++ [name]) entry :=
  loc_of_found_child haround.reached_whole hname hfind

theorem loc_of_free {name : String} (hname : Path.Ordinary name)
    (hfree : disk.Free (file.parent.child name) loc) : loc = dir ++ [name] := by
  rcases hfree with hfree | ⟨_, hfree, -⟩ <;>
    rcases haround.loc_of_child hname hfree with h | ⟨_, h⟩ <;> cases h <;> rfl

theorem logged (line : String) : Around file outputName dir base (disk.logged line) :=
  ⟨haround.toSurrounds.logged line, haround.reached⟩

theorem eraseWithin (hloc : Inside (fileLocs file outputName dir) loc) (hne : loc ≠ []) :
    Around file outputName dir base (disk.eraseWithin loc) :=
  ⟨haround.toSurrounds.eraseWithin hloc hne, haround.reached⟩

theorem eraseBelow (hloc : Inside (fileLocs file outputName dir) loc)
    (hheld : disk.tree.get? loc = some .directory) :
    Around file outputName dir base (disk.eraseBelow loc) :=
  ⟨haround.toSurrounds.eraseBelow hloc hheld, haround.reached⟩

end Disk.Around

namespace Disk.Confined

variable (hconfined : Confined file outputName dir base disk)

include hconfined

theorem logged (line : String) : Confined file outputName dir base (disk.logged line) where
  toAround := hconfined.toAround.logged line
  unlinked q target hq hlink :=
    hconfined.unlinked q target hq ((disk.thinner_logged line).held_link hlink)

/-- A disk on which entries have been taken away. -/
theorem of_fewer (haround : Around file outputName dir base disk')
    (hfewer : ∀ q, disk'.tree.get? q = none ∨ disk'.tree.get? q = disk.tree.get? q) :
    Confined file outputName dir base disk' where
  toAround := haround
  unlinked q target hq hlink := by
    rcases hfewer q with hgone | hsame
    · rw [hgone] at hlink
      cases hlink
    · exact hconfined.unlinked q target hq (hsame ▸ hlink)

theorem eraseWithin (hloc : Inside (fileLocs file outputName dir) loc) (hne : loc ≠ []) :
    Confined file outputName dir base (disk.eraseWithin loc) := by
  refine hconfined.of_fewer (hconfined.toAround.eraseWithin hloc hne) fun q => ?_
  rw [get?_within _ hne]
  split
  · exact .inl rfl
  · exact .inr rfl

theorem eraseBelow (hloc : Inside (fileLocs file outputName dir) loc)
    (hheld : disk.tree.get? loc = some .directory) :
    Confined file outputName dir base (disk.eraseBelow loc) := by
  refine hconfined.of_fewer (hconfined.toAround.eraseBelow hloc hheld) fun q => ?_
  rw [get?_below]
  split
  · exact .inl rfl
  · exact .inr rfl

/-- A promotion over the file stays with it. -/
theorem promoted {artifact : Path} (hout : Path.Component outputName)
    (hname : Path.Ordinary file.name) (hartifact : artifact ∈ outputPlaces file outputName)
    (hpromoted : Promoted artifact (file.parent.child file.name) disk disk') :
    Confined file outputName dir base disk' := by
  have hdir := hconfined.reached_whole
  cases hpromoted with
  | unchanged => exact hconfined
  | discarded hfind hentry =>
    refine hconfined.eraseWithin
      (inside_fileLocs (inside_of_output hdir hconfined.unlinked hout hartifact hfind)) ?_
    exact Tree.ne_nil_of_get? (find_fits hfind) hentry
  | cleared hfind hentry =>
    rcases hconfined.loc_of_child hname hfind with h | ⟨_, h⟩ <;> cases h
    exact hconfined.eraseWithin inside_file (by simp)
  | @moved a b entry hfind hentry hfree hab =>
    have ha := inside_of_output hdir hconfined.unlinked hout hartifact hfind
    have hheld : disk.tree.get? a = some entry := find_fits hfind
    obtain rfl := hconfined.loc_of_free hname hfree
    obtain ⟨p, next, hplace, hnext, hp, hold⟩ := hfree.place hconfined.sound
    have hsound := hconfined.sound.move hheld hentry hp hnext (hplace ▸ hold)
    rw [← hplace] at hsound
    refine ⟨⟨?_, hconfined.reached⟩, fun q target hq hlink => ?_⟩
    · exact hconfined.toSurrounds.move hheld hentry hold hsound (inside_fileLocs ha)
        inside_file
    · rw [hconfined.sound.get?_move hheld hentry hold] at hlink
      split at hlink
      · cases hlink
        exact hconfined.unlinked a target ha hheld
      · split at hlink
        · cases hlink
        · exact hconfined.unlinked q target hq hlink

end Disk.Confined

/-! ## The parts of a run -/

/-- What lies around a file and its artifacts stays as it is, and no new link lies at an
artifact. -/
def World.StaysAround (file : Path) (outputName : String) (dir : Loc) (base : Disk)
    (w w' : World σ) : Prop :=
  Around file outputName dir base w.disk → Around file outputName dir base w'.disk ∧
    ∀ loc target, Inside (artifactLocs file outputName dir) loc →
      w'.disk.tree.get? loc = some (.link target) → w.disk.tree.get? loc = some (.link target)

/-- So it does, and the artifacts stay without links. -/
def World.StaysConfined (file : Path) (outputName : String) (dir : Loc) (base : Disk)
    (w w' : World σ) : Prop :=
  Confined file outputName dir base w.disk → Confined file outputName dir base w'.disk

instance : IsPreorder (World σ) (World.StaysAround file outputName dir base) where
  refl _ haround := ⟨haround, fun _ _ _ => id⟩
  trans _ _ _ hab hbc haround := by
    obtain ⟨haround', hlinks⟩ := hab haround
    obtain ⟨haround'', hlinks'⟩ := hbc haround'
    exact ⟨haround'', fun loc target hloc hlink =>
      hlinks loc target hloc (hlinks' loc target hloc hlink)⟩

instance : IsPreorder (World σ) (World.StaysConfined file outputName dir base) where
  refl _ := id
  trans _ _ _ hab hbc := hbc ∘ hab

/-- Removing an artifact erases it, or what it holds. -/
theorem remove_artifact_final {name : String} {w : World σ} (hsound : w.disk.Sound)
    (hdir : w.disk.find .followed file.parent = .ok (.present dir .directory))
    (hout : Path.Component outputName) (hname : name ∈ artifactNames file outputName) :
    ∃ disk', (Act.remove (file.parent.child name) : Act σ Bool).final w =
        { w with disk := disk' } ∧
      (disk' = w.disk ∨ disk' = w.disk.eraseWithin (dir ++ [name]) ∨
        w.disk.tree.get? (dir ++ [name]) = some .directory ∧
          disk' = w.disk.eraseBelow (dir ++ [name])) := by
  have hordinary := ordinary_of_mem_artifactNames hout hname
  rcases Act.remove_child_cases file.parent hsound hordinary with
    ⟨-, hremove⟩ | ⟨-, fault, hremove⟩ | ⟨loc, entry, hfind, hremove⟩ |
      ⟨loc, hfind, -, fault, hremove⟩
  · exact ⟨w.disk, Act.final_of_ok hremove, .inl rfl⟩
  · exact ⟨w.disk, Act.final_of_error hremove, .inl rfl⟩
  · rcases loc_of_found_child hdir hordinary hfind with h | ⟨_, h⟩ <;> cases h
    exact ⟨_, Act.final_of_ok hremove, .inr (.inl rfl)⟩
  · rcases loc_of_found_child hdir hordinary hfind with h | ⟨_, h⟩ <;> cases h
    exact ⟨_, Act.final_of_error hremove, .inr (.inr ⟨find_fits hfind, rfl⟩)⟩

/-- What holds over the removal of every artifact holds over a release. -/
theorem release_ofFile_within {R : World σ → World σ → Prop} [IsPreorder (World σ) R]
    (hfile : file.name ≠ "") (hout : Path.Component outputName)
    (hremove : ∀ name ∈ artifactNames file outputName,
      (Act.remove (file.parent.child name) : Act σ Bool).Within R) :
    ((ofFile file outputName).release : Act σ Unit).Within R := by
  rw [release_ofFile hfile hout]
  refine Act.within_forM fun artifact hartifact => ?_
  obtain ⟨name, hname, rfl⟩ := List.mem_map.mp hartifact
  exact Act.within_bind (hremove name hname) fun _ => Act.within_pure _

/-- What holds over promotions of output and the removal of the temporary artifact holds over
bringing output back. -/
theorem reconcile_ofFile {P : {α : Type} → Act σ α → Prop} (hcompose : Act.Composes P)
    (hfile : file.name ≠ "") (hout : Path.Component outputName)
    (hpromote : ∀ artifact ∈ outputPlaces file outputName, P (promote artifact file : Act σ Bool))
    (hask : P (Act.ask Disk.isDirectory (file.parent.child (file.name ++ ".temp")) : Act σ Bool))
    (hremove : P (Act.remove (file.parent.child (file.name ++ ".temp")) : Act σ Bool))
    (convention : Convention) :
    P (convention.reconcile (ofFile file outputName) : Act σ (Option Path)) := by
  refine hcompose.reconcile convention (sibling_ofFile hfile ".temp")
    (sibling_ofFile hfile ".deobfuscated.js") (fun source hsource => hpromote source ?_) hask hremove
  simpa [Convention.sources, outputPlaces, outputDir_ofFile hout] using hsource

section Parts

variable {name : String}

theorem remove_around (hout : Path.Component outputName)
    (hname : name ∈ artifactNames file outputName) :
    (Act.remove (file.parent.child name) : Act σ Bool).Within
      (World.StaysAround file outputName dir base) := by
  intro w haround
  have hinside : Inside (fileLocs file outputName dir) (dir ++ [name]) :=
    inside_fileLocs (inside_artifact hname [])
  obtain ⟨disk', hfinal, rfl | rfl | ⟨hheld, rfl⟩⟩ :=
      remove_artifact_final haround.sound haround.reached_whole hout hname <;> rw [hfinal]
  · exact ⟨haround, fun _ _ _ => id⟩
  · exact ⟨haround.eraseWithin hinside (by simp),
      fun _ _ _ => (w.disk.thinner_eraseWithin (by simp)).held_link⟩
  · exact ⟨haround.eraseBelow hinside hheld,
      fun _ _ _ => (w.disk.thinner_eraseBelow (dir ++ [name])).held_link⟩

theorem remove_confined (hout : Path.Component outputName)
    (hname : name ∈ artifactNames file outputName) :
    (Act.remove (file.parent.child name) : Act σ Bool).Within
      (World.StaysConfined file outputName dir base) := by
  intro w hconfined
  have hinside : Inside (fileLocs file outputName dir) (dir ++ [name]) :=
    inside_fileLocs (inside_artifact hname [])
  obtain ⟨disk', hfinal, rfl | rfl | ⟨hheld, rfl⟩⟩ :=
      remove_artifact_final hconfined.sound hconfined.reached_whole hout hname <;> rw [hfinal]
  · exact hconfined
  · exact hconfined.eraseWithin hinside (by simp)
  · exact hconfined.eraseBelow hinside hheld

theorem say_around (reporter : Reporter) (level : Level) (message : String) :
    (reporter.say level message : Act σ Unit).Within
      (World.StaysAround file outputName dir base) := by
  intro w haround
  rw [Act.final_of_ok (reporter.say_eq level message w)]
  exact ⟨haround.logged _, fun _ _ _ => (w.disk.thinner_logged _).held_link⟩

theorem say_confined (reporter : Reporter) (level : Level) (message : String) :
    (reporter.say level message : Act σ Unit).Within
      (World.StaysConfined file outputName dir base) := by
  intro w hconfined
  rw [Act.final_of_ok (reporter.say_eq level message w)]
  exact hconfined.logged _

theorem release_around (hfile : file.name ≠ "") (hout : Path.Component outputName) :
    ((ofFile file outputName).release : Act σ Unit).Within
      (World.StaysAround file outputName dir base) :=
  release_ofFile_within hfile hout fun _ => remove_around hout

theorem promote_confined {artifact : Path} (hout : Path.Component outputName)
    (hname : Path.Ordinary file.name) (hartifact : artifact ∈ outputPlaces file outputName) :
    (promote artifact file : Act σ Bool).Within
      (World.StaysConfined file outputName dir base) := by
  intro w hconfined
  obtain ⟨disk', hfinal, hpromoted⟩ := promote_final artifact file.parent hconfined.sound hname
  rw [Path.child_parent (Path.ordinary_ne_empty hname)] at hfinal
  rw [hfinal]
  exact hconfined.promoted hout hname hartifact hpromoted

theorem reconcile_confined (hout : Path.Component outputName) (hname : Path.Ordinary file.name)
    (convention : Convention) :
    (convention.reconcile (ofFile file outputName) : Act σ (Option Path)).Within
      (World.StaysConfined file outputName dir base) :=
  reconcile_ofFile (Act.composes_within _) (Path.ordinary_ne_empty hname) hout
    (fun _ => promote_confined hout hname) (Act.within_look _)
    (remove_confined hout (by simp [artifactNames])) convention

end Parts

/-! ## Commands -/

/-- The disk has changed at the file and at its artifacts only, and there is no new link. -/
structure Disk.ChangedAt (file : Path) (outputName : String) (dir : Loc) (disk disk' : Disk) :
    Prop where
  sound : disk'.Sound
  same : disk'.without (fileLocs file outputName dir) = disk.without (fileLocs file outputName dir)
  links : ∀ loc target, disk'.tree.get? loc = some (.link target) →
    disk.tree.get? loc = some (.link target)

namespace Engine

variable {engine : Engine σ}

/-- A step runs the command on the file. -/
def IsFor (engine : Engine σ) (file : Path) (command : Command) : Prop :=
  ∃ step ∈ engine.steps, ∃ argv,
    step.command (.ofFile file engine.settings.outputDirName) = .ok argv ∧
      command = { argv, cwd := file.parent }

/-- No other commands than those of steps change anything. -/
def OnlyStepsChange (engine : Engine σ) : Prop :=
  ∀ command, (∀ file, ¬engine.IsFor file command) → ∀ disk tools,
    (engine.runner command disk tools).2.1 = disk

/-- The commands for a file change nothing but the file and its artifacts, and make no links;
other commands change nothing. -/
structure Contained (engine : Engine σ) : Prop where
  tools : ∀ file command, engine.IsFor file command → ∀ disk tools dir, disk.Sound →
    disk.find .followed file.parent = .ok (.present dir .directory) →
      ChangedAt file engine.settings.outputDirName dir disk
        (engine.runner command disk tools).2.1
  others : engine.OnlyStepsChange

theorem run_confined (hcontained : engine.Contained) {command : Command}
    (hcommand : engine.IsFor file command) :
    (engine.run command).Within
      (World.StaysConfined file engine.settings.outputDirName dir base) := by
  intro w hconfined
  have hchange := hcontained.tools file command hcommand w.disk w.tools dir hconfined.sound
    hconfined.reached_whole
  rw [final_run]
  refine ⟨⟨?_, hconfined.reached⟩, fun loc target hloc hlink => ?_⟩
  · exact hconfined.toSurrounds.of_without_eq (fun loc => ne_nil_of_mem_fileLocs)
      (fun loc hloc => ⟨loc, hloc, List.prefix_rfl⟩) hchange.sound hchange.same
  · exact hconfined.unlinked loc target hloc (hchange.links loc target hlink)

theorem runSteps_confined (hcontained : engine.Contained)
    (hout : Path.Component engine.settings.outputDirName) (hname : Path.Ordinary file.name)
    (total index : Nat) :
    (engine.runSteps (.ofFile file engine.settings.outputDirName) total index
      engine.steps).Within (World.StaysConfined file engine.settings.outputDirName dir base) :=
  (Act.composes_within _).runSteps (fun level message => say_confined engine.reporter level message)
    (fun step hstep argv hargv => run_confined hcontained ⟨step, hstep, argv, hargv, rfl⟩)
    fun convention => reconcile_confined hout hname convention

end Engine

/-! ## A whole run -/

section Staging

variable {w w' : World σ}

/-- Nothing lies where nothing is found next to a file. -/
theorem Disk.free_of_missing {name : String}
    (hdir : disk.find .followed file.parent = .ok (.present dir .directory))
    (hname : Path.Ordinary name) (hnul : (file.parent.child name).hasNul = false)
    (hmissing : Missing (disk.find .itself (file.parent.child name))) :
    disk.find .itself (file.parent.child name) = .ok (.vacant (dir ++ [name])) ∧
      disk.tree.get? (dir ++ [name]) = none := by
  rcases hmissing with ⟨loc, hfree⟩ | ⟨why, herror, hwhy⟩
  · rcases loc_of_found_child hdir hname hfree with h | ⟨_, h⟩ <;> cases h
    exact ⟨hfree, (find_fits hfree).1⟩
  · exfalso
    by_cases hpath : (file.parent.child name).Nameable
    · rw [find_child hname hpath, hdir] at herror
      simp only [lookUp] at herror
      split at herror
      · cases herror
        cases hwhy
      · split at herror <;> cases herror
    · rw [find_of_not_nameable hpath, hnul] at herror
      cases herror
      cases hwhy

/-- Once the workspace has been released, nothing lies at the artifacts, and the staging directory is
made. -/
theorem staged_of_release (hsound : w.disk.Sound) (hfile : Path.Ordinary file.name)
    (hout : Path.Component outputName) (hnul : file.hasNul = false)
    (hrelease : ((ofFile file outputName).release : Act σ Unit) w = .ok () w')
    (hdir : w'.disk.find .followed file.parent = .ok (.present dir .directory)) :
    (∀ loc, Inside (artifactLocs file outputName dir) loc → w'.disk.tree.get? loc = none) ∧
      (∀ name ∈ artifactNames file outputName,
        w'.disk.find .itself (file.parent.child name) = .ok (.vacant (dir ++ [name]))) ∧
      Act.makeDirectories (ofFile file outputName).outputDir.parts.length
        (ofFile file outputName).outputDir w' =
          .ok () { w' with disk := w'.disk.insert (dir ++ [outputName]) .directory } ∧
      (w'.disk.insert (dir ++ [outputName]) .directory).Sound := by
  have hname := Path.ordinary_ne_empty hfile
  obtain ⟨disk', hfinal, hsound', -, hmissing⟩ := release_final hsound hname hout
  rw [Act.final_of_ok hrelease] at hfinal
  subst hfinal
  have hfree (name : String) (hmem : name ∈ artifactNames file outputName) :
      disk'.find .itself (file.parent.child name) = .ok (.vacant (dir ++ [name])) ∧
        disk'.tree.get? (dir ++ [name]) = none :=
    free_of_missing hdir (ordinary_of_mem_artifactNames hout hmem)
      (hasNul_artifact hname hout hnul hmem) (hmissing (.inl hrelease) name hmem)
  obtain ⟨hvacant, hnone⟩ := hfree outputName (by simp [artifactNames])
  have hmake : disk'.makeDirectory (ofFile file outputName).outputDir =
      .ok (disk'.insert (dir ++ [outputName]) .directory) := by
    rw [outputDir_ofFile hout, makeDirectory, hvacant]
    rfl
  refine ⟨?_, fun name hmem => (hfree name hmem).1, Act.makeDirectories_of_ok hmake _, ?_⟩
  · rintro loc ⟨artifact, hartifact, hpre⟩
    obtain ⟨name, hmem, rfl⟩ := List.mem_map.mp hartifact
    by_cases heq : dir ++ [name] = loc
    · exact heq ▸ (hfree name hmem).2
    · exact hsound'.missing_below (by simp [(hfree name hmem).2]) hpre heq
  · refine hsound'.insert (find_fits hdir) hout.1 (by simp [hnone]) fun hlog => ?_
    obtain ⟨bytes, access, hfile⟩ := hsound'.logging hlog
    rw [hnone] at hfile
    cases hfile

/-- Then nothing else lies at the artifacts. -/
theorem staging_confined (haround : Around file outputName dir base w.disk)
    (hfile : Path.Ordinary file.name) (hout : Path.Component outputName)
    (hnul : file.hasNul = false)
    (hrelease : ((ofFile file outputName).release : Act σ Unit) w = .ok () w') :
    ∃ w'', Act.makeDirectories (ofFile file outputName).outputDir.parts.length
        (ofFile file outputName).outputDir w' = .ok () w'' ∧
      Confined file outputName dir base w''.disk := by
  have haround' : Around file outputName dir base w'.disk := by
    have hstays : Around file outputName dir base
        (((ofFile file outputName).release : Act σ Unit).final w).disk :=
      (release_around (Path.ordinary_ne_empty hfile) hout w haround).1
    rwa [Act.final_of_ok hrelease] at hstays
  obtain ⟨hgone, -, hmake, hsound⟩ :=
    staged_of_release haround.sound hfile hout hnul hrelease haround'.reached_whole
  have hmem : outputName ∈ artifactNames file outputName := by simp [artifactNames]
  refine ⟨_, hmake, ⟨⟨?_, haround'.reached⟩, fun loc target hloc hlink => ?_⟩⟩
  · exact haround'.toSurrounds.insert (inside_fileLocs (inside_artifact hmem [])) (by simp) hsound
  · rw [get?_insert _ (by simp), hgone loc hloc] at hlink
    split at hlink <;> cases hlink

namespace Engine

variable {engine : Engine σ}

/-- Up to its last sweep a run changes nothing but the file and its artifacts. -/
theorem work_around (hcontained : engine.Contained)
    (hout : Path.Component engine.settings.outputDirName) (hfile : Path.Ordinary file.name)
    (hnul : file.hasNul = false) :
    (engine.work file).Within (World.StaysAround file engine.settings.outputDirName dir base) := by
  refine Act.within_bind (say_around _ _ _) fun _ w haround => ?_
  have hname := Path.ordinary_ne_empty hfile
  have hrelease : ((ofFile file engine.settings.outputDirName).release : Act σ Unit).Within
      (World.StaysAround file engine.settings.outputDirName dir base) :=
    release_around hname hout
  cases hrun : ((ofFile file engine.settings.outputDirName).release : Act σ Unit) w with
  | error fault w' =>
    have haround' := hrelease w haround
    rw [Act.final_of_error hrun] at haround'
    rwa [use, Act.final_bind_of_error hrun]
  | ok _ w' =>
    obtain ⟨w'', hmake, hconfined⟩ := staging_confined haround hfile hout hnul hrun
    rw [use, Act.final_bind_of_ok hrun, Act.final_bind_of_ok hmake, Act.final_always]
    have hsteps := runSteps_confined hcontained hout hfile engine.steps.length 1 w'' hconfined
    obtain ⟨haround', hlinks⟩ := hrelease _ hsteps.toAround
    exact ⟨haround', fun loc target hloc hlink =>
      absurd (hlinks loc target hloc hlink) (hsteps.unlinked loc target hloc)⟩

/-- Where the last sweep of a run starts, if the steps come to their end: in the directory of
the file, or in the place where one works then. -/
def sweepRoot? (engine : Engine σ) (file : Path) (dir : Loc) (w : World σ) : Option Loc :=
  match engine.work file w with
  | .error _ _ => none
  | .ok _ w' =>
    match engine.settings.cleanupScope with
    | .file => some dir
    | .workingDirectory => w'.disk.workingLoc?

/-- The last sweep of a run covers the location. -/
def Sweeps (engine : Engine σ) (file : Path) (dir : Loc) (w : World σ) (loc : Loc) : Prop :=
  ∃ root ∈ engine.sweepRoot? file dir w, Covered root engine.settings.outputDirName loc

instance (engine : Engine σ) (file : Path) (dir : Loc) (w : World σ) (loc : Loc) :
    Decidable (engine.Sweeps file dir w loc) :=
  inferInstanceAs (Decidable (∃ root ∈ engine.sweepRoot? file dir w, _))

/-- Sweep what is below a path and report the end of the run. -/
def sweepFrom (engine : Engine σ) (file : Path) (results : List StepResult) (root : Path) :
    Act σ Report := do
  engine.reporter.debug "Cleaning up temporary data..."
  discard (Sweep.sweep engine.reporter engine.settings.outputDirName root)
  engine.reporter.success "Deobfuscation and cleanup completed successfully."
  return ⟨file, results⟩

theorem conclude_eq (engine : Engine σ) (file : Path) (results : List StepResult) :
    engine.conclude file results = engine.sweepStart file >>= engine.sweepFrom file results := by
  have hdiscard {α : Type} (act : Act σ α) :
      (discard act : Act σ Unit) = act >>= fun _ => pure () := rfl
  unfold conclude sweepFrom
  rw [sweepAfter_eq]
  simp only [hdiscard, bind_assoc]

/-- After its steps a run only sweeps. -/
theorem conclude_swept (hsound : w.disk.Sound) {root : Loc}
    (hfile : engine.settings.cleanupScope = .file → w.disk.Leads file.parent root)
    (hcwd : engine.settings.cleanupScope = .workingDirectory →
      ∀ loc, w.disk.workingLoc? = some loc → loc = root)
    (results : List StepResult) :
    Swept root engine.settings.outputDirName w.disk
      ((engine.conclude file results).final w).disk := by
  have hsweep (path : Path) : (engine.sweepFrom file results path).Within
      (World.SweptFrom root engine.settings.outputDirName path root) :=
    Act.within_bind (Sweep.say_swept _ _) fun _ =>
      Act.within_bind (Act.within_bind (Sweep.sweep_swept engine.reporter _) fun _ =>
        Act.within_pure _) fun _ =>
          Act.within_bind (Sweep.say_swept _ _) fun _ => Act.within_pure _
  rw [conclude_eq, sweepStart]
  cases hscope : engine.settings.cleanupScope with
  | file => exact hsweep file.parent w hsound (hfile hscope)
  | workingDirectory =>
    cases hworking : w.disk.workingDirectory with
    | error fault =>
      rw [Act.final_bind_of_error (show (Act.workingDirectory : Act σ Path) w = .error fault w from
        Act.look_of_error hworking)]
      exact .refl hsound
    | ok path =>
      rw [Act.final_bind_of_ok (show (Act.workingDirectory : Act σ Path) w = .ok path w from
        Act.look_of_ok hworking)]
      refine hsweep path w hsound ?_
      rw [Disk.workingDirectory] at hworking
      split at hworking
      · next loc hloc =>
        cases hworking
        obtain rfl := hcwd hscope loc hloc
        exact hsound.leads_locPath (hsound.directory_of_workingLoc? hloc)
      · cases hworking

/-- Where the last sweep of a run starts when the steps have left this disk: in the directory of
the file, or in the place where one works, if there is one. -/
def sweepTop? (engine : Engine σ) (disk : Disk) (dir : Loc) : Option Loc :=
  match engine.settings.cleanupScope with
  | .file => some dir
  | .workingDirectory => disk.workingLoc?

/-- After its steps a run only sweeps, if it can tell from where. -/
theorem conclude_swept_from (hsound : w.disk.Sound) (hleads : w.disk.Leads file.parent dir)
    (results : List StepResult) :
    let final := ((engine.conclude file results).final w).disk
    final = w.disk ∨
      ∃ top ∈ engine.sweepTop? w.disk dir, Swept top engine.settings.outputDirName w.disk final := by
  cases hscope : engine.settings.cleanupScope with
  | file =>
    exact .inr ⟨dir, by simp [sweepTop?, hscope],
      conclude_swept hsound (fun _ => hleads) (by simp [hscope]) results⟩
  | workingDirectory =>
    cases hplace : w.disk.workingLoc? with
    | some place =>
      refine .inr ⟨place, by simp [sweepTop?, hscope, hplace],
        conclude_swept hsound (by simp [hscope]) (fun _ loc hloc => ?_) results⟩
      cases hplace.symm.trans hloc
      rfl
    | none =>
      have hlost : (Act.workingDirectory : Act σ Path) w = .error _ w :=
        Act.look_of_error (by rw [Disk.workingDirectory, hplace])
      left
      rw [conclude_eq, sweepStart, hscope, Act.final_bind_of_error hlost]

/-- What a run leaves when it has worked around its file; at most a sweep takes something away
after that. -/
theorem deobfuscate_worked (hcontained : engine.Contained)
    (hout : Path.Component engine.settings.outputDirName) (hfile : Path.Ordinary file.name)
    (hnul : file.hasNul = false)
    (haround : Around file engine.settings.outputDirName dir base w.disk) :
    let final := ((engine.deobfuscate file).final w).disk
    ∃ disk', Around file engine.settings.outputDirName dir base disk' ∧
      (∀ loc target, Inside (artifactLocs file engine.settings.outputDirName dir) loc →
        disk'.tree.get? loc = some (.link target) → w.disk.tree.get? loc = some (.link target)) ∧
      (final = disk' ∨ ∃ root ∈ engine.sweepRoot? file dir w,
        Swept root engine.settings.outputDirName disk' final) := by
  have hwork := work_around hcontained hout hfile hnul w haround
  rw [deobfuscate_eq]
  cases hrun : engine.work file w with
  | error fault w' =>
    rw [Act.final_of_error hrun] at hwork
    rw [Act.final_bind_of_error hrun]
    exact ⟨w'.disk, hwork.1, hwork.2, .inl rfl⟩
  | ok results w' =>
    rw [Act.final_of_ok hrun] at hwork
    rw [Act.final_bind_of_ok hrun]
    have hleads : w'.disk.Leads file.parent dir := leads_of_found hwork.1.reached_whole
    have hroot : engine.sweepRoot? file dir w = engine.sweepTop? w'.disk dir := by
      rw [sweepRoot?, hrun]
      rfl
    rw [hroot]
    exact ⟨w'.disk, hwork.1, hwork.2, conclude_swept_from hwork.1.sound hleads results⟩

/-- A run keeps every entry that lies neither at the file nor at an artifact, that its last
sweep does not cover, and that is not the debug log. -/
theorem deobfuscate_keeps (hcontained : engine.Contained)
    (hout : Path.Component engine.settings.outputDirName) (hfile : Path.Ordinary file.name)
    (hnul : file.hasNul = false) (hsound : w.disk.Sound)
    (hdir : (w.disk.without (fileLocs file engine.settings.outputDirName dir)).find .followed
      file.parent = .ok (.present dir .directory))
    (hoff : ¬Inside (fileLocs file engine.settings.outputDirName dir) loc)
    (hswept : ¬engine.Sweeps file dir w loc) (hlog : w.disk.log ≠ some loc) :
    let disk' := ((engine.deobfuscate file).final w).disk
    disk'.Sound ∧ disk'.log ≠ some loc ∧ disk'.tree.get? loc = w.disk.tree.get? loc := by
  obtain ⟨disk', haround, -, hend⟩ := deobfuscate_worked hcontained hout hfile hnul
    ⟨surrounds_without hsound fun loc => ne_nil_of_mem_fileLocs, hdir⟩
  have hbase : (w.disk.without (fileLocs file engine.settings.outputDirName dir)).log ≠
      some loc := by
    intro hopen
    rw [log_without] at hopen
    exact hlog (Surrounds.log_of_filter hopen)
  have hlog' : disk'.log ≠ some loc := fun hopen => (haround.log loc hopen).elim hoff hbase
  have hkept : disk'.tree.get? loc = w.disk.tree.get? loc := by
    rw [haround.kept loc hoff hbase, get?_without_zone (fun loc => ne_nil_of_mem_fileLocs),
      if_neg hoff]
  rcases hend with heq | ⟨root, hroot, hafter⟩
  · rw [heq]
    exact ⟨haround.sound, hlog', hkept⟩
  · have huncovered : ¬Covered root engine.settings.outputDirName loc := fun hcovered =>
      hswept ⟨root, hroot, hcovered⟩
    exact ⟨hafter.sound, hafter.unlogged hlog', (hafter.kept loc huncovered hlog').trans hkept⟩

end Engine

end Staging

end Unscramble
