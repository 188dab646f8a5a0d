import Unscramble.Settings.Load
import Unscramble.Proofs.Disk.Check
import Unscramble.Proofs.Sample

/-!
# Workspaces that are not used

Entering the workspace of a file and leaving it again takes away what lay at the
artifacts and changes nothing else, if the staging directory has a name of its own
next to the file.
-/

namespace Unscramble

open Disk Workspace

variable {σ : Type} {file : Path} {outputName : String} {dir : Loc} {disk : Disk}

namespace Disk

/-- Nothing is erased where nothing is. -/
theorem Sound.without_of_missing (hsound : disk.Sound) {locs : List Loc}
    (hlocs : ∀ loc ∈ locs, disk.tree.get? loc = none) : disk.without locs = disk := by
  induction locs with
  | nil => rfl
  | cons loc rest ih =>
    rw [without_cons, hsound.eraseWithin_of_missing (hlocs loc List.mem_cons_self)]
    exact ih fun other hother => hlocs other (List.mem_cons_of_mem _ hother)

end Disk

namespace Workspace

/-- A staged disk without the artifacts is the disk before without them. -/
theorem staged_without (hsound : disk.Sound) (hout : Path.Component outputName)
    (hdir : (disk.without (artifactLocs file outputName dir)).find .followed file.parent =
      .ok (.present dir .directory)) :
    (staged disk file outputName dir).without (artifactLocs file outputName dir) =
      disk.without (artifactLocs file outputName dir) := by
  have hlocs : ∀ loc ∈ artifactLocs file outputName dir, loc ≠ [] :=
    fun loc => ne_nil_of_mem_artifactLocs
  have hagree : AgreeBeyond (artifactLocs file outputName dir) (staged disk file outputName dir)
      (disk.without (artifactLocs file outputName dir)) := by
    refine ⟨fun q hq => ?_, rfl, rfl, rfl⟩
    rw [staged, get?_insert _ (by simp), if_neg]
    rintro rfl
    exact hq _ (List.mem_map_of_mem List.mem_cons_self) List.prefix_rfl
  rw [hagree.without_eq (staged_sound hsound hout hdir) (hsound.without hlocs) hlocs]
  refine (hsound.without hlocs).without_of_missing fun loc hloc => ?_
  rw [get?_without _ hlocs, if_pos ⟨loc, hloc, List.prefix_rfl⟩]

/-- On a staged disk every artifact can be resolved: the staging directory is there, and
the others are not. -/
theorem staged_resolvable (hsound : disk.Sound) (hfile : file.name ≠ "")
    (hout : Path.Component outputName) (hnul : file.hasNul = false)
    (hpath : ∀ name ∈ artifactNames file outputName, disk.Resolvable (file.parent.child name))
    (hdir : (disk.without (artifactLocs file outputName dir)).find .followed file.parent =
      .ok (.present dir .directory)) {name : String}
    (hname : name ∈ artifactNames file outputName) :
    (staged disk file outputName dir).Resolvable (file.parent.child name) := by
  have hlocs : ∀ loc ∈ artifactLocs file outputName dir, loc ≠ [] :=
    fun loc => ne_nil_of_mem_artifactLocs
  have hordinary := ordinary_of_mem_artifactNames hout hname
  have hthin := disk.thinner_without hlocs
  have hstaged := staged_sound hsound hout hdir
  have hreached : (staged disk file outputName dir).find .followed file.parent =
      .ok (.present dir .directory) := by
    refine Thinner.directory ?_ hstaged ((staged_without hsound hout hdir).symm ▸ hdir)
    exact Disk.thinner_without _ hlocs
  obtain ⟨hnameable, hshort⟩ := (hpath name hname).child_fits hordinary
    (hasNul_artifact hfile hout hnul hname) (hthin.directory hsound hdir)
  have hfind := find_child_of_reached hordinary hshort hnameable hreached
  have hget : (staged disk file outputName dir).tree.get? (dir ++ [name]) =
      if name = outputName then some .directory else none := by
    rw [staged, get?_insert _ (by simp), get?_without _ hlocs,
      if_pos (⟨_, List.mem_map_of_mem hname, List.prefix_rfl⟩ :
        ∃ loc ∈ artifactLocs file outputName dir, loc <+: dir ++ [name])]
    simp
  rw [hget] at hfind
  intro why hwhy
  by_cases hstaging : name = outputName
  · rw [if_pos hstaging] at hfind
    rw [find_followed_of_ne_link hfind (by simp)] at hwhy
    cases hwhy
  · rw [if_neg hstaging] at hfind
    rw [find_followed_of_ne_link hfind (by simp)] at hwhy
    cases hwhy

/-- A workspace that is entered and left takes nothing away but the artifacts. -/
theorem use_without_body {w : World σ} (hsound : w.disk.Sound) (hfile : file.name ≠ "")
    (hout : Path.Component outputName) (hnul : file.hasNul = false)
    (hpath : ∀ name ∈ artifactNames file outputName, w.disk.Resolvable (file.parent.child name))
    (hdir : (w.disk.without (artifactLocs file outputName dir)).find .followed file.parent =
      .ok (.present dir .directory)) :
    use file outputName (fun _ => pure ()) w =
      .ok () { w with disk := w.disk.without (artifactLocs file outputName dir) } := by
  have hwithout := staged_without hsound hout hdir
  have hrelease := release_of_reached
    (w := { w with disk := staged w.disk file outputName dir }) (staged_sound hsound hout hdir)
    hfile hout hnul (fun name => staged_resolvable hsound hfile hout hnul hpath hdir)
    (hwithout.symm ▸ hdir)
  rw [use_of_reached hsound hfile hout hnul hpath hdir]
  refine (Act.always_of_ok rfl hrelease).trans ?_
  simp only [hwithout]

end Workspace

/-- A workspace that is entered and left under a name that is not the file's own keeps the
file and all other entries, except what lay at the artifacts, and leaves nothing new. -/
theorem unused_workspace_keeps_entries {w : World σ} (hsound : w.disk.Sound)
    (hfile : w.disk.isFile file = .ok true) (hout : Path.Component outputName)
    (hother : outputName ≠ file.name)
    (hpath : ∀ name ∈ artifactNames file outputName, w.disk.Resolvable (file.parent.child name))
    (hdir : (w.disk.without (artifactLocs file outputName dir)).find .followed file.parent =
      .ok (.present dir .directory)) :
    ∃ disk', use file outputName (fun _ => pure ()) w = .ok () { w with disk := disk' } ∧
      (∀ loc, disk'.tree.get? loc =
        if ∃ artifact ∈ artifactLocs file outputName dir, artifact <+: loc then none
        else w.disk.tree.get? loc) ∧
      disk'.tree.get? (dir ++ [file.name]) = w.disk.tree.get? (dir ++ [file.name]) := by
  have hlocs : ∀ loc ∈ artifactLocs file outputName dir, loc ≠ [] :=
    fun loc => ne_nil_of_mem_artifactLocs
  have hnul := (nameable_of_isFile hfile).1
  have hget := w.disk.get?_without hlocs
  refine ⟨_, use_without_body hsound (hsound.name_ne_empty hfile) hout hnul hpath hdir,
    hget, ?_⟩
  rw [hget, if_neg]
  rintro ⟨loc, hloc, hpre⟩
  obtain ⟨name, hname, rfl⟩ := List.mem_map.mp hloc
  exact ne_of_mem_artifactNames hother hname (by simpa using hpre)

theorem unused_workspace_keeps_littered_file :
    let file : Path := ⟨.here, ["d", "a.js"]⟩
    Sample.littered.isFile file = .ok true ∧
      ∃ disk', use file "output_dir" (fun _ => pure ()) (Sample.world Sample.littered) =
          .ok () { Sample.world Sample.littered with disk := disk' } ∧
        (∀ loc, disk'.tree.get? loc =
          if ∃ artifact ∈ artifactLocs file "output_dir" ["d"], artifact <+: loc then none
          else Sample.littered.tree.get? loc) ∧
        disk'.tree.get? ["d", "a.js"] = Sample.littered.tree.get? ["d", "a.js"] := by
  intro file
  have hdir : (Sample.littered.without (artifactLocs file "output_dir" ["d"])).find
      .followed file.parent = .ok (.present ["d"] .directory) := by decide
  exact ⟨by decide, unused_workspace_keeps_entries (w := Sample.world Sample.littered) (by decide)
    (by decide) (by decide) (by decide) (by decide) hdir⟩

/-- Settings take every name, but under one that is read as the directory itself the file is
removed with all that lies next to it. -/
theorem unused_workspace_removes_directory :
    let disk := Sample.disk [(["d"], .directory), (["d", "a.js"], .file [97] {}),
      (["d", "b.js"], .file [98] {})]
    let file : Path := ⟨.here, ["d", "a.js"]⟩
    ∃ settings w', Settings.ofGiven [(.outputDirName, .ofString ".")] = .ok settings ∧
      disk.isFile file = .ok true ∧
      use file settings.outputDirName (fun _ => pure ()) (Sample.world disk) = .ok () w' ∧
      w'.disk.tree.entries = [] :=
  ⟨_, _, rfl, by decide, rfl, by decide⟩

end Unscramble
