import Mathlib
import Unscramble.Proofs.Disk.Content
import Unscramble.Proofs.Promotion
import Unscramble.Proofs.Sweep
import Unscramble.Proofs.Workspace
import Unscramble.Settings.Basic

/-!
# Disks on which output comes back

A run on a disk without links works on locations of one directory, as long as no
directory takes the place of the file and the debug log is not the file itself.
Such a disk is tame, and it stays tame whatever a run removes or moves.
-/

namespace Unscramble

open Disk Workspace

variable {σ : Type}

/-- The paths that output is brought back from. -/
def outputPlaces (file : Path) (outputName : String) : List Path :=
  [(file.parent.child outputName).child "entry.js",
    (file.parent.child (file.name ++ ".temp")).child "deobfuscated.js",
    file.parent.child (file.name ++ ".temp"),
    file.parent.child (file.name ++ ".deobfuscated.js")]

/-- A file whose path goes up at its start only, and next to which all paths of a run
are within the limits of the system. -/
structure Site (file : Path) (outputName : String) : Prop where
  straight : file.parent.Straight
  named : Path.Ordinary file.name
  component : Path.Component outputName
  other : outputName ≠ file.name
  fits : ∀ path ∈ file :: outputPlaces file outputName, path.Fitting

/-- A disk that lets the output of every step come back to the file and stay there.  The
debug log is neither the file nor any of `outputs`. -/
structure Tame (settings : Settings) (file : Path) (outputs : List Path) (disk : Disk) :
    Prop where
  sound : disk.Sound
  linkless : disk.tree.Linkless
  plain : ∀ loc, disk.find .followed file ≠ .ok (.present loc .directory)
  apart : ∀ path ∈ file :: outputs, disk.Unlogged path
  /-- The file does not lie below a staging directory that the last sweep takes away. -/
  uncovered : settings.cleanupScope = .workingDirectory → disk.cwd.lost = 0 →
    ∀ dir, disk.find .followed file.parent = .ok (.present dir .directory) →
      ¬Covered disk.cwd.above settings.outputDirName dir

namespace Site

variable {file : Path} {outputName : String} (hsite : Site file outputName)

include hsite

theorem name_ne_empty : file.name ≠ "" := Path.ordinary_ne_empty hsite.named

theorem child_parent : file.parent.child file.name = file := Path.child_parent hsite.name_ne_empty

theorem fits_file : (file.parent.child file.name).Fitting := by
  rw [hsite.child_parent]
  exact hsite.fits _ List.mem_cons_self

theorem fits_parent : file.parent.Fitting := hsite.fits_file.parent hsite.name_ne_empty

theorem fits_artifact {name : String} (hname : name ∈ artifactNames file outputName) :
    (file.parent.child name).Fitting := by
  simp only [artifactNames, List.mem_cons, List.not_mem_nil, or_false] at hname
  rcases hname with rfl | rfl | rfl
  · have hentry : ((file.parent.child name).child "entry.js").Fitting :=
      hsite.fits _ (by simp [outputPlaces])
    exact hentry.parent (by decide)
  · exact hsite.fits _ (by simp [outputPlaces])
  · exact hsite.fits _ (by simp [outputPlaces])

theorem ne_of_mem_artifactNames {name : String} (hname : name ∈ artifactNames file outputName) :
    name ≠ file.name :=
  Unscramble.ne_of_mem_artifactNames hsite.other hname

end Site

namespace Tame

variable {settings : Settings} {file : Path} {outputs : List Path} {disk disk' : Disk}

/-- What only gets thinner stays tame. -/
theorem thinner (htame : Tame settings file outputs disk) (hsound : disk'.Sound)
    (hthin : disk'.Thinner disk) (hlog : disk'.log = disk.log ∨ disk'.log = none) :
    Tame settings file outputs disk' where
  sound := hsound
  linkless loc target hlink := htame.linkless loc target (hthin.held_link hlink)
  plain loc hfind := htame.plain loc (hthin.directory htame.sound hfind)
  apart path hpath := (htame.apart path hpath).thinner hthin htame.sound hlog
  uncovered hscope hlost dir hdir := by
    obtain ⟨gone, habove, hmore⟩ := hthin.cwd
    have hgone : gone = [] := List.length_eq_zero_iff.mp (by omega)
    have hback := htame.uncovered hscope (by omega) dir (hthin.directory htame.sound hdir)
    rwa [habove, hgone, List.append_nil] at hback

/-- What changes only in its files stays tame. -/
theorem alike (htame : Tame settings file outputs disk) (hsound : disk'.Sound)
    (halike : disk.tree.Alike disk'.tree) (hcwd : disk'.cwd = disk.cwd)
    (hlog : disk'.log = disk.log ∨ disk'.log = none) : Tame settings file outputs disk' where
  sound := hsound
  linkless loc target hlink := by
    rcases halike loc with hsame | ⟨-, hends⟩
    · exact htame.linkless loc target (hsame.symm.trans hlink)
    · rw [hlink] at hends
      exact hends
  plain loc hfind := htame.plain loc (hsound.directory_alike halike.symm hcwd.symm hfind)
  apart path hpath loc entry hfind hopened := by
    rcases hlog with hlog | hlog <;> rw [hlog] at hopened
    · obtain ⟨bytes, access, hfile⟩ := htame.sound.logging hopened
      have hback := hsound.find_alike halike.symm hcwd.symm hfind
      simp only [Found.on, hfile] at hback
      exact htame.apart path hpath loc _ hback hopened
    · cases hopened
  uncovered hscope hlost dir hdir := by
    rw [hcwd] at hlost ⊢
    exact htame.uncovered hscope hlost dir (hsound.directory_alike halike.symm hcwd.symm hdir)

theorem logged (htame : Tame settings file outputs disk) (line : String) :
    Tame settings file outputs (disk.logged line) :=
  htame.thinner (htame.sound.logged line) (disk.thinner_logged line)
    (.inl (disk.logged_places line).2.2)

theorem log_eraseWithin (disk : Disk) (loc : Loc) :
    (disk.eraseWithin loc).log = disk.log ∨ (disk.eraseWithin loc).log = none := by
  cases hlog : disk.log with
  | none => exact .inr (by simp [Disk.eraseWithin, hlog])
  | some p => by_cases hp : loc <+: p <;> simp [Disk.eraseWithin, hlog, hp]

theorem eraseWithin (htame : Tame settings file outputs disk) {loc : Loc} (hloc : loc ≠ []) :
    Tame settings file outputs (disk.eraseWithin loc) :=
  htame.thinner (htame.sound.eraseWithin hloc) (disk.thinner_eraseWithin hloc)
    (log_eraseWithin disk loc)

variable {dir : Loc}

/-- Erasing what lies in the directory of the file does not cut it off. -/
theorem reached_eraseWithin (htame : Tame settings file outputs disk) (hsite : Site file settings.outputDirName)
    (hdir : disk.find .followed file.parent = .ok (.present dir .directory)) {below : Loc}
    (hbelow : below ≠ []) :
    (disk.eraseWithin (dir ++ below)).find .followed file.parent =
      .ok (.present dir .directory) := by
  have hloc : dir ++ below ≠ [] := by simp [hbelow]
  refine htame.sound.reached_of_thinner htame.linkless (htame.sound.eraseWithin hloc)
    (disk.thinner_eraseWithin hloc) hsite.fits_parent hsite.straight hdir ?_ ?_
  · rw [get?_within _ hloc, if_neg]
    · exact find_fits hdir
    · intro hpre
      have hlength := hpre.length_le
      rw [List.length_append] at hlength
      exact hbelow (List.length_eq_zero_iff.mp (by omega))
  · by_cases hworking : dir ++ below <+: disk.cwd.above
    · refine .inr ?_
      simp only [Disk.eraseWithin, Standpoint.within, if_pos hworking,
        List.dropLast_append_of_ne_nil hbelow]
      exact List.prefix_append _ _
    · exact .inl (if_neg hworking)

/-- The bytes of the file are those at its location. -/
theorem content?_file (htame : Tame settings file outputs disk) (hsite : Site file settings.outputDirName)
    (hdir : disk.find .followed file.parent = .ok (.present dir .directory)) :
    disk.content? file = disk.tree.bytes? (dir ++ [file.name]) := by
  conv_lhs => rw [← hsite.child_parent]
  exact content?_child htame.linkless hsite.named hsite.fits_file hdir

/-- Erasing what lies next to the file keeps its bytes. -/
theorem content?_eraseWithin (htame : Tame settings file outputs disk) (hsite : Site file settings.outputDirName)
    (hdir : disk.find .followed file.parent = .ok (.present dir .directory)) {next : String}
    (hnext : next ≠ file.name) (below : Loc) :
    (disk.eraseWithin (dir ++ next :: below)).content? file = disk.content? file := by
  have hloc : dir ++ next :: below ≠ [] := by simp
  rw [(htame.eraseWithin hloc).content?_file hsite (htame.reached_eraseWithin hsite hdir (by simp)),
    htame.content?_file hsite hdir]
  refine Tree.bytes?_congr ?_
  rw [get?_within _ hloc, if_neg]
  rw [List.prefix_append_right_inj, List.cons_prefix_cons]
  exact fun h => hnext h.1

end Tame

/-- Removing an artifact from a tame disk succeeds and keeps the bytes of the file. -/
theorem remove_artifact {settings : Settings} {file : Path} {outputs : List Path}
    {name : String} {w : World σ}
    (hsite : Site file settings.outputDirName) (htame : Tame settings file outputs w.disk)
    (hname : name ∈ artifactNames file settings.outputDirName) :
    ∃ removed disk', (Act.remove (file.parent.child name) : Act σ Bool) w =
        .ok removed { w with disk := disk' } ∧
      Tame settings file outputs disk' ∧ disk'.content? file = w.disk.content? file := by
  have hordinary := ordinary_of_mem_artifactNames hsite.component hname
  have hother := hsite.ne_of_mem_artifactNames hname
  rcases Act.remove_child_cases file.parent htame.sound hordinary with
    ⟨-, hremove⟩ | ⟨hpath, -⟩ | ⟨loc, entry, hfind, hremove⟩ | ⟨loc, hfind, hcut, -⟩
  · exact ⟨false, w.disk, hremove, htame, rfl⟩
  · exact absurd (resolvable_of_linkless htame.linkless (hsite.fits_artifact hname)) hpath
  · obtain ⟨dir, hdir, -, ⟨h, -⟩ | ⟨_, h, -⟩⟩ := reached_of_find_child hordinary hfind <;> cases h
    exact ⟨true, _, hremove, htame.eraseWithin (by simp),
      htame.content?_eraseWithin hsite hdir hother []⟩
  · obtain ⟨dir, hdir, -, ⟨h, -⟩ | ⟨_, h, -⟩⟩ := reached_of_find_child hordinary hfind <;> cases h
    -- a straight path does not run through what is removed
    have hreach := htame.reached_eraseWithin hsite hdir (List.cons_ne_nil name [])
    have hthin := (w.disk.eraseBelow (dir ++ [name])).thinner_eraseWithin
      (by simp : dir ++ [name] ≠ [])
    rw [eraseWithin_eraseBelow] at hthin
    exact absurd (hthin.directory (htame.sound.eraseBelow (find_fits hfind)) hreach) (hcut dir)

end Unscramble
