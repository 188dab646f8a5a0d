import Mathlib
import Unscramble.Proofs.Handover

/-!
# What surrounds the steps

Before its first step a run clears the artifacts and makes the staging directory;
after its last one it clears them again and sweeps.  On a tame disk all of this
keeps the bytes of the file, and no output is left for the first step.
-/

namespace Unscramble

open Disk Workspace

variable {σ : Type} {settings : Settings} {file : Path} {outputs : List Path} {disk : Disk}
  {dir : Loc} {w : World σ}

/-! ## Releasing -/

/-- Releasing a workspace on a tame disk succeeds and keeps the bytes of the file. -/
theorem release_tame (hsite : Site file settings.outputDirName)
    (htame : Tame settings file outputs w.disk) :
    ∃ disk', ((ofFile file settings.outputDirName).release : Act σ Unit) w =
        .ok () { w with disk := disk' } ∧
      Tame settings file outputs disk' ∧ disk'.content? file = w.disk.content? file := by
  rw [release_ofFile hsite.name_ne_empty hsite.component]
  have hall (names : List String)
      (hnames : ∀ name ∈ names, name ∈ artifactNames file settings.outputDirName) :
      ∃ disk', (((names.map file.parent.child).forM fun path => discard (Act.remove path)) :
          Act σ Unit) w = .ok () { w with disk := disk' } ∧
        Tame settings file outputs disk' ∧ disk'.content? file = w.disk.content? file := by
    induction names generalizing w with
    | nil => exact ⟨w.disk, rfl, htame, rfl⟩
    | cons name rest ih =>
        obtain ⟨removed, disk', hremove, htame', hcontent⟩ :=
          remove_artifact hsite htame (hnames name List.mem_cons_self)
        obtain ⟨disk'', hrest, htame'', hcontent'⟩ := ih (w := { w with disk := disk' }) htame'
          fun other hother => hnames other (List.mem_cons_of_mem _ hother)
        exact ⟨disk'', (Act.bind_of_ok (Act.discard_of_ok hremove)).trans hrest, htame'',
          hcontent'.trans hcontent⟩
  exact hall _ fun _ => id

/-! ## Staging -/

/-- The directory of the file is still reached without its artifacts. -/
theorem reached_without (hsite : Site file settings.outputDirName)
    (htame : Tame settings file outputs disk)
    (hdir : disk.find .followed file.parent = .ok (.present dir .directory))
    (names : List String) :
    (disk.without (names.map (dir ++ [·]))).find .followed file.parent =
      .ok (.present dir .directory) := by
  induction names generalizing disk with
  | nil => exact hdir
  | cons name rest ih =>
      exact ih (htame.eraseWithin (by simp)) (htame.reached_eraseWithin hsite hdir (by simp))

theorem tame_without (htame : Tame settings file outputs disk) (names : List String) :
    Tame settings file outputs (disk.without (names.map (dir ++ [·]))) := by
  induction names generalizing disk with
  | nil => exact htame
  | cons name rest ih => exact ih (htame.eraseWithin (by simp))

theorem content?_without (hsite : Site file settings.outputDirName)
    (htame : Tame settings file outputs disk)
    (hdir : disk.find .followed file.parent = .ok (.present dir .directory))
    {names : List String} (hnames : ∀ name ∈ names, name ≠ file.name) :
    (disk.without (names.map (dir ++ [·]))).content? file = disk.content? file := by
  induction names generalizing disk with
  | nil => rfl
  | cons name rest ih =>
      rw [List.map_cons, without_cons,
        ih (htame.eraseWithin (by simp)) (htame.reached_eraseWithin hsite hdir (by simp))
          fun other hother => hnames other (List.mem_cons_of_mem _ hother)]
      exact htame.content?_eraseWithin hsite hdir (hnames name List.mem_cons_self) []

/-- A staged disk is tame, has no output, and the file still has its bytes. -/
theorem staged_tame (hsite : Site file settings.outputDirName)
    (htame : Tame settings file [] disk)
    (hdir : disk.find .followed file.parent = .ok (.present dir .directory)) :
    Tame settings file (outputPlaces file settings.outputDirName)
        (staged disk file settings.outputDirName dir) ∧
      (staged disk file settings.outputDirName dir).content? file = disk.content? file := by
  let cleared := disk.without (artifactLocs file settings.outputDirName dir)
  let made := staged disk file settings.outputDirName dir
  have hreach : cleared.find .followed file.parent = .ok (.present dir .directory) :=
    reached_without hsite htame hdir _
  have htame₁ : Tame settings file [] cleared := tame_without htame _
  have hsound : made.Sound := staged_sound htame.sound hsite.component hreach
  have hget (q : Loc) : made.tree.get? q =
      if q = dir ++ [settings.outputDirName] then some .directory else cleared.tree.get? q :=
    get?_insert _ (by simp) _ q
  have hfree {name : String} (hname : name ∈ artifactNames file settings.outputDirName)
      (below : Loc) : cleared.tree.get? (dir ++ name :: below) = none := by
    rw [get?_without _ fun loc => ne_nil_of_mem_artifactLocs, if_pos]
    exact ⟨dir ++ [name], List.mem_map_of_mem hname, by simp⟩
  -- the staging directory is all that has been added
  have hthin : cleared.Thinner made := by
    refine ⟨fun q => ?_, .refl _⟩
    rw [Tree.shape, Tree.shape, hget]
    split
    · next heq => exact .inl (heq ▸ hfree (by simp [artifactNames]) [])
    · exact .inr rfl
  have hreach' : made.find .followed file.parent = .ok (.present dir .directory) :=
    hthin.directory hsound hreach
  have hlinkless : made.tree.Linkless := by
    intro q target hlink
    rw [hget] at hlink
    split at hlink
    · cases hlink
    · exact htame₁.linkless q target hlink
  have hsame : made.find .followed file = cleared.find .followed file := by
    have hfind := find_followed_child hlinkless hsite.named hsite.fits_file hreach'
    have hfind₁ := find_followed_child htame₁.linkless hsite.named hsite.fits_file hreach
    rw [hsite.child_parent] at hfind hfind₁
    rw [hfind, hfind₁, Found.on, Found.on, hget, if_neg (by simp [Ne.symm hsite.other])]
  have hmade : Tame settings file (outputPlaces file settings.outputDirName) made := by
    refine ⟨hsound, hlinkless, fun loc => ?_, fun path hpath loc entry hfind hopened => ?_, ?_⟩
    · rw [hsame]
      exact htame₁.plain loc
    · rcases List.mem_cons.mp hpath with rfl | hplace
      · rw [hsame] at hfind
        exact htame₁.apart _ List.mem_cons_self loc entry hfind hopened
      · obtain ⟨p, next, below, hp, rfl, hnext⟩ := place_of_found hlinkless hsite hplace hfind
        rw [hreach'] at hp
        cases hp
        obtain ⟨bytes, access, hfile⟩ := hsound.logging hopened
        rw [hget, hfree hnext below] at hfile
        split at hfile <;> cases hfile
    · intro hscope hlost p hp
      rw [hreach'] at hp
      cases hp
      exact htame₁.uncovered hscope hlost dir hreach
  refine ⟨hmade, ?_⟩
  have hcontent : made.content? file = cleared.content? file := by
    rw [content?, content?, stat, stat, hsame]
  rw [hcontent]
  exact content?_without hsite htame hdir fun name => hsite.ne_of_mem_artifactNames

/-- On a tame disk the directory of a file is reached. -/
theorem Tame.reached_parent (htame : Tame settings file outputs disk)
    (hsite : Site file settings.outputDirName) (hfile : disk.isFile file = .ok true) :
    ∃ dir, disk.find .followed file.parent = .ok (.present dir .directory) := by
  obtain ⟨loc, bytes, access, hfind⟩ := isFile_eq_true_iff.mp hfile
  rw [find_followed_of_linkless htame.linkless, ← hsite.child_parent] at hfind
  obtain ⟨dir, hdir, -⟩ := reached_of_find_child hsite.named hfind
  exact ⟨dir, hdir⟩

/-! ## Sweeping -/

/-- A sweep that does not cover the file keeps its bytes. -/
theorem content?_swept {disk' : Disk} {root : Loc} (hsite : Site file settings.outputDirName)
    (htame : Tame settings file outputs disk)
    (hswept : Swept root settings.outputDirName disk disk')
    (hroot : ∀ dir, disk.find .followed file.parent = .ok (.present dir .directory) →
      ¬Covered root settings.outputDirName dir ∧
        ¬Covered root settings.outputDirName (dir ++ [file.name]) ∧
        (root <+: disk'.cwd.above → disk'.cwd.above = disk.cwd.above ∨ dir <+: disk'.cwd.above)) :
    disk'.content? file = disk.content? file := by
  have htame' := htame.thinner hswept.sound hswept.thinner hswept.log
  by_cases hreach : ∃ dir, disk.find .followed file.parent = .ok (.present dir .directory)
  · obtain ⟨dir, hdir⟩ := hreach
    obtain ⟨hoff, hoff', hcwd⟩ := hroot dir hdir
    have hheld : disk'.tree.get? dir = some .directory := by
      rw [← Tree.shape_eq_directory_iff, hswept.shape dir hoff, Tree.shape_eq_directory_iff]
      exact find_fits hdir
    have hplace : disk'.cwd = disk.cwd ∨ dir <+: disk'.cwd.above := by
      have habove := hswept.cwd.elim .inl hcwd
      refine habove.imp_left fun hsame => ?_
      obtain ⟨gone, hgone, hmore⟩ := hswept.thinner.cwd
      have hnil : gone = [] := by
        rw [hsame] at hgone
        exact List.self_eq_append_right.mp hgone
      cases hold : disk.cwd
      cases hnew : disk'.cwd
      simp only [hold, hnew, hnil, List.length_nil, Nat.add_zero] at hsame hmore
      rw [hsame, hmore]
    have hdir' := htame.sound.reached_of_thinner htame.linkless hswept.sound hswept.thinner
      hsite.fits_parent hsite.straight hdir hheld hplace
    rw [htame'.content?_file hsite hdir', htame.content?_file hsite hdir]
    refine Tree.bytes?_congr (hswept.kept _ hoff' fun hopened => ?_)
    obtain ⟨bytes, access, hfile⟩ := htame.sound.logging hopened
    have hfind := find_followed_child htame.linkless hsite.named hsite.fits_file hdir
    simp only [hsite.child_parent, Found.on, hfile] at hfind
    exact htame.apart _ List.mem_cons_self _ _ hfind hopened
  · push Not at hreach
    have hgone (loc : Loc) : disk'.find .followed file.parent ≠ .ok (.present loc .directory) :=
      fun hfind => hreach loc (hswept.thinner.directory htame.sound hfind)
    have hnone := content?_child_of_not_reached hsite.named hreach
    have hnone' := content?_child_of_not_reached hsite.named hgone
    rw [hsite.child_parent] at hnone hnone'
    rw [hnone, hnone']

theorem not_covered_child {root dir : Loc} {name next : String} (hoff : ¬Covered root name dir)
    (hnext : next ≠ name) : ¬Covered root name (dir ++ [next]) := by
  rintro ⟨hpre, hmem⟩
  rcases List.prefix_concat_iff.mp hpre with rfl | hpre
  · simp at hmem
  · rw [List.drop_append_of_le_length hpre.length_le, List.mem_append] at hmem
    rcases hmem with hmem | hmem
    · exact hoff ⟨hpre, hmem⟩
    · exact hnext (List.mem_singleton.mp hmem).symm

/-- A sweep from a root that does not lie above the file, except directly, keeps its bytes. -/
theorem sweep_tame (reporter : Reporter) {root : Path} {loc : Loc}
    (hsite : Site file settings.outputDirName) (htame : Tame settings file outputs w.disk)
    (hleads : w.disk.Leads root loc)
    (hoff : ∀ dir, w.disk.find .followed file.parent = .ok (.present dir .directory) →
      ¬Covered loc settings.outputDirName dir ∧ (loc = dir ∨ loc = w.disk.cwd.above)) :
    let swept := ((Sweep.sweep reporter settings.outputDirName root : Act σ _).final w).disk
    Tame settings file outputs swept ∧ swept.content? file = w.disk.content? file := by
  have hswept := Sweep.sweep_swept reporter settings.outputDirName w htame.sound hleads
  refine ⟨htame.thinner hswept.sound hswept.thinner hswept.log,
    content?_swept hsite htame hswept fun dir hdir => ?_⟩
  obtain ⟨huncovered, hloc⟩ := hoff dir hdir
  refine ⟨huncovered, not_covered_child huncovered (Ne.symm hsite.other), fun hbelow => ?_⟩
  rcases hloc with rfl | rfl
  · exact .inr hbelow
  · obtain ⟨gone, hgone, -⟩ := hswept.thinner.cwd
    exact .inl (hbelow.eq_of_length_le (by rw [hgone]; simp)).symm

/-- The path at which the last sweep of a run starts. -/
def Engine.sweepStart (engine : Engine σ) (file : Path) : Act σ Path :=
  match engine.settings.cleanupScope with
  | .workingDirectory => Act.workingDirectory
  | .file => pure file.parent

theorem sweepAfter_eq (engine : Engine σ) (file : Path) :
    engine.sweepAfter file = engine.sweepStart file >>= fun root =>
      engine.reporter.debug "Cleaning up temporary data..." >>= fun _ =>
        Sweep.sweep engine.reporter engine.settings.outputDirName root := by
  unfold Engine.sweepAfter Engine.sweepStart
  cases engine.settings.cleanupScope <;> rfl

/-- The last sweep of a run keeps the bytes of the file. -/
theorem sweepAfter_tame {engine : Engine σ} (hsite : Site file engine.settings.outputDirName)
    (htame : Tame engine.settings file outputs w.disk) :
    Tame engine.settings file outputs ((engine.sweepAfter file).final w).disk ∧
      ((engine.sweepAfter file).final w).disk.content? file = w.disk.content? file := by
  let w₁ := w.said engine.reporter .debug "Cleaning up temporary data..."
  have htame₁ : Tame engine.settings file outputs w₁.disk := htame.logged _
  have hcontent : w₁.disk.content? file = w.disk.content? file :=
    content?_logged htame.sound (htame.apart _ List.mem_cons_self) _
  have hsweep {root : Path} {loc : Loc} (hleads : w₁.disk.Leads root loc)
      (hoff : ∀ dir, w₁.disk.find .followed file.parent = .ok (.present dir .directory) →
        ¬Covered loc engine.settings.outputDirName dir ∧ (loc = dir ∨ loc = w₁.disk.cwd.above)) :
      let swept := (engine.reporter.debug "Cleaning up temporary data..." >>= fun _ =>
        Sweep.sweep engine.reporter engine.settings.outputDirName root : Act σ _).final w
      Tame engine.settings file outputs swept.disk ∧
        swept.disk.content? file = w.disk.content? file := by
    obtain ⟨hswept, hkept⟩ := sweep_tame engine.reporter hsite htame₁ hleads hoff
    rw [Act.final_bind_of_ok (Reporter.debug_eq _ _ _)]
    exact ⟨hswept, hkept.trans hcontent⟩
  rw [sweepAfter_eq, Engine.sweepStart]
  cases hscope : engine.settings.cleanupScope with
  | file =>
      obtain ⟨loc, hleads⟩ := w₁.disk.exists_leads file.parent
      refine hsweep hleads fun dir hdir => ?_
      obtain rfl : dir = loc := hleads dir hdir
      exact ⟨fun hcovered => by simpa using hcovered.2, .inl rfl⟩
  | workingDirectory =>
      by_cases hlost : w.disk.cwd.lost = 0
      · have hworking : w.disk.workingDirectory = .ok (locPath w.disk.cwd.above) := by
          rw [Disk.workingDirectory, Disk.workingLoc?, if_pos hlost]
        have hcwd : w₁.disk.cwd = w.disk.cwd := (w.disk.logged_places _).1
        have hroot : (Act.workingDirectory : Act σ Path) w = .ok (locPath w.disk.cwd.above) w :=
          Act.look_of_ok hworking
        simp only [Act.final_bind_of_ok hroot]
        refine hsweep (htame₁.sound.leads_locPath (hcwd ▸ htame₁.sound.working)) fun dir hdir => ?_
        rw [← hcwd] at hlost ⊢
        exact ⟨htame₁.uncovered hscope hlost dir hdir, .inr rfl⟩
      · have hworking : w.disk.workingDirectory = .error (.refused .notFound none none) := by
          rw [Disk.workingDirectory, Disk.workingLoc?, if_neg hlost]
        have hroot : (Act.workingDirectory : Act σ Path) w =
            .error (.refused .notFound none none) w := Act.look_of_error hworking
        simp only [Act.final_bind_of_error hroot]
        exact ⟨htame, trivial⟩

end Unscramble
