import Unscramble.Proofs.Confined
import Unscramble.Proofs.Disk.Resolution

/-!
# The course of a walk

While files are processed one after the other, what lies at the files is rewritten and
staging directories are taken away.  Everything else stays, apart from lines in the log.
So a directory that does not lie in a staging directory is reached all along by a path
that does not pass through one.
-/

namespace Unscramble

open Disk Workspace

variable {σ : Type} {root : Loc} {name : String} {sources sources' : List Loc}
  {disk disk' disk'' : Disk}

namespace Disk

/-- What becomes of a disk while the files at `sources` are processed and staging directories
called `name` below `root` are taken away. -/
structure Course (root : Loc) (name : String) (sources : List Loc) (disk disk' : Disk) : Prop where
  sound : disk'.Sound
  working : ∀ start, disk.workingLoc? = some start → ¬Covered root name start →
    disk'.workingLoc? = some start
  log : disk'.log = disk.log ∨ disk'.log = none
  shape : ∀ loc, ¬Inside sources loc → disk'.tree.shape loc = disk.tree.shape loc ∨
    Covered root name loc ∧ disk'.tree.get? loc = none
  kept : ∀ loc, ¬Inside sources loc → disk.log ≠ some loc →
    disk'.tree.get? loc = disk.tree.get? loc ∨ Covered root name loc ∧ disk'.tree.get? loc = none
  /-- Nothing that has been rewritten is a link. -/
  plain : ∀ loc target, Inside sources loc → disk'.tree.get? loc ≠ some (.link target)

namespace Course

theorem refl (hsound : disk.Sound) : Course root name [] disk disk where
  sound := hsound
  working _ hstart _ := hstart
  log := .inl rfl
  shape _ _ := .inl rfl
  kept _ _ _ := .inl rfl
  plain loc _ hloc := by simp [Inside] at hloc

theorem unlogged (hcourse : Course root name sources disk disk') {loc : Loc}
    (hlog : disk.log ≠ some loc) : disk'.log ≠ some loc := by
  rcases hcourse.log with heq | hnone
  · rwa [heq]
  · simp [hnone]

theorem kept_uncovered (hcourse : Course root name sources disk disk') {loc : Loc}
    (hloc : ¬Inside sources loc) (hlog : disk.log ≠ some loc) (huncovered : ¬Covered root name loc) :
    disk'.tree.get? loc = disk.tree.get? loc :=
  (hcourse.kept loc hloc hlog).resolve_right fun hgone => huncovered hgone.1

theorem inside_append {loc : Loc} :
    Inside (sources ++ sources') loc ↔ Inside sources loc ∨ Inside sources' loc := by
  simp [Inside, or_and_right, exists_or]

theorem trans (hfirst : Course root name sources disk disk')
    (hsecond : Course root name sources' disk' disk'') :
    Course root name (sources ++ sources') disk disk'' where
  sound := hsecond.sound
  working start hstart huncovered :=
    hsecond.working start (hfirst.working start hstart huncovered) huncovered
  log := by
    rcases hsecond.log with heq | hnone
    · rw [heq]
      exact hfirst.log
    · exact .inr hnone
  shape loc hloc := by
    rw [inside_append, not_or] at hloc
    rcases hsecond.shape loc hloc.2 with hsame | hgone
    · rcases hfirst.shape loc hloc.1 with hsame' | ⟨hcovered, hgone⟩
      · exact .inl (hsame.trans hsame')
      · refine .inr ⟨hcovered, ?_⟩
        simpa [Tree.shape, hgone] using hsame
    · exact .inr hgone
  kept loc hloc hlog := by
    rw [inside_append, not_or] at hloc
    rcases hsecond.kept loc hloc.2 (hfirst.unlogged hlog) with hsame | hgone
    · rw [hsame]
      exact hfirst.kept loc hloc.1 hlog
    · exact .inr hgone
  plain loc target hloc hlink := by
    by_cases hlast : Inside sources' loc
    · exact hsecond.plain loc target hlast hlink
    · rcases hsecond.shape loc hlast with hsame | ⟨-, hgone⟩
      · rw [← Tree.shape_eq_link_iff, hsame, Tree.shape_eq_link_iff] at hlink
        exact hfirst.plain loc target ((inside_append.mp hloc).resolve_right hlast) hlink
      · rw [hgone] at hlink
        cases hlink

theorem covered_of_root {dir loc : Loc} (hdir : root <+: dir) (hloc : Covered dir name loc) :
    Covered root name loc := by
  obtain ⟨middle, rfl⟩ := hdir
  refine ⟨(List.prefix_append _ _).trans hloc.1, ?_⟩
  have hname := hloc.2
  rw [List.length_append, Nat.add_comm, ← List.drop_drop, List.drop_drop, Nat.add_comm,
    ← List.drop_drop] at hname
  exact List.mem_of_mem_drop hname

theorem swept {dir : Loc} (hdir : root <+: dir) (hswept : Swept dir name disk disk') :
    Course root name [] disk disk' where
  sound := hswept.sound
  working start hstart huncovered :=
    hswept.workingLoc? hstart (mt (covered_of_root hdir) huncovered)
  log := hswept.log
  shape loc _ := by
    by_cases hloc : Covered dir name loc
    · rcases hswept.thinner.tree loc with hgone | hsame
      · exact .inr ⟨covered_of_root hdir hloc, hgone⟩
      · exact .inl hsame
    · exact .inl (hswept.shape loc hloc)
  kept loc _ hlog := by
    by_cases hloc : Covered dir name loc
    · exact (hswept.pruned loc hlog).imp_right fun hgone => ⟨covered_of_root hdir hloc, hgone⟩
    · exact .inl (hswept.kept loc hloc hlog)
  plain loc _ hloc := by simp [Inside] at hloc

/-- Lines in the log are all that has changed. -/
theorem noted (hsound : disk.Sound) (lines : List String) :
    Course root name [] disk (disk.noted lines) := by
  induction lines generalizing disk with
  | nil => exact refl hsound
  | cons line rest ih =>
    exact (swept List.prefix_rfl (swept_logged hsound line)).trans (ih (hsound.logged line))

section Sources

variable (hcourse : Course root name sources disk disk') (hsound : disk.Sound)

include hcourse hsound

/-- A directory that does not lie in a staging directory stays. -/
theorem directory (hsources : ∀ source ∈ sources, disk.tree.get? source ≠ some .directory) {loc : Loc}
    (hloc : disk.tree.get? loc = some .directory) (huncovered : ¬Covered root name loc) :
    disk'.tree.get? loc = some .directory := by
  have houtside : ¬Inside sources loc := by
    rintro ⟨source, hsource, hpre⟩
    by_cases heq : source = loc
    · exact hsources source hsource (heq ▸ hloc)
    · exact hsources source hsource (hsound.directory_of_prefix hpre heq hloc)
  rcases hcourse.shape loc houtside with hsame | ⟨hcovered, -⟩
  · rwa [← Tree.shape_eq_directory_iff, hsame, Tree.shape_eq_directory_iff]
  · exact absurd hcovered huncovered

/-- A way past no staging directory stays open. -/
theorem through (hsources : ∀ source ∈ sources, disk.tree.get? source ≠ some .directory)
    {path : Path} {loc : Loc} (hway : disk.Through (¬Covered root name ·) path loc) :
    disk'.Through (¬Covered root name ·) path loc :=
  hway.mono (fun _ hdir huncovered =>
    ⟨hcourse.directory hsound hsources hdir huncovered, huncovered⟩) hcourse.working

end Sources

end Course

/-! ## Without the staging directories -/

theorem Covered.below {loc loc' : Loc} (hloc : Covered root name loc) (hpre : loc <+: loc') :
    Covered root name loc' := by
  obtain ⟨middle, rfl⟩ := hloc.1
  obtain ⟨rest, rfl⟩ := hpre
  refine ⟨by simp, ?_⟩
  have hname := hloc.2
  simp only [List.append_assoc, List.drop_left] at hname ⊢
  exact List.mem_append_left _ hname

/-- The disk without the staging directories called `name` below `root`. -/
def unstaged (root : Loc) (name : String) (disk : Disk) : Disk :=
  disk.without ((disk.tree.entries.map Prod.fst).filter (Covered root name ·))

section Unstaged

variable (hsound : disk.Sound)

include hsound

theorem ne_nil_of_mem_staged {loc : Loc}
    (hloc : loc ∈ (disk.tree.entries.map Prod.fst).filter (Covered root name ·)) : loc ≠ [] := by
  obtain ⟨entry, hentry, rfl⟩ := List.mem_map.mp (List.mem_filter.mp hloc).1
  exact hsound.rooted entry hentry

theorem Sound.get?_unstaged (loc : Loc) : (disk.unstaged root name).tree.get? loc =
    if Covered root name loc then none else disk.tree.get? loc := by
  rw [unstaged, get?_without_zone fun _ => ne_nil_of_mem_staged hsound]
  by_cases hcovered : Covered root name loc
  · rw [if_pos hcovered]
    split
    · rfl
    · next houtside =>
      by_contra hheld
      obtain ⟨entry, hentry⟩ := Option.ne_none_iff_exists'.mp hheld
      have hne : loc ≠ [] := by
        rintro rfl
        simpa using hcovered.2
      have hmem := (Tree.mem_entries_iff hsound.rooted).mpr ⟨hne, hentry⟩
      exact houtside ⟨loc, List.mem_filter.mpr
        ⟨List.mem_map_of_mem hmem, by simpa using hcovered⟩, List.prefix_rfl⟩
  · rw [if_neg hcovered, if_neg]
    rintro ⟨staged, hstaged, hpre⟩
    refine hcovered (Covered.below ?_ hpre)
    simpa using (List.mem_filter.mp hstaged).2

/-- What is there without the staging directories is there, and does not lie in one. -/
theorem Sound.of_unstaged {loc : Loc} {entry : Entry}
    (hloc : (disk.unstaged root name).tree.get? loc = some entry) :
    disk.tree.get? loc = some entry ∧ ¬Covered root name loc := by
  rw [hsound.get?_unstaged] at hloc
  split at hloc
  · cases hloc
  · next huncovered => exact ⟨hloc, huncovered⟩

theorem Sound.unstaged : (disk.unstaged root name).Sound :=
  hsound.without fun _ => ne_nil_of_mem_staged hsound

theorem Sound.workingLoc?_unstaged {start : Loc}
    (hstart : (disk.unstaged root name).workingLoc? = some start) :
    disk.workingLoc? = some start ∧ ¬Covered root name start := by
  exact ⟨(disk.thinner_without fun _ => ne_nil_of_mem_staged hsound).workingLoc? hstart,
    (hsound.of_unstaged (hsound.unstaged.directory_of_workingLoc? hstart)).2⟩

end Unstaged

/-- Where links lie elsewhere, the directories outside the staging directories are retained
while files that are no directories are processed. -/
theorem Course.retains (hcourse : Course root name sources disk disk') (hsound : disk.Sound)
    (hlinkless : ∀ loc target, root <+: loc → disk.tree.get? loc ≠ some (.link target))
    (hsources : ∀ source ∈ sources, root <+: source ∧ disk.tree.get? source ≠ some .directory) :
    (disk.unstaged root name).Retains disk' := by
  have hlinks {loc : Loc} {target : String} :
      (disk.unstaged root name).tree.get? loc = some (.link target) ↔
        disk.tree.get? loc = some (.link target) := by
    refine ⟨fun hlink => (hsound.of_unstaged hlink).1, fun hlink => ?_⟩
    rw [hsound.get?_unstaged, if_neg fun hcovered => hlinkless loc target hcovered.1 hlink, hlink]
  refine ⟨fun loc hloc => ?directory, fun loc target => ?link, fun start hstart => ?working⟩
  case directory =>
    obtain ⟨hloc, huncovered⟩ := hsound.of_unstaged hloc
    exact hcourse.directory hsound (fun source hsource => (hsources source hsource).2) hloc
      huncovered
  case link =>
    rw [hlinks]
    constructor
    · intro hlink
      have houtside : ¬Inside sources loc := fun hinside => hcourse.plain loc target hinside hlink
      rcases hcourse.shape loc houtside with hsame | ⟨-, hgone⟩
      · rwa [← Tree.shape_eq_link_iff, ← hsame, Tree.shape_eq_link_iff]
      · rw [hgone] at hlink
        cases hlink
    · intro hlink
      have hoff : ¬root <+: loc := fun hroot => hlinkless loc target hroot hlink
      have houtside : ¬Inside sources loc := by
        rintro ⟨source, hsource, hpre⟩
        exact hoff ((hsources source hsource).1.trans hpre)
      rcases hcourse.shape loc houtside with hsame | ⟨hcovered, -⟩
      · rwa [← Tree.shape_eq_link_iff, hsame, Tree.shape_eq_link_iff]
      · exact absurd hcovered.1 hoff
  case working =>
    obtain ⟨hworking, huncovered⟩ := hsound.workingLoc?_unstaged hstart
    exact hcourse.working start hworking huncovered

end Disk

end Unscramble
