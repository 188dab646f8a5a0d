import Mathlib
import Unscramble.Proofs.Disk.Check
import Unscramble.Proofs.Disk.Descent

/-!
# Clearing a directory

Entries of one name that lead to directories are removed below a root, one after the other,
with lines in the log in between.  The disk in the end is the one in the beginning without
what has been removed; nothing comes back, so what has been cleared once stays clear.
-/

namespace Unscramble

/-- No entry has a NUL in its name. -/
def Tree.NulFree (tree : Tree) : Prop :=
  ∀ dir name entry, tree.get? (dir ++ [name]) = some entry → '\x00' ∉ name.toList

instance (tree : Tree) : Decidable tree.NulFree := decidable_of_iff _ Tree.named_iff.symm

namespace Disk

variable {disk disk' disk'' : Disk} {root : Path} {base dir : Loc} {name : String}

theorem NulFree.thinner (hnul : disk.tree.NulFree) (hthin : disk'.Thinner disk) :
    disk'.tree.NulFree := by
  intro dir name entry hentry
  rcases hthin.tree (dir ++ [name]) with hgone | hshape
  · rw [hgone] at hentry
    cases hentry
  · obtain ⟨held, hheld, -⟩ := get?_of_shape hshape.symm hentry
    exact hnul dir name held hheld

/-- Entries called `name` that lead to directories are removed below `root`, which lies at
`base`, one after the other, with lines in the log in between. -/
inductive Clearing (root : Path) (base : Loc) (name : String) : Disk → List Loc → Disk → Prop
  | done (disk : Disk) : Clearing root base name disk [] disk
  | noted {disk disk' : Disk} {removed : List Loc} (line : String)
      (hrest : Clearing root base name (disk.logged line) removed disk') :
      Clearing root base name disk removed disk'
  | removed {disk disk' : Disk} {removed : List Loc} {dir : Loc} {entry : Entry}
      (hheld : disk.tree.get? (base ++ (dir ++ [name])) = some entry)
      (hleads : disk.isDirectory (root.below (dir ++ [name])) = .ok true)
      (hrest : Clearing root base name (disk.eraseWithin (base ++ (dir ++ [name]))) removed disk') :
      Clearing root base name disk ((dir ++ [name]) :: removed) disk'

namespace Clearing

variable {removed removed' : List Loc}

theorem trans (hfirst : Clearing root base name disk removed disk')
    (hsecond : Clearing root base name disk' removed' disk'') :
    Clearing root base name disk (removed ++ removed') disk'' := by
  induction hfirst with
  | done => exact hsecond
  | noted line _ ih => exact .noted line (ih hsecond)
  | removed hheld hleads _ ih => exact .removed hheld hleads (ih hsecond)

theorem ne_nil_of_mem (hclearing : Clearing root base name disk removed disk') {loc : Loc}
    (hloc : loc ∈ removed.map (base ++ ·)) : loc ≠ [] := by
  induction hclearing with
  | done => cases hloc
  | noted _ _ ih => exact ih hloc
  | removed _ _ _ ih =>
      rw [List.map_cons, List.mem_cons] at hloc
      rcases hloc with rfl | hloc
      · simp
      · exact ih hloc

/-- What is removed carries the name. -/
theorem named (hclearing : Clearing root base name disk removed disk') {loc : Loc}
    (hloc : loc ∈ removed) : ∃ dir, loc = dir ++ [name] := by
  induction hclearing with
  | done => cases hloc
  | noted _ _ ih => exact ih hloc
  | removed _ _ _ ih =>
      rcases List.mem_cons.mp hloc with rfl | hloc
      · exact ⟨_, rfl⟩
      · exact ih hloc

theorem sound (hclearing : Clearing root base name disk removed disk') (hsound : disk.Sound) :
    disk'.Sound := by
  induction hclearing with
  | done => exact hsound
  | noted line _ ih => exact ih (hsound.logged line)
  | removed _ _ _ ih => exact ih (hsound.eraseWithin (by simp))

theorem thinner (hclearing : Clearing root base name disk removed disk') : disk'.Thinner disk := by
  induction hclearing with
  | done => exact .refl _
  | noted line _ ih => exact ih.trans (thinner_logged _ line)
  | removed _ _ _ ih => exact ih.trans (thinner_eraseWithin _ (by simp))

/-- What is removed was there before. -/
theorem held (hclearing : Clearing root base name disk removed disk') {loc : Loc}
    (hloc : loc ∈ removed) : disk.tree.get? (base ++ loc) ≠ none := by
  induction hclearing with
  | done => cases hloc
  | @noted disk _ _ line _ ih =>
      intro hnone
      rcases (disk.thinner_logged line).tree (base ++ loc) with hgone | hshape
      · exact ih hloc hgone
      · refine ih hloc ?_
        simpa [Tree.shape, hnone] using hshape
  | @removed disk _ _ dir entry hheld _ _ ih =>
      rcases List.mem_cons.mp hloc with rfl | hloc
      · simp [hheld]
      · intro hnone
        refine ih hloc ?_
        rw [get?_within _ (by simp)]
        split
        · rfl
        · exact hnone

/-- What is gone lay in what has been removed, and that led to a directory in the beginning. -/
theorem gone (hclearing : Clearing root base name disk removed disk') (hsound : disk.Sound)
    {loc : Loc} {entry : Entry} (hentry : disk.tree.get? loc = some entry)
    (hgone : disk'.tree.get? loc = none) :
    ∃ dir, base ++ (dir ++ [name]) <+: loc ∧
      disk.isDirectory (root.below (dir ++ [name])) = .ok true := by
  induction hclearing generalizing entry with
  | done => cases hentry.symm.trans hgone
  | @noted disk _ _ line _ ih =>
      obtain ⟨entry', hentry', -⟩ := get?_of_shape (disk.shape_logged line loc) hentry
      obtain ⟨dir, hdir, hleads⟩ := ih (hsound.logged line) hentry' hgone
      have hname : Path.Ordinary name :=
        hsound.ordinary_of_mem hentry name (hdir.subset (by simp))
      refine ⟨dir, hdir, ?_⟩
      rw [← Path.child_below, isDirectory_child_iff hname] at hleads ⊢
      exact hleads.imp fun _ => (disk.thinner_logged line).directory hsound
  | @removed disk _ _ dir _ _ hleads _ ih =>
      by_cases hpre : base ++ (dir ++ [name]) <+: loc
      · exact ⟨dir, hpre, hleads⟩
      have hentry' : (disk.eraseWithin (base ++ (dir ++ [name]))).tree.get? loc = some entry := by
        rw [get?_within _ (by simp), if_neg hpre, hentry]
      obtain ⟨dir', hdir', hleads'⟩ := ih (hsound.eraseWithin (by simp)) hentry' hgone
      have hname : Path.Ordinary name :=
        hsound.ordinary_of_mem hentry name (hdir'.subset (by simp))
      refine ⟨dir', hdir', ?_⟩
      rw [← Path.child_below, isDirectory_child_iff hname] at hleads' ⊢
      exact hleads'.imp fun _ => (disk.thinner_eraseWithin (by simp)).directory hsound

end Clearing

/-- No entry called `name` at or below `dir` leads to a directory. -/
def Clean (root : Path) (base : Loc) (name : String) (dir : Loc) (disk : Disk) : Prop :=
  ∀ down entry, dir <+: down → disk.tree.get? (base ++ (down ++ [name])) = some entry →
    ∀ loc, disk.find .followed (root.below (down ++ [name])) ≠ .ok (.present loc .directory)

theorem Clean.thinner (hclean : Clean root base name dir disk) (hthin : disk'.Thinner disk)
    (hsound : disk.Sound) : Clean root base name dir disk' := by
  intro down entry hdown hentry loc hfind
  obtain ⟨held, hheld, -⟩ := hthin.held hentry
  exact hclean down held hdown hheld loc (hthin.directory hsound hfind)

/-- Where nothing of the name leads to a directory, nothing is removed. -/
theorem Clearing.eq_nil {removed : List Loc}
    (hclearing : Clearing root base name disk removed disk') (hsound : disk.Sound)
    (hclean : Clean root base name [] disk) : removed = [] := by
  induction hclearing with
  | done => rfl
  | noted line _ ih =>
      exact ih (hsound.logged line) (hclean.thinner (thinner_logged _ line) hsound)
  | @removed _ _ _ dir entry hheld hleads _ _ =>
      have hname : Path.Ordinary name := by
        rw [← List.append_assoc] at hheld
        exact hsound.named hheld
      rw [← Path.child_below, isDirectory_child_iff hname, Path.child_below] at hleads
      obtain ⟨loc, hfind⟩ := hleads
      exact absurd hfind (hclean dir entry List.nil_prefix hheld loc)

/-- A clear directory has no directory of the name below it, within the limits of the system. -/
theorem Clean.not_directory (hclean : Clean root base name [] disk) (hsound : disk.Sound)
    (hroot : disk.find .followed root = .ok (.present base .directory))
    (hpath : (root.below (dir ++ [name])).Fitting) :
    disk.tree.get? (base ++ (dir ++ [name])) ≠ some .directory := by
  intro hheld
  refine hclean dir _ List.nil_prefix hheld (base ++ (dir ++ [name])) ?_
  rw [hsound.find_below hroot hheld hpath.1, if_pos]
  exact fun other hother => hpath.2 other (List.mem_append_right _ hother)

/-- What leads to a directory is a directory itself or a link. -/
theorem itself_of_leads {path : Path} {loc : Loc}
    (hleads : disk.find .followed path = .ok (.present loc .directory)) :
    ∃ place entry, (entry = .directory ∨ ∃ target, entry = .link target) ∧
      disk.find .itself path = .ok (.present place entry) := by
  rcases disk.find_followed path with ⟨place, target, hlink⟩ | heq
  · exact ⟨place, _, .inr ⟨target, rfl⟩, hlink⟩
  · exact ⟨loc, _, .inl rfl, heq ▸ hleads⟩

/-- If an entry below a directory leads to a directory, all real directories on the way to it
are reached. -/
theorem Sound.reached_above (hsound : disk.Sound)
    (hroot : disk.find .followed root = .ok (.present base .directory)) {down : Loc} {entry : Entry}
    (hheld : disk.tree.get? (base ++ (down ++ [name])) = some entry) {loc : Loc} {found : Entry}
    (hfind : disk.find .followed (root.below (down ++ [name])) = .ok (.present loc found))
    (hdir : dir <+: down) :
    disk.find .followed (root.below dir) = .ok (.present (base ++ dir) .directory) := by
  rw [← List.append_assoc] at hheld
  have hname := hsound.named hheld
  have hdown := hsound.closed hheld
  have hitself : ∃ found, disk.find .itself ((root.below down).child name) = .ok found := by
    rw [Path.child_below]
    rcases disk.find_followed (root.below (down ++ [name])) with ⟨q, text, hlink⟩ | heq
    · exact ⟨_, hlink⟩
    · exact ⟨_, heq ▸ hfind⟩
  obtain ⟨found', hitself⟩ := hitself
  obtain ⟨p, hp, -⟩ := reached_of_find_child hname hitself
  obtain ⟨-, hshort⟩ := hsound.leads_below hroot hdown hp
  obtain ⟨more, rfl⟩ := hdir
  have hmore : ∀ other ∈ more, other ≠ "" := fun other hother =>
    Path.ordinary_ne_empty (hsound.ordinary_of_mem hdown other (by simp [hother]))
  have hdirectory : disk.tree.get? (base ++ dir) = some .directory := by
    rw [← List.append_assoc] at hdown
    by_cases heq : base ++ dir = base ++ dir ++ more
    · rwa [heq]
    · exact hsound.directory_of_prefix (List.prefix_append _ _) heq hdown
  rw [hsound.find_below hroot hdirectory ((nameable_of_find hp).of_below hmore), if_pos]
  exact fun other hother => hshort other (List.mem_append_left _ hother)

end Disk

end Unscramble
