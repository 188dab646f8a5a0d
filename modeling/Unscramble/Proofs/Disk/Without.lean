import Mathlib
import Unscramble.Proofs.Disk.Thinner
import Unscramble.Status

/-!
# Disks without some locations

Two disks that differ only at or below some locations are equal once everything
there has been erased.  A line added to the log changes neither where paths lead
nor which disks agree.
-/

namespace Unscramble

/-- An entry after the bytes of a file have been changed. -/
def Entry.altered (change : Bytes → Bytes) : Entry → Entry
  | .file bytes access => .file (change bytes) access
  | other => other

namespace Disk

variable {disk disk' : Disk} {locs : List Loc}

/-! ## Lines in the log -/

theorem get?_alter (disk : Disk) (loc : Loc) (change : Bytes → Bytes) (q : Loc) :
    (disk.alter loc change).tree.get? q =
      if q = loc then (disk.tree.get? loc).map (Entry.altered change) else disk.tree.get? q := by
  rcases hheld : disk.tree.get? loc with _ | _ | ⟨bytes, access⟩ | target
  case some.file =>
    have hloc : loc ≠ [] := Tree.ne_nil_of_get? hheld (by simp)
    simp only [alter, hheld, get?_insert _ hloc, Option.map_some, Entry.altered]
  all_goals
    simp only [alter, hheld, Option.map_none, Option.map_some, Entry.altered]
    split
    · next heq => rw [heq, hheld]
    · rfl

theorem logged_eq (disk : Disk) (line : String) :
    (∃ loc, disk.log = some loc ∧
      disk.logged line = disk.alter loc (· ++ Text.encode line)) ∨
    disk.log = none ∧ disk.logged line = disk := by
  unfold logged
  split
  · next loc hopen => exact .inl ⟨loc, hopen, rfl⟩
  · next hclosed => exact .inr ⟨hclosed, rfl⟩

theorem Sound.logged (hsound : disk.Sound) (line : String) : (disk.logged line).Sound := by
  rcases disk.logged_eq line with ⟨loc, -, heq⟩ | ⟨-, heq⟩ <;> rw [heq]
  · exact hsound.alter _ _
  · exact hsound

theorem shape_logged (disk : Disk) (line : String) (q : Loc) :
    (disk.logged line).tree.shape q = disk.tree.shape q := by
  rcases disk.logged_eq line with ⟨loc, -, heq⟩ | ⟨-, heq⟩ <;> rw [heq]
  exact disk.shape_alter _ _ q

theorem alter_places (disk : Disk) (loc : Loc) (change : Bytes → Bytes) :
    (disk.alter loc change).cwd = disk.cwd ∧ (disk.alter loc change).waiting = disk.waiting ∧
      (disk.alter loc change).log = disk.log := by
  rcases disk.alter_eq loc change with ⟨bytes, access, hfile, halter⟩ | halter <;> rw [halter]
  · exact ⟨rfl, rfl, rfl⟩
  · exact ⟨rfl, rfl, rfl⟩

theorem logged_places (disk : Disk) (line : String) :
    (disk.logged line).cwd = disk.cwd ∧ (disk.logged line).waiting = disk.waiting ∧
      (disk.logged line).log = disk.log := by
  rcases disk.logged_eq line with ⟨loc, -, heq⟩ | ⟨-, heq⟩ <;> rw [heq]
  · exact disk.alter_places _ _
  · exact ⟨rfl, rfl, rfl⟩

theorem get?_logged {loc : Loc} (line : String) (hlog : disk.log ≠ some loc) :
    (disk.logged line).tree.get? loc = disk.tree.get? loc := by
  rcases disk.logged_eq line with ⟨opened, hopened, heq⟩ | ⟨-, heq⟩
  · rw [heq, get?_alter, if_neg]
    rintro rfl
    exact hlog hopened
  · rw [heq]

theorem thinner_logged (disk : Disk) (line : String) : (disk.logged line).Thinner disk :=
  .of_shape (disk.shape_logged line) (disk.logged_places line).1

theorem logged_thinner (disk : Disk) (line : String) : disk.Thinner (disk.logged line) :=
  .of_shape (fun q => (disk.shape_logged line q).symm) (disk.logged_places line).1.symm

/-- The disk after some lines have been added to the log. -/
def noted (disk : Disk) (lines : List String) : Disk := lines.foldl logged disk

theorem noted_append (disk : Disk) (lines lines' : List String) :
    disk.noted (lines ++ lines') = (disk.noted lines).noted lines' := by
  rw [noted, List.foldl_append]
  rfl

theorem Sound.noted (hsound : disk.Sound) (lines : List String) : (disk.noted lines).Sound := by
  induction lines generalizing disk with
  | nil => exact hsound
  | cons line rest ih => exact ih (hsound.logged line)

theorem noted_places (disk : Disk) (lines : List String) :
    (disk.noted lines).cwd = disk.cwd ∧ (disk.noted lines).waiting = disk.waiting ∧
      (disk.noted lines).log = disk.log := by
  induction lines generalizing disk with
  | nil => exact ⟨rfl, rfl, rfl⟩
  | cons line rest ih =>
      obtain ⟨hcwd, hwaiting, hlog⟩ := ih (disk.logged line)
      obtain ⟨hcwd', hwaiting', hlog'⟩ := disk.logged_places line
      exact ⟨hcwd.trans hcwd', hwaiting.trans hwaiting', hlog.trans hlog'⟩

theorem get?_noted {loc : Loc} (lines : List String) (hlog : disk.log ≠ some loc) :
    (disk.noted lines).tree.get? loc = disk.tree.get? loc := by
  induction lines generalizing disk with
  | nil => rfl
  | cons line rest ih =>
      have hlog' : (disk.logged line).log ≠ some loc := by rwa [(disk.logged_places line).2.2]
      exact (ih hlog').trans (get?_logged line hlog)

theorem shape_noted (disk : Disk) (lines : List String) (q : Loc) :
    (disk.noted lines).tree.shape q = disk.tree.shape q := by
  induction lines generalizing disk with
  | nil => rfl
  | cons line rest ih => exact (ih (disk.logged line)).trans (disk.shape_logged line q)

/-! ## Erasing some locations -/

/-- The disk without what lies at or below any of `locs`. -/
def without (disk : Disk) (locs : List Loc) : Disk := locs.foldl eraseWithin disk

theorem without_cons (disk : Disk) (loc : Loc) (locs : List Loc) :
    disk.without (loc :: locs) = (disk.eraseWithin loc).without locs := rfl

theorem Sound.without (hsound : disk.Sound) (hlocs : ∀ loc ∈ locs, loc ≠ []) :
    (disk.without locs).Sound := by
  induction locs generalizing disk with
  | nil => exact hsound
  | cons loc rest ih =>
      exact ih (hsound.eraseWithin (hlocs loc List.mem_cons_self))
        fun other hother => hlocs other (List.mem_cons_of_mem _ hother)

theorem thinner_without (disk : Disk) (hlocs : ∀ loc ∈ locs, loc ≠ []) :
    (disk.without locs).Thinner disk := by
  induction locs generalizing disk with
  | nil => exact .refl disk
  | cons loc rest ih =>
      exact (ih _ fun other hother => hlocs other (List.mem_cons_of_mem _ hother)).trans
        (disk.thinner_eraseWithin (hlocs loc List.mem_cons_self))

theorem get?_without (disk : Disk) (hlocs : ∀ loc ∈ locs, loc ≠ []) (q : Loc) :
    (disk.without locs).tree.get? q =
      if ∃ loc ∈ locs, loc <+: q then none else disk.tree.get? q := by
  induction locs generalizing disk with
  | nil => simp [without]
  | cons loc rest ih =>
      rw [without_cons, ih _ fun other hother => hlocs other (List.mem_cons_of_mem _ hother),
        get?_within _ (hlocs loc List.mem_cons_self)]
      by_cases hloc : loc <+: q <;> simp [hloc]

theorem without_cwd (disk : Disk) (locs : List Loc) :
    (disk.without locs).cwd = locs.foldl Standpoint.within disk.cwd := by
  induction locs generalizing disk with
  | nil => rfl
  | cons loc rest ih => exact ih _

/-- The disks differ at most at or below `locs`. -/
structure AgreeBeyond (locs : List Loc) (disk disk' : Disk) : Prop where
  tree : ∀ q, (∀ loc ∈ locs, ¬loc <+: q) → disk.tree.get? q = disk'.tree.get? q
  cwd : disk.cwd = disk'.cwd
  waiting : disk.waiting = disk'.waiting
  log : disk.log = disk'.log

theorem AgreeBeyond.alter (hagree : AgreeBeyond locs disk disk') (loc : Loc)
    (change : Bytes → Bytes) :
    AgreeBeyond locs (disk.alter loc change) (disk'.alter loc change) where
  tree q hq := by
    rw [get?_alter, get?_alter]
    split
    · next heq => rw [hagree.tree loc (heq ▸ hq)]
    · exact hagree.tree q hq
  cwd := by rw [(disk.alter_places loc change).1, (disk'.alter_places loc change).1, hagree.cwd]
  waiting := by
    rw [(disk.alter_places loc change).2.1, (disk'.alter_places loc change).2.1, hagree.waiting]
  log := by
    rw [(disk.alter_places loc change).2.2, (disk'.alter_places loc change).2.2, hagree.log]

theorem AgreeBeyond.logged (hagree : AgreeBeyond locs disk disk') (line : String) :
    AgreeBeyond locs (disk.logged line) (disk'.logged line) := by
  unfold Disk.logged
  rw [hagree.log]
  split
  · exact hagree.alter _ _
  · exact hagree

theorem AgreeBeyond.eraseWithin {loc : Loc} (hagree : AgreeBeyond (loc :: locs) disk disk')
    (hloc : loc ≠ []) : AgreeBeyond locs (disk.eraseWithin loc) (disk'.eraseWithin loc) where
  tree q hq := by
    rw [get?_within _ hloc, get?_within _ hloc]
    by_cases hpre : loc <+: q
    · simp [hpre]
    · simp only [hpre, if_false]
      exact hagree.tree q (by simpa [hpre] using hq)
  cwd := by simp [Disk.eraseWithin, hagree.cwd]
  waiting := by simp [Disk.eraseWithin, hagree.waiting]
  log := by simp [Disk.eraseWithin, hagree.log]

/-- Disks that agree beyond some locations are equal without them. -/
theorem AgreeBeyond.without_eq (hagree : AgreeBeyond locs disk disk') (hsound : disk.Sound)
    (hsound' : disk'.Sound) (hlocs : ∀ loc ∈ locs, loc ≠ []) :
    disk.without locs = disk'.without locs := by
  induction locs generalizing disk disk' with
  | nil =>
      have htree : disk.tree = disk'.tree :=
        Tree.ext_get? hsound.rooted hsound'.rooted fun q => hagree.tree q (by simp)
      obtain ⟨_, _, _, _⟩ := disk
      obtain ⟨_, _, _, _⟩ := disk'
      cases htree
      cases hagree.cwd
      cases hagree.waiting
      cases hagree.log
      rfl
  | cons loc rest ih =>
      have hloc := hlocs loc List.mem_cons_self
      exact ih (hagree.eraseWithin hloc) (hsound.eraseWithin hloc) (hsound'.eraseWithin hloc)
        fun other hother => hlocs other (List.mem_cons_of_mem _ hother)

end Disk

end Unscramble
