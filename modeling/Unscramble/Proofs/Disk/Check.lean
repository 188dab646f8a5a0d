import Unscramble.Proofs.Disk.Follow
import Unscramble.Proofs.Disk.Without

/-!
# Checking a disk

A disk has finitely many entries, so what is said about each of its locations can
be decided by looking at its entries.  The instances are about the properties
themselves; a given disk is sound, or free of links, because its entries are.
-/

namespace Unscramble

/-- Where a link points to. -/
def Entry.target? : Entry → Option String
  | .link target => some target
  | _ => none

namespace Tree

variable {tree : Tree}

/-- What a tree holds, besides its root, is what its entries say. -/
theorem get?_eq_some_iff {loc : Loc} {entry : Entry} : tree.get? loc = some entry ↔
    loc = [] ∧ entry = .directory ∨ loc ≠ [] ∧ (loc, entry) ∈ tree.entries := by
  by_cases hloc : loc = []
  · simp [hloc, eq_comm]
  · simp [get?, hloc, find_eq_some_iff tree.sorted]

instance (tree : Tree) : Decidable tree.Rooted :=
  inferInstanceAs (Decidable (∀ x ∈ tree.entries, x.1 ≠ []))

/-- What holds of the name of every entry is what holds of the last names of the entries. -/
theorem named_iff {P : String → Prop} :
    (∀ dir name entry, tree.get? (dir ++ [name]) = some entry → P name) ↔
      ∀ x ∈ tree.entries, x.1 ≠ [] → P (x.1.getLast?.getD "") := by
  constructor
  · rintro hnames ⟨loc, entry⟩ hmem hloc
    obtain ⟨dir, name, rfl⟩ := (List.eq_nil_or_concat' loc).resolve_left hloc
    simpa using hnames dir name entry (get?_eq_some_iff.mpr (.inr ⟨hloc, hmem⟩))
  · intro hentries dir name entry hget
    rcases get?_eq_some_iff.mp hget with ⟨h, -⟩ | ⟨hloc, hmem⟩
    · simp at h
    · simpa using hentries _ hmem hloc

theorem linkless_iff :
    tree.Linkless ↔ ∀ x ∈ tree.entries, x.1 ≠ [] → x.2.kind ≠ .link := by
  constructor
  · rintro hlinkless ⟨loc, entry⟩ hmem hloc hkind
    cases entry with
    | link target => exact hlinkless loc target (get?_eq_some_iff.mpr (.inr ⟨hloc, hmem⟩))
    | directory => cases hkind
    | file bytes access => cases hkind
  · intro hentries loc target hget
    rcases get?_eq_some_iff.mp hget with ⟨-, h⟩ | ⟨hloc, hmem⟩
    · cases h
    · exact hentries _ hmem hloc rfl

instance (tree : Tree) : Decidable tree.Linkless := decidable_of_iff _ linkless_iff.symm

theorem followable_iff : tree.Followable ↔
    ∀ x ∈ tree.entries, x.1 ≠ [] → ∀ target ∈ x.2.target?, (Disk.locPath x.1).Fitting ∧
      ∀ name ∈ Path.components target, name.utf8ByteSize ≤ Disk.nameMax := by
  constructor
  · rintro hfollow ⟨loc, entry⟩ hmem hloc target htarget
    cases entry with
    | link =>
      cases htarget
      exact hfollow loc target (get?_eq_some_iff.mpr (.inr ⟨hloc, hmem⟩))
    | directory => cases htarget
    | file bytes access => cases htarget
  · intro hentries loc target hlink
    rcases get?_eq_some_iff.mp hlink with ⟨-, hentry⟩ | ⟨hloc, hmem⟩
    · cases hentry
    · exact hentries _ hmem hloc target rfl

instance (tree : Tree) : Decidable tree.Followable := decidable_of_iff _ followable_iff.symm

end Tree

namespace Path

/-- A straight path has no way up among the names that follow its first one down. -/
theorem straight_iff {path : Path} :
    path.Straight ↔ ∀ name ∈ path.parts.dropWhile (· = ".."), Ordinary name := by
  constructor
  · rintro ⟨ups, downs, hparts, hdowns⟩ name hname
    have hup : (List.replicate ups "..").dropWhile (fun name => decide (name = "..")) = [] := by
      simp
    rw [hparts, List.dropWhile_append, hup] at hname
    exact hdowns name ((List.dropWhile_sublist _).subset hname)
  · intro hdowns
    refine ⟨(path.parts.takeWhile (· = "..")).length, _, ?_, hdowns⟩
    have hups : path.parts.takeWhile (· = "..") =
        List.replicate (path.parts.takeWhile (· = "..")).length ".." := by
      refine List.eq_replicate_of_mem fun name hname => ?_
      simpa using List.mem_takeWhile_imp hname
    rw [← hups, List.takeWhile_append_dropWhile]

instance (path : Path) : Decidable path.Straight := decidable_of_iff _ straight_iff.symm

end Path

namespace Disk

variable {disk disk' : Disk}

/-- A disk is sound if each entry has a name of its own in a directory, and the places
that the disk keeps are what they should be. -/
theorem sound_iff : disk.Sound ↔ disk.tree.Rooted ∧
    (∀ x ∈ disk.tree.entries, disk.tree.get? x.1.dropLast = some .directory ∧
      Path.Ordinary (x.1.getLast?.getD "")) ∧
    disk.tree.get? disk.cwd.above = some .directory ∧
    (∀ place ∈ disk.waiting, disk.tree.get? place.above = some .directory) ∧
    ∀ loc ∈ disk.log, ((disk.tree.get? loc).map Entry.kind) = some .file := by
  constructor
  · intro hsound
    refine ⟨hsound.rooted, ?_, hsound.working, hsound.waiting, ?_⟩
    · rintro ⟨loc, entry⟩ hmem
      obtain ⟨hloc, hget⟩ := (Tree.mem_entries_iff hsound.rooted).mp hmem
      obtain ⟨dir, name, rfl⟩ := (List.eq_nil_or_concat loc).resolve_left hloc
      rw [List.concat_eq_append] at hget
      simpa using ⟨hsound.closed hget, hsound.named hget⟩
    · intro loc hlog
      obtain ⟨bytes, access, hfile⟩ := hsound.logging hlog
      rw [hfile]
      rfl
  · rintro ⟨hrooted, hentries, hworking, hwaiting, hlog⟩
    have hentry {dir : Loc} {name : String} {entry : Entry}
        (hget : disk.tree.get? (dir ++ [name]) = some entry) :
        disk.tree.get? dir = some .directory ∧ Path.Ordinary name := by
      simpa using hentries _ ((Tree.mem_entries_iff hrooted).mpr ⟨by simp, hget⟩)
    refine ⟨hrooted, fun hget => (hentry hget).1, fun hget => (hentry hget).2, hworking, hwaiting, ?_⟩
    intro loc hloc
    have hkind := hlog loc hloc
    cases hget : disk.tree.get? loc with
    | none => simp [hget] at hkind
    | some entry =>
      cases entry with
      | file bytes access => exact ⟨bytes, access, rfl⟩
      | directory => simp [hget, Entry.kind] at hkind
      | link target => simp [hget, Entry.kind] at hkind

instance (disk : Disk) : Decidable disk.Sound := decidable_of_iff _ sound_iff.symm

instance (result : Except Refusal Found) : Decidable (Missing result) :=
  match result with
  | .ok (.vacant loc) => isTrue (missing_vacant loc)
  | .ok (.present _ _) => isFalse not_missing_present
  | .ok .removed => isFalse not_missing_removed
  | .error why => decidable_of_iff (why.isAbsence = true)
      ⟨fun hwhy => .inr ⟨why, rfl, hwhy⟩, fun hmissing => by simpa [Missing] using hmissing⟩

instance (disk : Disk) (path : Path) : Decidable (disk.Resolvable path) :=
  match hfind : disk.find .followed path with
  | .ok _ => isTrue fun why hwhy => by rw [hfind] at hwhy; cases hwhy
  | .error why => decidable_of_iff (why.isAbsence = true)
      ⟨fun hwhy why' hwhy' => by rw [hfind] at hwhy'; cases hwhy'; exact hwhy,
        fun hpath => hpath why hfind⟩

end Disk

end Unscramble
