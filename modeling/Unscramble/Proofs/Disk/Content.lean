import Mathlib
import Unscramble.Proofs.Disk.Alike
import Unscramble.Proofs.Disk.Straight

/-!
# What a file holds

The bytes at the end of a path, and what becomes of them when lines are logged,
files are moved and other entries are taken away.  On a disk without links they
are the bytes at one location of the directory that is reached.
-/

namespace Unscramble

/-- The bytes of the file at a location. -/
def Tree.bytes? (tree : Tree) (loc : Loc) : Option Bytes :=
  match tree.get? loc with
  | some (.file bytes _) => some bytes
  | _ => none

theorem Tree.bytes?_congr {tree tree' : Tree} {loc : Loc} (hget : tree'.get? loc = tree.get? loc) :
    tree'.bytes? loc = tree.bytes? loc := by
  rw [bytes?, bytes?, hget]

namespace Disk

variable {disk disk' : Disk} {path dir : Path} {name : String} {loc : Loc} {manner : Manner}

/-- The bytes of the file that a path leads to. -/
def content? (disk : Disk) (path : Path) : Option Bytes :=
  match disk.stat .followed path with
  | .ok (.file bytes _) => some bytes
  | _ => none

/-- The bytes that a promotion from a path brings back: those of a file that is not empty. -/
def output? (disk : Disk) (path : Path) : Option Bytes :=
  (disk.content? path).filter fun bytes => decide (bytes ≠ [])

theorem content?_eq_some_iff {bytes : Bytes} : disk.content? path = some bytes ↔
    ∃ loc access, disk.find .followed path = .ok (.present loc (.file bytes access)) := by
  simp only [content?, stat]
  rcases disk.find .followed path with why | ⟨loc, entry⟩ | loc | _
  · simp [bind, Except.bind]
  · cases entry with
    | directory => simp [bind, Except.bind]
    | link target => simp [bind, Except.bind]
    | file held access =>
        constructor
        · rintro ⟨⟩
          exact ⟨loc, access, rfl⟩
        · rintro ⟨_, _, ⟨⟩⟩
          rfl
  · simp [bind, Except.bind]
  · simp [bind, Except.bind]

/-- What is found on a thinner disk was there before, if its location holds the same. -/
theorem Thinner.same (hthin : disk'.Thinner disk) (hsound : disk.Sound) {entry : Entry}
    (hfind : disk'.find manner path = .ok (.present loc entry))
    (hget : disk'.tree.get? loc = disk.tree.get? loc) :
    disk.find manner path = .ok (.present loc entry) := by
  obtain ⟨held, hheld, -⟩ := hthin.present hsound hfind
  have hsame := find_fits hheld
  rw [Fits, ← hget, find_fits hfind] at hsame
  cases hsame
  exact hheld

/-! ## Beside the log -/

/-- The path does not lead to the file of the open log. -/
def Unlogged (disk : Disk) (path : Path) : Prop :=
  ∀ loc entry, disk.find .followed path = .ok (.present loc entry) → disk.log ≠ some loc

theorem Unlogged.thinner (hpath : disk.Unlogged path) (hthin : disk'.Thinner disk)
    (hsound : disk.Sound) (hlog : disk'.log = disk.log ∨ disk'.log = none) :
    disk'.Unlogged path := by
  intro loc entry hfind hopened
  obtain ⟨held, hheld, -⟩ := hthin.present hsound hfind
  rcases hlog with hlog | hlog <;> rw [hlog] at hopened
  · exact hpath loc held hheld hopened
  · cases hopened

theorem content?_logged (hsound : disk.Sound) (hpath : disk.Unlogged path) (line : String) :
    (disk.logged line).content? path = disk.content? path := by
  have hthin := disk.thinner_logged line
  have hback := disk.logged_thinner line
  ext bytes
  rw [content?_eq_some_iff, content?_eq_some_iff]
  constructor
  · rintro ⟨loc, access, hfind⟩
    obtain ⟨held, hheld, -⟩ := hthin.present hsound hfind
    exact ⟨loc, access, hthin.same hsound hfind (get?_logged line (hpath loc held hheld))⟩
  · rintro ⟨loc, access, hfind⟩
    have hlog := hpath loc _ hfind
    exact ⟨loc, access, hback.same (hsound.logged line) hfind (get?_logged line hlog).symm⟩

/-! ## In a directory without links -/

section Reached

variable (hlinkless : disk.tree.Linkless) (hname : Path.Ordinary name)
  (hfits : (dir.child name).Fitting)
  (hdir : disk.find .followed dir = .ok (.present loc .directory))

include hname hfits hdir in
theorem find_itself_child : disk.find .itself (dir.child name) =
    .ok (Found.on disk.tree (.vacant (loc ++ [name]))) := by
  have hshort : name.utf8ByteSize ≤ nameMax := hfits.2 name (by simp [Path.child])
  rw [find_child_of_reached hname hshort hfits.1 hdir, Found.on]
  cases disk.tree.get? (loc ++ [name]) <;> rfl

include hlinkless hname hfits hdir in
theorem find_followed_child : disk.find .followed (dir.child name) =
    .ok (Found.on disk.tree (.vacant (loc ++ [name]))) :=
  (find_followed_of_linkless hlinkless _).trans (find_itself_child hname hfits hdir)

include hlinkless hname hfits hdir in
theorem content?_child : disk.content? (dir.child name) = disk.tree.bytes? (loc ++ [name]) := by
  simp only [content?, stat, find_followed_child hlinkless hname hfits hdir, Found.on, Tree.bytes?]
  rcases disk.tree.get? (loc ++ [name]) with _ | _ | _ | _ <;> rfl

end Reached

/-- Nothing is found where the directory of a name is not reached. -/
theorem content?_child_of_not_reached (hname : Path.Ordinary name)
    (hdir : ∀ loc, disk.find .followed dir ≠ .ok (.present loc .directory)) :
    disk.content? (dir.child name) = none := by
  obtain ⟨why, hwhy⟩ := find_child_of_not_reached hname hdir
  have hfollowed : disk.find .followed (dir.child name) = .error why :=
    find_followed_of_ne_link hwhy (by simp)
  simp only [content?, stat, hfollowed]
  rfl

end Disk

end Unscramble
