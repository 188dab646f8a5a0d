import Unscramble.Proofs.Confined

/-!
# Two disks that are alike at a file

A run over a file sees and changes what lies at the file and its artifacts.  Two disks on
which the file lies in a directory of the same location may differ everywhere else: as long
as they are alike at these places, the same is found there, the same can be done to it, and
they stay alike.
-/

namespace Unscramble

open Disk Workspace

variable {σ α β : Type} {file : Path} {outputName name : String} {dir loc : Loc}
  {locs : List Loc} {base base' disk disk' : Disk}

/-- Neither the file nor an artifact holds a link or is the log. -/
structure Disk.Sealed (file : Path) (outputName : String) (dir : Loc) (base disk : Disk) : Prop
    extends Around file outputName dir base disk where
  plain : ∀ loc target, Inside (fileLocs file outputName dir) loc →
    disk.tree.get? loc ≠ some (.link target)
  unlogged : ∀ loc, Inside (fileLocs file outputName dir) loc → disk.log ≠ some loc

/-- Two sealed disks hold the same inside a part of what lies at the file and its artifacts. -/
structure Disk.Twins (file : Path) (outputName : String) (dir : Loc) (locs : List Loc)
    (base base' disk disk' : Disk) : Prop where
  left : Sealed file outputName dir base disk
  right : Sealed file outputName dir base' disk'
  part : ∀ loc, Inside locs loc → Inside (fileLocs file outputName dir) loc
  same : ∀ loc, Inside locs loc → disk.tree.get? loc = disk'.tree.get? loc

namespace Disk.Sealed

variable (hsealed : Sealed file outputName dir base disk)

include hsealed

/-- A change around the file makes no link there and lets no log be opened there. -/
theorem of_around (haround : Around file outputName dir base disk')
    (hplain : ∀ loc target, Inside (fileLocs file outputName dir) loc →
      disk'.tree.get? loc ≠ some (.link target))
    (hlog : ∀ loc, disk'.log = some loc → disk.log = some loc) :
    Sealed file outputName dir base disk' where
  toAround := haround
  plain := hplain
  unlogged loc hloc hopen := hsealed.unlogged loc hloc (hlog loc hopen)

theorem logged (line : String) : Sealed file outputName dir base (disk.logged line) := by
  refine hsealed.of_around (hsealed.toAround.logged line) (fun q target hq hlink => ?_)
    fun q hopen => (disk.logged_places line).2.2 ▸ hopen
  rw [get?_logged line (hsealed.unlogged q hq)] at hlink
  exact hsealed.plain q target hq hlink

theorem eraseWithin (hloc : Inside (fileLocs file outputName dir) loc) (hne : loc ≠ []) :
    Sealed file outputName dir base (disk.eraseWithin loc) := by
  refine hsealed.of_around (hsealed.toAround.eraseWithin hloc hne) (fun q target hq hlink => ?_)
    fun q hopen => Surrounds.log_of_filter hopen
  rw [get?_within _ hne] at hlink
  split at hlink
  · cases hlink
  · exact hsealed.plain q target hq hlink

/-- A directory is made under a free name. -/
theorem insert (hloc : Inside (fileLocs file outputName dir) (dir ++ [name]))
    (hname : Path.Ordinary name) (hfree : disk.tree.get? (dir ++ [name]) = none) :
    Sealed file outputName dir base (disk.insert (dir ++ [name]) .directory) := by
  have hsound : (disk.insert (dir ++ [name]) .directory).Sound :=
    hsealed.sound.insert (find_fits hsealed.reached_whole) hname (by simp [hfree])
      fun hopen => absurd hopen (hsealed.unlogged _ hloc)
  refine hsealed.of_around ⟨hsealed.toSurrounds.insert hloc (by simp) hsound, hsealed.reached⟩
    (fun q target hq hlink => ?_) fun _ hopen => hopen
  rw [get?_insert _ (by simp)] at hlink
  split at hlink
  · cases hlink
  · exact hsealed.plain q target hq hlink

/-- An entry that is no directory is moved from one place to another. -/
theorem move {a b : Loc} {entry : Entry} (ha : disk.tree.get? a = some entry)
    (hentry : entry ≠ .directory) (hb : disk.tree.get? b ≠ some .directory)
    (hsound : (disk.move a b entry).Sound) (hinside : Inside (fileLocs file outputName dir) a)
    (hinside' : Inside (fileLocs file outputName dir) b) :
    Sealed file outputName dir base (disk.move a b entry) := by
  refine hsealed.of_around
    ⟨hsealed.toSurrounds.move ha hentry hb hsound hinside hinside', hsealed.reached⟩
    (fun q target hq hlink => ?_) fun q hopen => ?_
  · rw [hsealed.sound.get?_move ha hentry hb] at hlink
    split at hlink
    · cases hlink
      exact hsealed.plain a target hinside ha
    · split at hlink
      · cases hlink
      · exact hsealed.plain q target hq hlink
  · rw [hsealed.sound.move_eq ha hentry hb] at hopen
    obtain ⟨p, hp, hq⟩ := Option.map_eq_some_iff.mp hopen
    split at hq
    · next heq =>
      exact absurd (Surrounds.log_of_filter hp) (heq ▸ hsealed.unlogged _ hinside)
    · exact hq ▸ Surrounds.log_of_filter hp

end Disk.Sealed

namespace Disk.Twins

variable (htwins : Twins file outputName dir locs base base' disk disk')

include htwins

theorem logged (line line' : String) :
    Twins file outputName dir locs base base' (disk.logged line) (disk'.logged line') where
  left := htwins.left.logged line
  right := htwins.right.logged line'
  part := htwins.part
  same q hq := by
    have hinside := htwins.part q hq
    rw [get?_logged line (htwins.left.unlogged q hinside),
      get?_logged line' (htwins.right.unlogged q hinside), htwins.same q hq]

theorem eraseWithin (hloc : Inside (fileLocs file outputName dir) loc) (hne : loc ≠ []) :
    Twins file outputName dir locs base base' (disk.eraseWithin loc) (disk'.eraseWithin loc) where
  left := htwins.left.eraseWithin hloc hne
  right := htwins.right.eraseWithin hloc hne
  part := htwins.part
  same q hq := by rw [get?_within _ hne, get?_within _ hne, htwins.same q hq]

theorem insert (hloc : Inside (fileLocs file outputName dir) (dir ++ [name]))
    (hname : Path.Ordinary name) (hfree : disk.tree.get? (dir ++ [name]) = none)
    (hfree' : disk'.tree.get? (dir ++ [name]) = none) :
    Twins file outputName dir locs base base' (disk.insert (dir ++ [name]) .directory)
      (disk'.insert (dir ++ [name]) .directory) where
  left := htwins.left.insert hloc hname hfree
  right := htwins.right.insert hloc hname hfree'
  part := htwins.part
  same q hq := by rw [get?_insert _ (by simp), get?_insert _ (by simp), htwins.same q hq]

end Disk.Twins

/-! ## What is found -/

/-- Two disks find the same at a path, no link, and it lies inside some locations. -/
structure Disk.SameAt (locs : List Loc) (disk disk' : Disk) (path : Path) : Prop where
  itself : disk.find .itself path = disk'.find .itself path
  followed : disk.find .followed path = disk.find .itself path
  followed' : disk'.find .followed path = disk'.find .itself path
  inside : ∀ loc entry, disk.find .itself path = .ok (.present loc entry) → Inside locs loc

namespace Disk.SameAt

variable {path : Path} (hsame : SameAt locs disk disk' path)

include hsame

theorem find_followed : disk.find .followed path = disk'.find .followed path := by
  rw [hsame.followed, hsame.itself, hsame.followed']

theorem stat_followed : disk.stat .followed path = disk'.stat .followed path := by
  rw [stat, stat, hsame.find_followed]

theorem isDirectory : disk.isDirectory path = disk'.isDirectory path := by
  rw [Disk.isDirectory, Disk.isDirectory, ask, ask, hsame.stat_followed]

theorem isFile : disk.isFile path = disk'.isFile path := by
  rw [Disk.isFile, Disk.isFile, ask, ask, hsame.stat_followed]

theorem present : disk.present path = disk'.present path := by
  rw [Disk.present, Disk.present, ask, ask, hsame.stat_followed]

theorem isEmptyFile : disk.isEmptyFile path = disk'.isEmptyFile path := by
  rw [Disk.isEmptyFile, Disk.isEmptyFile, hsame.stat_followed]

theorem readBytes : disk.readBytes path = disk'.readBytes path := by
  rw [Disk.readBytes, Disk.readBytes, hsame.stat_followed]

end Disk.SameAt

namespace Disk.Twins

variable (htwins : Twins file outputName dir locs base base' disk disk')

include htwins

/-- A name stands for the same in a directory that is found alike. -/
theorem sameAt_child {path : Path} (hname : Path.Ordinary name)
    (hparent : disk.find .followed path = disk'.find .followed path)
    (hinside : ∀ q, disk.find .followed path = .ok (.present q .directory) →
      Inside locs (q ++ [name])) : SameAt locs disk disk' (path.child name) := by
  have hitself : disk.find .itself (path.child name) = disk'.find .itself (path.child name) := by
    by_cases hpath : (path.child name).Nameable
    · rw [find_child hname hpath, find_child hname hpath, ← hparent]
      by_cases hdir : ∃ q, disk.find .followed path = .ok (.present q .directory)
      · obtain ⟨q, hq⟩ := hdir
        simp only [hq, lookUp, htwins.same _ (hinside q hq)]
      · unfold lookUp
        split
        · next q heq => exact absurd ⟨q, heq⟩ hdir
        all_goals rfl
    · rw [find_of_not_nameable hpath, find_of_not_nameable hpath]
  have hwithin (loc : Loc) (entry : Entry)
      (hfind : disk.find .itself (path.child name) = .ok (.present loc entry)) :
      Inside locs loc := by
    obtain ⟨q, hq, -, ⟨h, -⟩ | ⟨_, h, -⟩⟩ := reached_of_find_child hname hfind <;> cases h
    exact hinside q hq
  refine ⟨hitself, find_followed_of_ne_link rfl fun loc target hlink => ?_,
    find_followed_of_ne_link rfl fun loc target hlink => ?_, hwithin⟩
  · exact htwins.left.plain loc target (htwins.part loc (hwithin loc _ hlink)) (find_fits hlink)
  · have hback := hitself.trans hlink
    exact htwins.left.plain loc target (htwins.part loc (hwithin loc _ hback)) (find_fits hback)

theorem sameAt_next (hname : Path.Ordinary name) (hloc : Inside locs (dir ++ [name])) :
    SameAt locs disk disk' (file.parent.child name) := by
  refine htwins.sameAt_child hname ?_ fun q hq => ?_
  · rw [htwins.left.reached_whole, htwins.right.reached_whole]
  · rw [htwins.left.reached_whole] at hq
    cases hq
    exact hloc

theorem sameAt_file (hname : Path.Ordinary file.name) (hloc : Inside locs (dir ++ [file.name])) :
    SameAt locs disk disk' file := by
  have hsame := htwins.sameAt_next hname hloc
  rwa [Path.child_parent (Path.ordinary_ne_empty hname)] at hsame

theorem sameAt_below {path : Path} (hname : Path.Ordinary name)
    (hpath : SameAt locs disk disk' path) : SameAt locs disk disk' (path.child name) := by
  refine htwins.sameAt_child hname hpath.find_followed fun q hq => ?_
  exact (hpath.inside q .directory (hpath.followed ▸ hq)).trans (List.prefix_append q [name])

end Disk.Twins

/-- Two disks that are alike at a file and at its artifacts. -/
abbrev Disk.FullTwins (file : Path) (outputName : String) (dir : Loc) (base base' : Disk) :
    Disk → Disk → Prop :=
  Twins file outputName dir (fileLocs file outputName dir) base base'

namespace Disk.FullTwins

variable (htwins : FullTwins file outputName dir base base' disk disk')
  (hout : Path.Component outputName)

include htwins

include hout

theorem sameAt_artifact (hname : name ∈ artifactNames file outputName) :
    SameAt (fileLocs file outputName dir) disk disk' (file.parent.child name) :=
  htwins.sameAt_next (ordinary_of_mem_artifactNames hout hname)
    (inside_fileLocs (inside_artifact hname []))

theorem sameAt_place {artifact : Path} (hartifact : artifact ∈ outputPlaces file outputName) :
    SameAt (fileLocs file outputName dir) disk disk' artifact := by
  have hchild {name : String} (hname : name ∈ artifactNames file outputName) :=
    htwins.sameAt_artifact hout hname
  simp only [outputPlaces, List.mem_cons, List.not_mem_nil, or_false] at hartifact
  rcases hartifact with rfl | rfl | rfl | rfl
  · exact htwins.sameAt_below (by decide) (hchild (by simp [artifactNames]))
  · exact htwins.sameAt_below (by decide) (hchild (by simp [artifactNames]))
  · exact hchild (by simp [artifactNames])
  · exact hchild (by simp [artifactNames])

end Disk.FullTwins

/-! ## What is changed -/

/-- Two changes are refused alike, or lead to disks that are related. -/
def Disk.Matches (S : Disk → Disk → Prop) : Except Refusal Disk → Except Refusal Disk → Prop
  | .ok disk, .ok disk' => S disk disk'
  | .error why, .error why' => why = why'
  | _, _ => False

namespace Disk.Twins

variable (htwins : Twins file outputName dir locs base base' disk disk')

include htwins

theorem unlink {path : Path} (hpath : SameAt locs disk disk' path) :
    Matches (Twins file outputName dir locs base base') (disk.unlink path)
      (disk'.unlink path) := by
  simp only [Disk.unlink, ← hpath.itself, bind, Except.bind]
  rcases hfind : disk.find .itself path with why | ⟨loc, entry⟩ | loc | _
  · rfl
  · have hloc := htwins.part loc (hpath.inside loc entry hfind)
    cases entry with
    | directory => rfl
    | file bytes access =>
      exact htwins.eraseWithin hloc (Tree.ne_nil_of_get? (find_fits hfind) (by simp))
    | link target => exact absurd (find_fits hfind) (htwins.left.plain loc target hloc)
  · rfl
  · rfl

variable (hname : Path.Ordinary file.name) (hfile : Inside locs (dir ++ [file.name]))

include hname hfile

/-- An entry is moved over the file. -/
theorem move {a : Loc} {entry : Entry} (ha : disk.tree.get? a = some entry)
    (hinside : Inside locs a) (hentry : entry ≠ .directory)
    (hb : disk.tree.get? (dir ++ [file.name]) ≠ some .directory) :
    Twins file outputName dir locs base base' (disk.move a (dir ++ [file.name]) entry)
      (disk'.move a (dir ++ [file.name]) entry) := by
  have ha' := htwins.same a hinside ▸ ha
  have hb' := htwins.same _ hfile ▸ hb
  have hzone := htwins.part a hinside
  refine ⟨htwins.left.move ha hentry hb ?_ hzone inside_file,
    htwins.right.move ha' hentry hb' ?_ hzone inside_file, htwins.part, fun q hq => ?_⟩
  · exact htwins.left.sound.move ha hentry (find_fits htwins.left.reached_whole) hname hb
  · exact htwins.right.sound.move ha' hentry (find_fits htwins.right.reached_whole) hname hb'
  · rw [htwins.left.sound.get?_move ha hentry hb, htwins.right.sound.get?_move ha' hentry hb',
      htwins.same q hq]

theorem rename {artifact : Path} (hartifact : SameAt locs disk disk' artifact)
    (hsource : ∀ loc, disk.find .itself artifact ≠ .ok (.present loc .directory)) :
    Matches (Twins file outputName dir locs base base') (disk.rename artifact file)
      (disk'.rename artifact file) := by
  have htarget := htwins.sameAt_file hname hfile
  have hplace {found : Found} (hfind : disk.find .itself file = .ok found) :
      found = .vacant (dir ++ [file.name]) ∨ ∃ entry, found = .present (dir ++ [file.name]) entry :=
    htwins.left.loc_of_child hname
      (by rwa [Path.child_parent (Path.ordinary_ne_empty hname)])
  simp only [Disk.rename, ← hartifact.itself, ← htarget.itself, bind, Except.bind]
  rcases hfound : disk.find .itself artifact with why | found
  · rfl
  rcases hgoal : disk.find .itself file with why | goal
  · rfl
  dsimp only
  split
  · rfl
  rcases found with ⟨a, entry⟩ | a | _
  · have hentry : entry ≠ .directory := by
      rintro rfl
      exact hsource a hfound
    have hmoved (hb : disk.tree.get? (dir ++ [file.name]) ≠ some .directory) :
        Matches (Twins file outputName dir locs base base')
          (if a = dir ++ [file.name] then .ok disk
            else .ok (disk.move a (dir ++ [file.name]) entry))
          (if a = dir ++ [file.name] then .ok disk'
            else .ok (disk'.move a (dir ++ [file.name]) entry)) := by
      split
      · exact htwins
      · exact htwins.move hname hfile (find_fits hfound) (hartifact.inside a entry hfound) hentry hb
    have hheld := find_fits hgoal
    rcases hplace hgoal with rfl | ⟨held, rfl⟩
    · have hfree := hmoved (by simp [hheld.1])
      cases entry <;> first | exact absurd rfl hentry | exact hfree
    · rcases eq_or_ne held .directory with rfl | hother
      · cases entry <;> first | exact absurd rfl hentry | rfl
      · have hfree := hmoved (by simp [show disk.tree.get? _ = _ from hheld, hother])
        cases entry <;> cases held <;>
          first | exact absurd rfl hentry | exact absurd rfl hother | exact hfree
  · cases goal <;> rfl
  · cases goal <;> rfl

end Disk.Twins

end Unscramble
