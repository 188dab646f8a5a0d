import Unscramble.Proofs.Disk.Canonical
import Unscramble.Proofs.Disk.Check

/-!
# The directories on the way

A path that follows no link passes from directory to directory.  The way stays open as
long as the directories on it stay, so it is enough to know of all of them that nothing
takes them away.
-/

namespace Unscramble

/-- Names lead from one directory to another, and every directory on the way, the first and
the last included, satisfies `P`. -/
inductive Tree.Passes (tree : Tree) (P : Loc → Prop) : Loc → List String → Loc → Prop
  | arrive {here : Loc} (hhere : tree.get? here = some .directory) (hholds : P here) :
      Passes tree P here [] here
  | up {here goal : Loc} {names : List String} (hhere : tree.get? here = some .directory)
      (hholds : P here) (hrest : Passes tree P here.dropLast names goal) :
      Passes tree P here (".." :: names) goal
  | down {here goal : Loc} {name : String} {names : List String}
      (hhere : tree.get? here = some .directory) (hholds : P here) (hname : Path.Ordinary name)
      (hshort : name.utf8ByteSize ≤ Disk.nameMax)
      (hrest : Passes tree P (here ++ [name]) names goal) :
      Passes tree P here (name :: names) goal

/-- No entry has a slash in its name. -/
def Tree.Slashless (tree : Tree) : Prop :=
  ∀ dir name entry, tree.get? (dir ++ [name]) = some entry → '/' ∉ name.toList

instance (tree : Tree) : Decidable tree.Slashless := decidable_of_iff _ Tree.named_iff.symm

namespace Tree.Passes

variable {tree tree' : Tree} {P Q : Loc → Prop} {here goal : Loc} {names : List String}
  {name : String}

theorem start_directory (hpasses : tree.Passes P here names goal) :
    tree.get? here = some .directory ∧ P here := by
  cases hpasses with
  | arrive hhere hholds => exact ⟨hhere, hholds⟩
  | up hhere hholds _ => exact ⟨hhere, hholds⟩
  | down hhere hholds _ _ _ => exact ⟨hhere, hholds⟩

/-- The way is open where its directories have stayed. -/
theorem mono (hstays : ∀ loc, tree.get? loc = some .directory → P loc →
      tree'.get? loc = some .directory ∧ Q loc)
    (hpasses : tree.Passes P here names goal) : tree'.Passes Q here names goal := by
  induction hpasses with
  | arrive hhere hholds => exact .arrive (hstays _ hhere hholds).1 (hstays _ hhere hholds).2
  | up hhere hholds _ ih => exact .up (hstays _ hhere hholds).1 (hstays _ hhere hholds).2 ih
  | down hhere hholds hname hshort _ ih =>
    exact .down (hstays _ hhere hholds).1 (hstays _ hhere hholds).2 hname hshort ih

/-- The names can be read back from a text. -/
theorem readable (hslash : tree.Slashless) (hpasses : tree.Passes P here names goal) :
    ∀ part ∈ names, part ≠ "" ∧ '/' ∉ part.toList := by
  induction hpasses with
  | arrive _ _ => simp
  | up _ _ _ ih => exact List.forall_mem_cons.mpr ⟨by decide, ih⟩
  | down _ _ hname _ hrest ih =>
    exact List.forall_mem_cons.mpr
      ⟨⟨hname.1.1, hslash _ _ _ hrest.start_directory.1⟩, ih⟩

theorem walk_eq {jump : Loc → String → List String → Except Refusal Found}
    (hpasses : tree.Passes P here names goal) :
    Disk.walk jump tree .followed here names = .ok (.present goal .directory) := by
  induction hpasses with
  | arrive hhere _ => rw [Disk.walk, hhere]
  | up hhere _ _ ih => simpa [Disk.walk, hhere] using ih
  | @down here goal name names hhere _ hname hshort hrest ih =>
    have hkept : ¬(name = "" ∨ name = ".") := not_or.mpr hname.1
    simpa [Disk.walk, hhere, hkept, hname.2, Nat.not_lt.mpr hshort, hrest.start_directory.1]
      using ih

end Tree.Passes

namespace Disk

variable {disk disk' : Disk} {P Q : Loc → Prop} {path : Path} {loc : Loc} {name : String}

/-- Where a path starts, if that is in the tree. -/
def start? (disk : Disk) : Anchor → Option Loc
  | .here => disk.workingLoc?
  | _ => some []

theorem turn_of_start? {anchor : Anchor} {start : Loc} (hstart : disk.start? anchor = some start) :
    start = disk.turn 0 anchor ∧ (anchor = .here → disk.cwd.lost = 0) := by
  cases anchor with
  | here =>
    have hcwd := workingLoc?_eq_some_iff.mp hstart
    exact ⟨by simp [turn, hcwd], fun _ => by rw [hcwd]⟩
  | root =>
    cases hstart
    exact ⟨rfl, by simp⟩
  | doubleRoot =>
    cases hstart
    exact ⟨rfl, by simp⟩

/-- A path whose start is in the tree is followed from there. -/
theorem find_of_start {start : Loc} (hpath : path.Nameable)
    (hstart : disk.start? path.anchor = some start) (manner : Manner) :
    disk.find manner path = route disk.tree manner linkMax start path.parts := by
  rw [find_of_nameable hpath]
  cases hanchor : path.anchor with
  | here =>
    rw [hanchor, start?, workingLoc?_eq_some_iff] at hstart
    simp only [reach, hstart, climb]
  | root =>
    rw [hanchor] at hstart
    cases hstart
    rfl
  | doubleRoot =>
    rw [hanchor] at hstart
    cases hstart
    rfl

/-- The path leads to the directory at `loc` without following a link, and all directories on
the way satisfy `P`. -/
structure Through (disk : Disk) (P : Loc → Prop) (path : Path) (loc : Loc) : Prop where
  nameable : path.Nameable
  passes : ∃ start, disk.start? path.anchor = some start ∧
    disk.tree.Passes P start path.parts loc

namespace Through

theorem found (hway : disk.Through P path loc) :
    disk.find .followed path = .ok (.present loc .directory) := by
  obtain ⟨start, hstart, hpasses⟩ := hway.passes
  obtain ⟨jump, hroute⟩ := route_eq_walk disk.tree .followed linkMax
  rw [find_of_start hway.nameable hstart, hroute, hpasses.walk_eq]

/-- The way is open on a disk on which its directories have stayed. -/
theorem mono (hway : disk.Through P path loc)
    (hstays : ∀ loc, disk.tree.get? loc = some .directory → P loc →
      disk'.tree.get? loc = some .directory ∧ Q loc)
    (hcwd : ∀ start, disk.workingLoc? = some start → P start →
      disk'.workingLoc? = some start) : disk'.Through Q path loc := by
  obtain ⟨start, hstart, hpasses⟩ := hway.passes
  refine ⟨hway.nameable, start, ?_, hpasses.mono hstays⟩
  cases hanchor : path.anchor with
  | here =>
    rw [hanchor] at hstart
    exact hcwd start hstart hpasses.start_directory.2
  | root => rwa [hanchor] at hstart
  | doubleRoot => rwa [hanchor] at hstart

end Through

end Disk

end Unscramble
