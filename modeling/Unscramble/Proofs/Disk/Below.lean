import Unscramble.Proofs.Disk.Alongside
import Unscramble.Proofs.Disk.Descent
import Unscramble.Proofs.Disk.Surrounds

/-!
# Further down an open way

Where a path leads to a directory without following links, names of real directories lead further
down from there, and a regular file at their end has the path of its location as canonical form.
The way stays open when something is taken away that it does not pass.
-/

namespace Unscramble

/-- The system takes the path with these names added to it. -/
def Path.Admits (path : Path) (names : List String) : Prop :=
  (path.below names).Nameable ∧ ∀ name ∈ names, name.utf8ByteSize ≤ Disk.nameMax

/-- Going down from `base` by these names one comes to no link. -/
def Tree.Unlinked (tree : Tree) (base : Loc) (names : List String) : Prop :=
  ∀ front, front <+: names → ∀ target, tree.get? (base ++ front) ≠ some (.link target)

theorem Tree.Passes.concat {tree : Tree} {P : Loc → Prop} {here goal : Loc} {names : List String}
    {name : String} (hpasses : tree.Passes P here names goal) (hname : Path.Ordinary name)
    (hshort : name.utf8ByteSize ≤ Disk.nameMax) (hheld : tree.get? (goal ++ [name]) = some .directory)
    (hholds : P (goal ++ [name])) : tree.Passes P here (names ++ [name]) (goal ++ [name]) := by
  induction hpasses with
  | arrive hhere hstart => exact .down hhere hstart hname hshort (.arrive hheld hholds)
  | up hhere hstart _ ih => exact .up hhere hstart (ih hheld hholds)
  | down hhere hstart hnext hfits _ ih => exact .down hhere hstart hnext hfits (ih hheld hholds)

theorem Tree.Passes.goal_holds {tree : Tree} {P : Loc → Prop} {here goal : Loc}
    {names : List String} (hpasses : tree.Passes P here names goal) : P goal := by
  induction hpasses with
  | arrive _ hholds => exact hholds
  | up _ _ _ ih => exact ih
  | down _ _ _ _ _ ih => exact ih

namespace Disk

variable {disk disk' : Disk} {P : Loc → Prop} {path root : Path} {loc base start : Loc}
  {name : String} {names way : List String} {zone : List Loc} {entry : Entry} {bytes : Bytes}
  {access : Access}

/-! ## Down to a directory -/

theorem Through.child (hway : disk.Through P path loc) (hpath : (path.child name).Nameable)
    (hname : Path.Ordinary name) (hshort : name.utf8ByteSize ≤ nameMax)
    (hheld : disk.tree.get? (loc ++ [name]) = some .directory) (hholds : P (loc ++ [name])) :
    disk.Through P (path.child name) (loc ++ [name]) := by
  obtain ⟨start, hstart, hpasses⟩ := hway.passes
  exact ⟨hpath, start, hstart, hpasses.concat hname hshort hheld hholds⟩

theorem Through.below (hway : disk.Through P root base) (hsound : disk.Sound)
    (hheld : disk.tree.get? (base ++ way) = some .directory) (hadmits : root.Admits way)
    (hholds : ∀ front, front <+: way → P (base ++ front)) :
    disk.Through P (root.below way) (base ++ way) := by
  induction way using List.reverseRecOn with
  | nil => simpa using hway
  | append_singleton init last ih =>
    obtain ⟨hpath, hshort⟩ := hadmits
    have hname : Path.Ordinary last := hsound.ordinary_of_mem hheld last (by simp)
    have hlast : P (base ++ (init ++ [last])) := hholds _ List.prefix_rfl
    rw [← List.append_assoc] at hheld hlast ⊢
    rw [← Path.child_below] at hpath ⊢
    have hinit : root.Admits init := ⟨hpath.parent (Path.ordinary_ne_empty hname),
      fun next hnext => hshort next (List.mem_append_left _ hnext)⟩
    have hbefore := ih (hsound.closed hheld) hinit fun front hfront =>
      hholds front (hfront.trans (List.prefix_append _ _))
    exact hbefore.child hpath hname (hshort last (by simp)) hheld hlast

/-- Where no link is on the way, a path leads to the location that it spells. -/
theorem spells_of_unlinked (hroot : disk.find .followed root = .ok (.present base .directory))
    (hnames : ∀ name ∈ names, Path.Ordinary name) (hunlinked : disk.tree.Unlinked base names)
    (hfind : disk.find .followed (root.below names) = .ok (.present loc entry)) :
    loc = base ++ names ∧ root.Admits names := by
  induction names using List.reverseRecOn generalizing loc entry with
  | nil =>
    rw [Path.below_nil, hroot] at hfind
    cases hfind
    exact ⟨(List.append_nil _).symm, by rw [Path.below_nil]; exact nameable_of_find hroot, by simp⟩
  | append_singleton init last ih =>
    have hnameable := nameable_of_find hfind
    rw [← Path.child_below] at hfind
    have hbefore {p : Loc} (hp : disk.find .followed (root.below init) = .ok (.present p .directory)) :
        p = base ++ init ∧ root.Admits init :=
      ih (fun name hname => hnames name (List.mem_append_left _ hname))
        (fun front hfront => hunlinked front (hfront.trans (List.prefix_append _ _))) hp
    have hlast : Path.Ordinary last := hnames last (by simp)
    rcases disk.find_followed ((root.below init).child last) with ⟨q, text, hlink⟩ | hsame
    · obtain ⟨p, hp, -, ⟨h, -⟩ | ⟨held, h, hheld⟩⟩ := reached_of_find_child hlast hlink <;> cases h
      rw [(hbefore hp).1, List.append_assoc] at hheld
      exact absurd hheld (hunlinked _ List.prefix_rfl text)
    · rw [hsame] at hfind
      obtain ⟨p, hp, hshort, ⟨h, -⟩ | ⟨held, h, -⟩⟩ := reached_of_find_child hlast hfind <;> cases h
      obtain ⟨rfl, hadmits⟩ := hbefore hp
      refine ⟨List.append_assoc _ _ _, hnameable, fun name hname => ?_⟩
      rcases List.mem_append.mp hname with hname | hname
      · exact hadmits.2 name hname
      · rwa [List.mem_singleton.mp hname]

/-! ## Down to a file -/

theorem Sound.unlinked_of_held (hsound : disk.Sound) (hheld : disk.tree.get? (base ++ names) = some entry)
    (hlink : ∀ target, entry ≠ .link target) : disk.tree.Unlinked base names := by
  rintro front ⟨rest, rfl⟩ target hfront
  by_cases hrest : rest = []
  · subst hrest
    rw [List.append_nil, hfront] at hheld
    exact hlink target (Option.some.inj hheld).symm
  · have hdirectory := hsound.directory_of_prefix (p := base ++ front)
      (by simp) (by simpa using hrest) hheld
    rw [hfront] at hdirectory
    cases hdirectory

section File

variable (hway : disk.Through P root base) (hsound : disk.Sound)
  (hheld : disk.tree.get? (base ++ names) = some (.file bytes access))

include hway hsound hheld

theorem Through.above_file : ∃ init last, names = init ++ [last] ∧
    disk.tree.get? (base ++ init) = some .directory := by
  rcases List.eq_nil_or_concat' names with rfl | ⟨init, last, rfl⟩
  · rw [List.append_nil, find_fits hway.found] at hheld
    cases hheld
  · rw [← List.append_assoc] at hheld
    exact ⟨init, last, rfl, hsound.closed hheld⟩

/-- A path to a file is taken by the system if the file is found by it. -/
theorem Through.admits_of_isFile (hfile : disk.isFile (root.below names) = .ok true) :
    root.Admits names := by
  obtain ⟨place, bytes', access', hfind⟩ := isFile_eq_true_iff.mp hfile
  exact (spells_of_unlinked hway.found
    (fun name hname => hsound.ordinary_of_mem hheld name (List.mem_append_right _ hname))
    (hsound.unlinked_of_held hheld (by simp)) hfind).2

variable (hadmits : root.Admits names)

include hadmits

theorem Through.find_file :
    disk.find .followed (root.below names) = .ok (.present (base ++ names) (.file bytes access)) := by
  obtain ⟨init, last, rfl, hdirectory⟩ := hway.above_file hsound hheld
  obtain ⟨hpath, hshort⟩ := hadmits
  have hlast : Path.Ordinary last := hsound.ordinary_of_mem hheld last (by simp)
  rw [← List.append_assoc] at hheld ⊢
  rw [← Path.child_below] at hpath ⊢
  have hfind := hsound.find_below hway.found hdirectory (hpath.parent (Path.ordinary_ne_empty hlast))
  rw [if_pos fun name hname => hshort name (List.mem_append_left _ hname)] at hfind
  refine find_followed_of_ne_link ?_ (by simp)
  rw [find_child_of_reached hlast (hshort last (by simp)) hpath hfind, hheld]

theorem Through.canonicalPath_file
    (hread : ∀ part ∈ (root.below names).parts, part ≠ "" ∧ '/' ∉ part.toList) :
    disk.canonicalPath (root.below names) = .ok (locPath (base ++ names)) := by
  have hfind := hway.find_file hsound hheld hadmits
  obtain ⟨init, last, rfl, hdirectory⟩ := hway.above_file hsound hheld
  have hadmits' : root.Admits init :=
    ⟨hadmits.1.of_below fun name hname => Path.ordinary_ne_empty
        (hsound.ordinary_of_mem hheld name (by simp [List.mem_singleton.mp hname])),
      fun name hname => hadmits.2 name (List.mem_append_left _ hname)⟩
  have habove : disk.Through (fun _ => True) (root.below init) (base ++ init) :=
    (hway.mono (fun _ hloc _ => ⟨hloc, trivial⟩) fun _ hstart _ => hstart).below hsound hdirectory
      hadmits' fun _ _ => trivial
  obtain ⟨start, hstart, hpasses⟩ := habove.passes
  -- nothing that the path comes to is a link
  have hdirectories : Keeps disk.tree (fun loc => ∀ target, disk.tree.get? loc ≠ some (.link target))
      (.origin (root.below init) start) (root.below init).parts :=
    .of_passes (hpasses.mono fun _ hloc _ => ⟨hloc, by simp [hloc]⟩)
  rw [← List.append_assoc] at hheld
  rw [← Path.child_below] at hfind hread ⊢
  have hother (target : String) : disk.tree.get? (base ++ init ++ [last]) ≠ some (.link target) := by
    rw [hheld]
    simp
  have hkeeps := hdirectories.child habove.found hstart (hsound.named hheld) (fun _ _ => hother)
    fun target _ hlink => absurd hlink (hother target)
  rw [← List.append_assoc] at hfind ⊢
  refine hsound.canonicalPath_of_found hstart (fun _ part hpart => (hread part hpart).1)
    (fun part hpart => (hread part hpart).2) (fun start' hstart' => ?_) hfind (by simp)
  cases hstart.symm.trans hstart'
  intro there next rest target hfollows hlink
  exact absurd hlink (hkeeps.entry hfollows (hsound.named hlink) hlink target)

end File

/-! ## What is taken away beside the way -/

theorem Through.without (hway : disk.Through P path loc) (hzone : ∀ z ∈ zone, z ≠ [])
    (houtside : ∀ loc, P loc → ¬Inside zone loc) : (disk.without zone).Through P path loc :=
  hway.mono
    (fun loc hloc hholds => ⟨by rwa [get?_without_zone hzone, if_neg (houtside loc hholds)], hholds⟩)
    fun _ hstart hholds => workingLoc?_without hstart (houtside _ hholds)

end Disk

end Unscramble
