import Mathlib
import Unscramble.Proofs.Disk.Straight
import Unscramble.Proofs.Disk.Without

/-!
# Going down from a directory

Below a directory that is reached, every real directory is reached by adding its names
to the path, as long as the path stays within the limits of the system.
-/

namespace Unscramble

namespace Path

/-- The path of what is found by going down from a path. -/
def below (path : Path) (names : List String) : Path := ⟨path.anchor, path.parts ++ names⟩

@[simp]
theorem below_nil (path : Path) : path.below [] = path := by
  simp [below]

theorem child_below (path : Path) (names : List String) (name : String) :
    (path.below names).child name = path.below (names ++ [name]) := by
  simp [below, child]

theorem below_cons (path : Path) (name : String) (names : List String) :
    path.below (name :: names) = (path.child name).below names := by
  simp [below, child]

/-- Every name takes at least one byte. -/
theorem length_le_byteLength_below (path : Path) {names : List String}
    (hnames : ∀ name ∈ names, name ≠ "") : names.length ≤ (path.below names).byteLength := by
  induction names using List.reverseRecOn with
  | nil => exact Nat.zero_le _
  | append_singleton init last ih =>
      have hinit := ih fun name hname => hnames name (List.mem_append_left _ hname)
      have hsize : 1 ≤ last.utf8ByteSize := by
        rw [Nat.one_le_iff_ne_zero, ne_eq, String.utf8ByteSize_eq_zero_iff]
        exact hnames last (by simp)
      rw [← child_below, List.length_append, List.length_singleton, byteLength]
      by_cases hparts : (path.below init).parts = []
      · have hnil : init = [] := (List.append_eq_nil_iff.mp hparts).2
        subst hnil
        rw [toString_child_of_parts_eq_nil hparts, String.utf8ByteSize_append]
        simp only [List.length_nil]
        omega
      · rw [toString_child_of_parts_ne_nil hparts, String.utf8ByteSize_append,
          String.utf8ByteSize_append]
        have hslash : "/".utf8ByteSize = 1 := rfl
        rw [byteLength] at hinit
        omega

theorem Nameable.of_below {path : Path} {names more : List String}
    (hpath : (path.below (names ++ more)).Nameable) (hmore : ∀ name ∈ more, name ≠ "") :
    (path.below names).Nameable := by
  induction more using List.reverseRecOn with
  | nil => simpa using hpath
  | append_singleton init last ih =>
      rw [← List.append_assoc, ← child_below] at hpath
      exact ih (hpath.parent (hmore last (by simp))) fun name hname =>
        hmore name (List.mem_append_left _ hname)

end Path

namespace Disk

/-! ## In the tree -/

theorem resolvable_of_found {disk : Disk} {path : Path} {found : Found}
    (hfind : disk.find .followed path = .ok found) : disk.Resolvable path := by
  intro why hwhy
  rw [hfind] at hwhy
  cases hwhy

theorem walk_ne_removed {jump : Loc → String → List String → Except Refusal Found} {tree : Tree}
    {manner : Manner} {here : Loc} {names : List String}
    (hjump : ∀ dir target rest, jump dir target rest ≠ .ok .removed) :
    walk jump tree manner here names ≠ .ok .removed := by
  fun_induction walk jump tree manner here names with
  | case3 here name rest hhere hname ih => exact ih
  | case4 here rest hhere hname ih => exact ih
  | case10 here name rest hhere hkept hup hshort hmaking target hlink hlast => exact hjump _ _ _
  | case11 here name rest hhere hkept hup hshort hmaking entry hentry hother ih => exact ih
  | _ => simp

theorem route_ne_removed {tree : Tree} {manner : Manner} {links : Nat} {here : Loc}
    {names : List String} : route tree manner links here names ≠ .ok .removed := by
  induction links generalizing here names with
  | zero => exact walk_ne_removed fun _ _ _ => by simp
  | succ links ih => exact walk_ne_removed fun _ _ _ => ih

/-- The name of an entry does not lead to a directory that has been removed. -/
theorem find_child_ne_removed {disk : Disk} {manner : Manner} {path : Path} {name : String}
    (hname : Path.Ordinary name) : disk.find manner (path.child name) ≠ .ok .removed := by
  by_cases hpath : (path.child name).Nameable
  · rw [find_of_nameable hpath]
    simp only [Path.child]
    cases path.anchor with
    | here =>
        simp only [reach, climb_concat hname]
        rcases climb disk.cwd.lost path.parts with why | ⟨_ | lost, rest⟩
        · simp
        · exact route_ne_removed
        · simp
    | root => exact route_ne_removed
    | doubleRoot => exact route_ne_removed
  · rw [find_of_not_nameable hpath]
    simp

theorem isDirectory_child_iff {disk : Disk} {path : Path} {name : String}
    (hname : Path.Ordinary name) : disk.isDirectory (path.child name) = .ok true ↔
      ∃ loc, disk.find .followed (path.child name) = .ok (.present loc .directory) := by
  rw [isDirectory, ask_eq_true_iff]
  constructor
  · rintro (⟨loc, entry, hfind, hkind⟩ | ⟨hfind, -⟩)
    · cases entry with
      | directory => exact ⟨loc, hfind⟩
      | file bytes access => cases hkind
      | link target => cases hkind
    · exact absurd hfind (find_child_ne_removed hname)
  · rintro ⟨loc, hfind⟩
    exact .inl ⟨loc, _, hfind, rfl⟩

variable {disk : Disk} {root : Path} {base : Loc} {names : List String}

/-- Where the path of a real directory below a directory leads. -/
theorem Sound.find_below (hsound : disk.Sound)
    (hroot : disk.find .followed root = .ok (.present base .directory))
    (hdirectory : disk.tree.get? (base ++ names) = some .directory)
    (hpath : (root.below names).Nameable) :
    disk.find .followed (root.below names) =
      if ∀ name ∈ names, name.utf8ByteSize ≤ nameMax then .ok (.present (base ++ names) .directory)
      else .error .nameTooLong := by
  induction names using List.reverseRecOn with
  | nil => simpa using hroot
  | append_singleton init last ih =>
      have hname : Path.Ordinary last :=
        hsound.ordinary_of_mem hdirectory last (by simp)
      rw [← List.append_assoc] at hdirectory
      rw [← Path.child_below] at hpath ⊢
      have hinit := ih (hsound.closed hdirectory) (hpath.parent (Path.ordinary_ne_empty hname))
      refine find_followed_of_ne_link ?_ fun loc text => ?_
      · rw [find_child hname hpath, hinit]
        by_cases hshort : ∀ name ∈ init, name.utf8ByteSize ≤ nameMax
        · rw [if_pos hshort, lookUp, hdirectory]
          by_cases hlast : last.utf8ByteSize ≤ nameMax
          · rw [if_neg (Nat.not_lt.mpr hlast), if_pos, List.append_assoc]
            simpa [or_imp, forall_and] using ⟨hshort, hlast⟩
          · rw [if_pos (Nat.lt_of_not_le hlast), if_neg]
            exact fun h => hlast (h last (by simp))
        · rw [if_neg hshort, lookUp, if_neg]
          exact fun h => hshort fun name hname => h name (List.mem_append_left _ hname)
      · split <;> simp

/-- What is reached below a directory is the directory that is spelt. -/
theorem Sound.leads_below (hsound : disk.Sound)
    (hroot : disk.find .followed root = .ok (.present base .directory))
    (hdirectory : disk.tree.get? (base ++ names) = some .directory) {loc : Loc} {entry : Entry}
    (hfind : disk.find .followed (root.below names) = .ok (.present loc entry)) :
    loc = base ++ names ∧ ∀ name ∈ names, name.utf8ByteSize ≤ nameMax := by
  rw [hsound.find_below hroot hdirectory (nameable_of_find hfind)] at hfind
  split at hfind
  · next hshort =>
      cases hfind
      exact ⟨rfl, hshort⟩
  · cases hfind

/-! ## Lines in the log and removals -/

end Disk

end Unscramble
