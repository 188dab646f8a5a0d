import Mathlib
import Unscramble.Disk.Basic

/-!
# Names and lengths of paths

Which names an entry can have, and which paths the system takes at all.  A path
that can be named can be named up to each of its names, so the limits of the
system only have to be asked about for the longest path in use.
-/

namespace Unscramble

namespace Path

/-- A name that an entry can have. -/
def Ordinary (name : String) : Prop := Significant name ∧ name ≠ ".."

instance (name : String) : Decidable (Ordinary name) :=
  inferInstanceAs (Decidable (_ ∧ _))

/-- A text that is read as a path of this one name. -/
def Component (name : String) : Prop :=
  Ordinary name ∧ '/' ∉ name.toList ∧ '\x00' ∉ name.toList

instance (name : String) : Decidable (Component name) :=
  inferInstanceAs (Decidable (_ ∧ _))

/-- The system takes the path, wherever it may lead. -/
def Nameable (path : Path) : Prop :=
  path.hasNul = false ∧ path.byteLength < Disk.pathMax

instance (path : Path) : Decidable path.Nameable :=
  inferInstanceAs (Decidable (_ ∧ _))

theorem ordinary_ne_empty {name : String} (hname : Ordinary name) : name ≠ "" := hname.1.1

/-- A component is read as a single name. -/
theorem ofString_component {name : String} (hname : Component name) :
    ofString name = ⟨.here, [name]⟩ := by
  obtain ⟨hordinary, hslash, -⟩ := hname
  have hsplit : name.toList.splitOn '/' = [name.toList] := by
    refine List.splitOnP_eq_singleton fun c hc => ?_
    simpa using fun heq : c = '/' => hslash (heq ▸ hc)
  have hparts : components name = [name] := by
    simp [components, hsplit]
  have hanchor : anchorOf name.toList = .here := by
    cases hlist : name.toList with
    | nil => rfl
    | cons c rest =>
        have hc : c ≠ '/' := by
          rintro rfl
          exact hslash (by simp [hlist])
        unfold anchorOf
        split <;> simp_all
  simp [ofString, hparts, hanchor, hordinary.1]

theorem name_eq_of_parts_concat {path : Path} {parts : List String} {last : String}
    (hparts : path.parts = parts ++ [last]) : path.name = last := by
  simp [Path.name, hparts]

/-- A path that has a name is the path of that name in its parent. -/
theorem child_parent {path : Path} (hname : path.name ≠ "") :
    path.parent.child path.name = path := by
  obtain ⟨anchor, parts⟩ := path
  rcases List.eq_nil_or_concat parts with rfl | ⟨init, last, rfl⟩
  · exact absurd rfl hname
  · simp [parent, child, Path.name]

theorem withName?_eq {path : Path} (hname : path.name ≠ "") (newName : String) :
    path.withName? newName = some (path.parent.child newName) := by
  rw [withName?, if_neg hname]

theorem toString_of_parts_ne_nil {path : Path} (hparts : path.parts ≠ []) :
    path.toString = Anchor.text path.anchor ++ "/".intercalate path.parts := by
  obtain ⟨anchor, parts⟩ := path
  cases parts with
  | nil => exact absurd rfl hparts
  | cons first rest => cases anchor <;> rfl

theorem toString_child_of_parts_eq_nil {path : Path} (hparts : path.parts = []) (name : String) :
    (path.child name).toString = Anchor.text path.anchor ++ name := by
  rw [toString_of_parts_ne_nil (by simp [child])]
  simp [child, hparts]

theorem toString_child_of_parts_ne_nil {path : Path} (hparts : path.parts ≠ [])
    (name : String) : (path.child name).toString = path.toString ++ "/" ++ name := by
  rw [toString_of_parts_ne_nil (by simp [child]), toString_of_parts_ne_nil hparts, child,
    String.intercalate_append_of_ne_nil hparts (by simp), String.intercalate_singleton]
  simp only [String.append_assoc]

theorem byteLength_le_child (path : Path) {name : String} (hname : name ≠ "") :
    path.byteLength ≤ (path.child name).byteLength := by
  have hsize : 1 ≤ name.utf8ByteSize := by
    rw [Nat.one_le_iff_ne_zero, ne_eq, String.utf8ByteSize_eq_zero_iff]
    exact hname
  change path.toString.utf8ByteSize ≤ (path.child name).toString.utf8ByteSize
  by_cases hparts : path.parts = []
  · rw [toString_child_of_parts_eq_nil hparts, String.utf8ByteSize_append]
    obtain ⟨anchor, parts⟩ := path
    subst hparts
    cases anchor with
    | here => exact le_trans hsize (Nat.le_add_left _ _)
    | root => exact Nat.le_add_right _ _
    | doubleRoot => exact Nat.le_add_right _ _
  · rw [toString_child_of_parts_ne_nil hparts, String.utf8ByteSize_append,
      String.utf8ByteSize_append, Nat.add_assoc]
    exact Nat.le_add_right _ _

theorem hasNul_child (path : Path) (name : String) :
    (path.child name).hasNul = (path.hasNul || name.toList.contains '\x00') := by
  simp [hasNul, child]

/-- What can be named can be named up to its last name. -/
theorem Nameable.parent {path : Path} {name : String} (hpath : (path.child name).Nameable)
    (hname : name ≠ "") : path.Nameable := by
  obtain ⟨hnul, hshort⟩ := hpath
  rw [hasNul_child, Bool.or_eq_false_iff] at hnul
  exact ⟨hnul.1, lt_of_le_of_lt (byteLength_le_child path hname) hshort⟩

end Path

end Unscramble
