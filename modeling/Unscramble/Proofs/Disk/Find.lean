import Mathlib
import Unscramble.Disk.Change
import Unscramble.Proofs.Path

/-!
# What finding a path says about the tree

The place a path is found to lead to is a place of the tree.  A path that ends in
a name of its own is found by finding the directory before that name and looking
the name up there; whether links are followed matters only if the name is that of
a link.
-/

namespace Unscramble

namespace Disk

/-- The tree has what was found where it was found. -/
def Fits (tree : Tree) : Found → Prop
  | .present loc entry => tree.get? loc = some entry
  | .vacant loc => tree.get? loc = none ∧
      ∃ dir name, loc = dir ++ [name] ∧ Path.Ordinary name ∧ tree.get? dir = some .directory
  | .removed => True

theorem ordinary_of {name : String} (hkept : ¬(name = "" ∨ name = ".")) (hup : name ≠ "..") :
    Path.Ordinary name :=
  ⟨not_or.mp hkept, hup⟩

theorem walk_fits {jump : Loc → String → List String → Except Refusal Found} {tree : Tree}
    {manner : Manner} {here : Loc} {names : List String} {found : Found}
    (hjump : ∀ dir target rest, jump dir target rest = .ok found → Fits tree found)
    (hwalk : walk jump tree manner here names = .ok found) : Fits tree found := by
  fun_induction walk jump tree manner here names with
  | case1 here entry hhere => cases hwalk; exact hhere
  | case3 here name rest hhere hname ih => exact ih hwalk
  | case4 here rest hhere hname ih => exact ih hwalk
  | case7 here name hhere hkept hup hshort hmissing =>
      cases hwalk
      exact ⟨hmissing, here, name, rfl, ordinary_of hkept hup, hhere⟩
  | case9 here name rest hhere hkept hup hshort hmaking target hlink hlast =>
      cases hwalk
      exact hlink
  | case10 here name rest hhere hkept hup hshort hmaking target hlink hlast =>
      exact hjump _ _ _ hwalk
  | case11 here name rest hhere hkept hup hshort hmaking entry hentry hother ih => exact ih hwalk
  | _ => cases hwalk

theorem route_fits {tree : Tree} {manner : Manner} {links : Nat} {here : Loc}
    {names : List String} {found : Found}
    (hroute : route tree manner links here names = .ok found) : Fits tree found := by
  induction links generalizing here names with
  | zero => exact walk_fits (fun _ _ _ h => by cases h) hroute
  | succ links ih => exact walk_fits (fun _ _ _ h => ih h) hroute

/-- Following the last name changes the answer only if it is the name of a link. -/
theorem walk_followed {jump jump' : Loc → String → List String → Except Refusal Found}
    {tree : Tree} {here : Loc} {names : List String}
    (hjump : ∀ dir target rest,
      (∃ loc text, jump dir target rest = .ok (.present loc (.link text))) ∨
        jump' dir target rest = jump dir target rest) :
    (∃ loc text, walk jump tree .itself here names = .ok (.present loc (.link text))) ∨
      walk jump' tree .followed here names = walk jump tree .itself here names := by
  fun_induction walk jump tree .itself here names with
  | case1 here entry hhere => exact .inr (by simp only [walk, hhere])
  | case2 here hhere => exact .inr (by simp only [walk, hhere])
  | case3 here name rest hhere hname ih => simpa only [walk, hhere, if_pos hname] using ih
  | case4 here rest hhere hname ih =>
      simpa only [walk, hhere, if_neg hname, if_true] using ih
  | case5 here name rest hhere hkept hup hlong =>
      exact .inr (by simp only [walk, hhere, if_neg hkept, if_neg hup, if_pos hlong])
  | case6 here name rest hhere hkept hup hshort hmaking => cases hmaking.1
  | case7 here name hhere hkept hup hshort hmissing =>
      exact .inr (by simp [walk, hhere, hkept, hup, hshort, hmissing])
  | case8 here name rest hhere hkept hup hshort hmaking hmissing hrest =>
      exact .inr (by simp [walk, hhere, hkept, hup, hshort, hmissing, hrest])
  | case9 here name rest hhere hkept hup hshort hmaking target hlink hlast =>
      exact .inl ⟨_, _, rfl⟩
  | case10 here name rest hhere hkept hup hshort hmaking target hlink hlast =>
      simpa [walk, hhere, hkept, hup, hshort, hlink] using hjump here target rest
  | case11 here name rest hhere hkept hup hshort hmaking entry hother hentry ih =>
      cases entry with
      | link target => exact absurd rfl (hother target)
      | directory => simpa [walk, hhere, hkept, hup, hshort, hentry] using ih
      | file bytes access => simpa [walk, hhere, hkept, hup, hshort, hentry] using ih
  | case12 here name rest entry hother hhere =>
      cases entry with
      | directory => exact absurd rfl hother
      | file bytes access => exact .inr (by simp only [walk, hhere])
      | link target => exact .inr (by simp only [walk, hhere])
  | case13 here name rest hhere => exact .inr (by simp only [walk, hhere])

theorem route_followed {tree : Tree} {links : Nat} {here : Loc} {names : List String} :
    (∃ loc text, route tree .itself links here names = .ok (.present loc (.link text))) ∨
      route tree .followed links here names = route tree .itself links here names := by
  induction links generalizing here names with
  | zero => exact walk_followed fun _ _ _ => .inr rfl
  | succ links ih => exact walk_followed fun _ _ _ => ih

/-- What a name leads to in the directory that was found. -/
def lookUp (tree : Tree) (name : String) : Except Refusal Found → Except Refusal Found
  | .ok (.present dir .directory) =>
    if nameMax < name.utf8ByteSize then .error .nameTooLong
    else match tree.get? (dir ++ [name]) with
      | none => .ok (.vacant (dir ++ [name]))
      | some entry => .ok (.present (dir ++ [name]) entry)
  | .ok (.present _ _) => .error .notDirectory
  | .ok (.vacant _) | .ok .removed => .error .notFound
  | .error why => .error why

theorem walk_concat {jump jump' : Loc → String → List String → Except Refusal Found}
    {tree : Tree} {here : Loc} {names : List String} {name : String}
    (hname : Path.Ordinary name)
    (hjump : ∀ dir target rest,
      jump dir target (rest ++ [name]) = lookUp tree name (jump' dir target rest)) :
    walk jump tree .itself here (names ++ [name]) =
      lookUp tree name (walk jump' tree .followed here names) := by
  have hkept : ¬(name = "" ∨ name = ".") := not_or.mpr hname.1
  fun_induction walk jump' tree .followed here names with
  | case1 here entry hhere =>
      cases entry with
      | directory =>
          simp only [List.nil_append, walk, hhere, lookUp, if_neg hkept, if_neg hname.2]
          cases hentry : tree.get? (here ++ [name]) with
          | none => simp
          | some entry => cases entry <;> simp
      | file bytes access => simp only [List.nil_append, walk, hhere, lookUp]
      | link target => simp only [List.nil_append, walk, hhere, lookUp]
  | case2 here hhere => simp only [List.nil_append, walk, hhere, lookUp]
  | case3 here other rest hhere hother ih =>
      simpa only [List.cons_append, walk, hhere, if_pos hother] using ih
  | case4 here rest hhere hother ih =>
      simpa only [List.cons_append, walk, hhere, if_neg hother, if_true] using ih
  | case5 here other rest hhere hother hup hlong =>
      simp only [List.cons_append, walk, hhere, if_neg hother, if_neg hup, if_pos hlong, lookUp]
  | case6 here other rest hhere hother hup hshort hmaking => cases hmaking.1
  | case7 here other hhere hother hup hshort hmissing =>
      simp [walk, hhere, hother, hup, hshort, hmissing, lookUp]
  | case8 here other rest hhere hother hup hshort hmaking hmissing hrest =>
      simp [walk, hhere, hother, hup, hshort, hmissing, lookUp]
  | case9 here other rest hhere hother hup hshort hmaking target hlink hlast => cases hlast.2
  | case10 here other rest hhere hother hup hshort hmaking target hlink hlast =>
      simpa [walk, hhere, hother, hup, hshort, hlink] using hjump here target rest
  | case11 here other rest hhere hother hup hshort hmaking entry hnolink hentry ih =>
      cases entry with
      | link target => exact absurd rfl (hnolink target)
      | directory => simpa [walk, hhere, hother, hup, hshort, hentry] using ih
      | file bytes access => simpa [walk, hhere, hother, hup, hshort, hentry] using ih
  | case12 here other rest entry hfile hhere =>
      cases entry with
      | directory => exact absurd rfl hfile
      | file bytes access => simp only [List.cons_append, walk, hhere, lookUp]
      | link target => simp only [List.cons_append, walk, hhere, lookUp]
  | case13 here other rest hhere => simp only [List.cons_append, walk, hhere, lookUp]

theorem route_concat {tree : Tree} {links : Nat} {here : Loc} {names : List String}
    {name : String} (hname : Path.Ordinary name) :
    route tree .itself links here (names ++ [name]) =
      lookUp tree name (route tree .followed links here names) := by
  induction links generalizing here names with
  | zero => exact walk_concat hname fun _ _ _ => rfl
  | succ links ih =>
      refine walk_concat hname fun dir target rest => ?_
      rw [← List.append_assoc]
      exact ih

theorem climb_concat {lost : Nat} {names : List String} {name : String}
    (hname : Path.Ordinary name) :
    climb lost (names ++ [name]) =
      match climb lost names with
      | .ok (0, rest) => .ok (0, rest ++ [name])
      | .ok (_ + 1, _) => .error .notFound
      | .error why => .error why := by
  have hkept : ¬(name = "" ∨ name = ".") := not_or.mpr hname.1
  fun_induction climb lost names with
  | case1 names => cases names <;> simp [climb]
  | case2 lost => simp [climb, hkept, hname.2]
  | case3 lost other rest hother ih => simpa [climb, hother] using ih
  | case4 lost rest hother ih => simpa [climb, hother] using ih
  | case5 lost other rest hother hup => simp [climb, hother, hup]

/-- What `names` lead to from an anchor. -/
def reach (disk : Disk) (manner : Manner) (names : List String) :
    Anchor → Except Refusal Found
  | .here =>
    match climb disk.cwd.lost names with
    | .ok (0, rest) => route disk.tree manner linkMax disk.cwd.above rest
    | .ok _ => .ok .removed
    | .error why => .error why
  | _ => route disk.tree manner linkMax [] names

theorem find_of_nameable {disk : Disk} {path : Path} (hpath : path.Nameable) (manner : Manner) :
    disk.find manner path = disk.reach manner path.parts path.anchor := by
  rw [find, if_neg (by simp [hpath.1]), if_neg (Nat.not_le.mpr hpath.2)]
  cases path.anchor <;> rfl

/-- A path that the system does not take is refused at once. -/
theorem find_of_not_nameable {disk : Disk} {path : Path} (hpath : ¬path.Nameable)
    (manner : Manner) :
    disk.find manner path = .error (if path.hasNul then .nul else .nameTooLong) := by
  by_cases hnul : path.hasNul = true
  · simp [find, hnul]
  · have hlong : pathMax ≤ path.byteLength := by
      by_contra hshort
      exact hpath ⟨by simpa using hnul, Nat.not_le.mp hshort⟩
    simp [find, hnul, hlong]

theorem nameable_of_find {disk : Disk} {path : Path} {manner : Manner} {found : Found}
    (hfind : disk.find manner path = .ok found) : path.Nameable := by
  by_contra hpath
  rw [find_of_not_nameable hpath] at hfind
  cases hfind

theorem find_fits {disk : Disk} {path : Path} {manner : Manner} {found : Found}
    (hfind : disk.find manner path = .ok found) : Fits disk.tree found := by
  rw [find_of_nameable (nameable_of_find hfind)] at hfind
  cases hanchor : path.anchor with
  | here =>
      rw [hanchor] at hfind
      simp only [reach] at hfind
      split at hfind
      · exact route_fits hfind
      · cases hfind
        trivial
      · cases hfind
  | root => rw [hanchor] at hfind; exact route_fits hfind
  | doubleRoot => rw [hanchor] at hfind; exact route_fits hfind

theorem find_followed (disk : Disk) (path : Path) :
    (∃ loc text, disk.find .itself path = .ok (.present loc (.link text))) ∨
      disk.find .followed path = disk.find .itself path := by
  by_cases hpath : path.Nameable
  · rw [find_of_nameable hpath, find_of_nameable hpath]
    cases path.anchor with
    | here =>
        simp only [reach]
        split
        · exact route_followed
        · exact .inr rfl
        · exact .inr rfl
    | root => exact route_followed
    | doubleRoot => exact route_followed
  · rw [find_of_not_nameable hpath, find_of_not_nameable hpath]
    exact .inr rfl

/-- The last name of a path is looked up in the directory before it. -/
theorem find_child {disk : Disk} {path : Path} {name : String} (hname : Path.Ordinary name)
    (hpath : (path.child name).Nameable) :
    disk.find .itself (path.child name) = lookUp disk.tree name (disk.find .followed path) := by
  rw [find_of_nameable hpath, find_of_nameable (hpath.parent (Path.ordinary_ne_empty hname))]
  simp only [Path.child]
  cases path.anchor with
  | here =>
      simp only [reach, climb_concat hname]
      rcases climb disk.cwd.lost path.parts with why | ⟨_ | lost, rest⟩
      · rfl
      · exact route_concat hname
      · rfl
  | root => exact route_concat hname
  | doubleRoot => exact route_concat hname

end Disk

end Unscramble
