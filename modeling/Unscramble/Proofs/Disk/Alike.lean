import Mathlib
import Unscramble.Proofs.Disk.Without

/-!
# Disks that differ in their files only

Files end the way of a path, so making, moving and altering them changes what is
found at the end of a path and nothing about the way there.
-/

namespace Unscramble

/-- No directory and no link: the way of a path ends here. -/
def Entry.Ends : Option Entry → Prop
  | none | some (.file ..) => True
  | some .directory | some (.link _) => False

/-- The trees differ at most where either has a file or nothing. -/
def Tree.Alike (tree tree' : Tree) : Prop :=
  ∀ loc, tree'.get? loc = tree.get? loc ∨
    Entry.Ends (tree.get? loc) ∧ Entry.Ends (tree'.get? loc)

/-- What is found at the same place of another tree. -/
def Found.on (tree : Tree) : Found → Found
  | .present loc _ | .vacant loc =>
    match tree.get? loc with
    | some entry => .present loc entry
    | none => .vacant loc
  | .removed => .removed

section

variable {tree tree' : Tree}

theorem Tree.Alike.directory (halike : tree.Alike tree') {loc : Loc}
    (hloc : tree.get? loc = some .directory) : tree'.get? loc = some .directory := by
  rcases halike loc with heq | ⟨hends, -⟩
  · rw [heq, hloc]
  · rw [hloc] at hends
    exact hends.elim

theorem Tree.Alike.symm (halike : tree.Alike tree') : tree'.Alike tree :=
  fun loc => (halike loc).imp Eq.symm And.symm

theorem Tree.Alike.trans {tree'' : Tree} (hfirst : tree.Alike tree')
    (hsecond : tree'.Alike tree'') : tree.Alike tree'' := by
  intro q
  rcases hfirst q with heq | ⟨hends, hends'⟩ <;> rcases hsecond q with heq' | ⟨hends₁, hends₁'⟩
  · exact .inl (heq'.trans heq)
  · exact .inr ⟨heq ▸ hends₁, hends₁'⟩
  · exact .inr ⟨hends, heq'.symm ▸ hends'⟩
  · exact .inr ⟨hends, hends₁'⟩

end

namespace Disk

section Walk

variable {tree tree' : Tree} {manner : Manner}

/-- What the last name of a path leads to, if the way ends there. -/
theorem walk_last {jump : Loc → String → List String → Except Refusal Found} {here : Loc}
    {name : String} (hhere : tree.get? here = some .directory)
    (hkept : ¬(name = "" ∨ name = ".")) (hup : ¬name = "..")
    (hshort : ¬nameMax < name.utf8ByteSize) (hends : Entry.Ends (tree.get? (here ++ [name]))) :
    walk jump tree manner here [name] = .ok (Found.on tree (.vacant (here ++ [name]))) := by
  simp only [walk, hhere, if_neg hkept, if_neg hup, if_neg hshort, Found.on]
  rw [if_neg fun h => h.2.1 rfl]
  cases hentry : tree.get? (here ++ [name]) with
  | none => simp
  | some entry =>
      rw [hentry] at hends
      cases entry with
      | directory => exact hends.elim
      | link target => exact hends.elim
      | file bytes access => rfl

theorem walk_alike {jump jump' : Loc → String → List String → Except Refusal Found}
    {here : Loc} {names : List String} {found : Found} (halike : tree.Alike tree')
    (hclosed : ∀ {loc}, tree.get? loc = some .directory →
      tree.get? loc.dropLast = some .directory)
    (hjump : ∀ dir target rest found, tree.get? dir = some .directory →
      jump dir target rest = .ok found → jump' dir target rest = .ok (found.on tree'))
    (hstart : tree'.get? here = tree.get? here)
    (hwalk : walk jump tree manner here names = .ok found) :
    walk jump' tree' manner here names = .ok (found.on tree') := by
  fun_induction walk jump tree manner here names with
  | case1 here entry hhere =>
      cases hwalk
      simp only [walk, Found.on, hstart, hhere]
  | case3 here name rest hhere hname ih =>
      simp only [walk, hstart.trans hhere, if_pos hname]
      exact ih hstart hwalk
  | case4 here rest hhere hname ih =>
      simp only [walk, hstart.trans hhere, if_neg hname, if_true]
      have hup := hclosed hhere
      exact ih ((halike.directory hup).trans hup.symm) hwalk
  | case7 here name hhere hkept hup hshort hmissing hmaking =>
      cases hwalk
      refine walk_last (hstart.trans hhere) hkept hup hshort ?_
      rcases halike (here ++ [name]) with heq | ⟨-, hends⟩
      · rw [heq, hmissing]
        trivial
      · exact hends
  | case9 here name rest hhere hkept hup hshort hmaking target hlink hlast =>
      cases hwalk
      have hsame := halike (here ++ [name])
      rw [hlink] at hsame
      have hlink' := hsame.resolve_right fun h => h.1
      simp only [walk, hstart.trans hhere, if_neg hkept, if_neg hup, if_neg hshort,
        if_neg hmaking, hlink', if_pos hlast, Found.on]
  | case10 here name rest hhere hkept hup hshort hmaking target hlink hlast =>
      have hsame := halike (here ++ [name])
      rw [hlink] at hsame
      have hlink' := hsame.resolve_right fun h => h.1
      simp only [walk, hstart.trans hhere, if_neg hkept, if_neg hup, if_neg hshort,
        if_neg hmaking, hlink', if_neg hlast]
      exact hjump _ _ _ _ hhere hwalk
  | case11 here name rest hhere hkept hup hshort hmaking entry hother hentry ih =>
      cases entry with
      | link target => exact absurd rfl (hother target)
      | directory =>
          have hsame := halike.directory hentry
          simp only [walk, hstart.trans hhere, if_neg hkept, if_neg hup, if_neg hshort,
            if_neg hmaking, hsame]
          exact ih (hsame.trans hentry.symm) hwalk
      | file bytes access =>
          cases rest with
          | cons next rest => simp [walk, hentry] at hwalk
          | nil =>
              simp only [walk, hentry] at hwalk
              cases hwalk
              refine walk_last (hstart.trans hhere) hkept hup hshort ?_
              rcases halike (here ++ [name]) with heq | ⟨-, hends⟩
              · rw [heq, hentry]
                trivial
              · exact hends
  | _ => cases hwalk

theorem route_alike {links : Nat} {here : Loc} {names : List String} {found : Found}
    (halike : tree.Alike tree')
    (hclosed : ∀ {loc}, tree.get? loc = some .directory →
      tree.get? loc.dropLast = some .directory)
    (hstart : tree'.get? here = tree.get? here)
    (hroute : route tree manner links here names = .ok found) :
    route tree' manner links here names = .ok (found.on tree') := by
  induction links generalizing here names found with
  | zero => exact walk_alike halike hclosed (fun _ _ _ _ _ h => by cases h) hstart hroute
  | succ links ih =>
      refine walk_alike halike hclosed (fun dir target rest found hdir h => ih ?_ h) hstart hroute
      unfold linkStart
      split
      · rw [Tree.get?_nil, Tree.get?_nil]
      · rw [hdir, halike.directory hdir]

end Walk

variable {disk disk' : Disk}

/-- What a path leads to on a disk that differs in its files only. -/
theorem Sound.find_alike (hsound : disk.Sound) (halike : disk.tree.Alike disk'.tree)
    (hcwd : disk'.cwd = disk.cwd) {manner : Manner} {path : Path} {found : Found}
    (hfind : disk.find manner path = .ok found) :
    disk'.find manner path = .ok (found.on disk'.tree) := by
  have hpath := nameable_of_find hfind
  rw [find_of_nameable hpath] at hfind ⊢
  have hroot : disk'.tree.get? [] = disk.tree.get? [] := by rw [Tree.get?_nil, Tree.get?_nil]
  cases hanchor : path.anchor with
  | here =>
      rw [hanchor] at hfind
      simp only [reach, hcwd] at hfind ⊢
      split at hfind
      · next rest hclimb =>
          refine route_alike halike hsound.up_closed ?_ hfind
          rw [hsound.working, halike.directory hsound.working]
      · cases hfind
        rfl
      · cases hfind
  | root =>
      rw [hanchor] at hfind
      exact route_alike halike hsound.up_closed hroot hfind
  | doubleRoot =>
      rw [hanchor] at hfind
      exact route_alike halike hsound.up_closed hroot hfind

theorem Sound.directory_alike (hsound : disk.Sound) (halike : disk.tree.Alike disk'.tree)
    (hcwd : disk'.cwd = disk.cwd) {manner : Manner} {path : Path} {loc : Loc}
    (hfind : disk.find manner path = .ok (.present loc .directory)) :
    disk'.find manner path = .ok (.present loc .directory) := by
  rw [hsound.find_alike halike hcwd hfind, Found.on,
    halike.directory (find_fits hfind)]

/-! ## Changes of files -/

theorem alike_alter (disk : Disk) (loc : Loc) (change : Bytes → Bytes) :
    disk.tree.Alike (disk.alter loc change).tree := by
  intro q
  rw [get?_alter]
  split
  · next heq =>
      subst heq
      rcases disk.tree.get? q with _ | _ | ⟨bytes, access⟩ | target
      · exact .inl rfl
      · exact .inl rfl
      · exact .inr ⟨trivial, trivial⟩
      · exact .inl rfl
  · exact .inl rfl

/-- A file that is opened for writing is there already, or takes a free name. -/
theorem create_cases {path : Path} {loc : Loc} (hcreate : disk.create path = .ok (loc, disk')) :
    (∃ bytes access, disk.find .making path = .ok (.present loc (.file bytes access)) ∧
      disk' = disk) ∨
    disk.find .making path = .ok (.vacant loc) ∧ disk' = disk.insert loc (.file [] {}) := by
  simp only [create, bind, Except.bind] at hcreate
  split at hcreate
  · cases hcreate
  · next found hfind =>
      split at hcreate
      · next place bytes access =>
          split at hcreate <;> cases hcreate
          exact .inl ⟨bytes, access, hfind, rfl⟩
      · cases hcreate
      · cases hcreate
      · cases hcreate
        exact .inr ⟨hfind, rfl⟩

theorem Sound.create (hsound : disk.Sound) {path : Path} {loc : Loc}
    (hcreate : disk.create path = .ok (loc, disk')) :
    disk'.Sound ∧ disk.tree.Alike disk'.tree ∧
      ∃ bytes access, disk'.tree.get? loc = some (.file bytes access) := by
  rcases create_cases hcreate with ⟨bytes, access, hfind, rfl⟩ | ⟨hfind, rfl⟩
  · exact ⟨hsound, fun _ => .inl rfl, bytes, access, find_fits hfind⟩
  · obtain ⟨hfree, dir, name, rfl, hname, hdir⟩ := find_fits hfind
    refine ⟨hsound.insert hdir hname (by simp [hfree]) fun _ => ⟨[], {}, rfl⟩, fun q => ?_,
      [], {}, by rw [get?_insert _ (by simp), if_pos rfl]⟩
    rw [get?_insert _ (by simp)]
    split
    · next heq =>
        rw [heq, hfree]
        exact .inr ⟨trivial, trivial⟩
    · exact .inl rfl

theorem create_places {path : Path} {loc : Loc} (hcreate : disk.create path = .ok (loc, disk')) :
    disk'.cwd = disk.cwd ∧ disk'.waiting = disk.waiting ∧ disk'.log = disk.log := by
  rcases create_cases hcreate with ⟨_, _, -, rfl⟩ | ⟨-, rfl⟩ <;> exact ⟨rfl, rfl, rfl⟩

/-- Writing a file changes that file only. -/
theorem Sound.write (hsound : disk.Sound) {path : Path} {bytes : Bytes}
    (hwrite : disk.write path bytes = .ok disk') :
    disk'.Sound ∧ disk.tree.Alike disk'.tree ∧ disk'.cwd = disk.cwd ∧ disk'.log = disk.log := by
  simp only [Disk.write, bind, Except.bind] at hwrite
  split at hwrite
  · cases hwrite
  · next made hmade =>
      obtain ⟨loc, made⟩ := made
      cases hwrite
      obtain ⟨hsound', halike, -⟩ := hsound.create hmade
      obtain ⟨hcwd, -, hlog⟩ := create_places hmade
      obtain ⟨hcwd', -, hlog'⟩ := made.alter_places loc fun _ => bytes
      exact ⟨hsound'.alter loc _, halike.trans (made.alike_alter loc _), hcwd'.trans hcwd,
        hlog'.trans hlog⟩

theorem alike_logged (disk : Disk) (line : String) : disk.tree.Alike (disk.logged line).tree := by
  rcases disk.logged_eq line with ⟨loc, -, heq⟩ | ⟨-, heq⟩ <;> rw [heq]
  · exact disk.alike_alter _ _
  · exact fun _ => .inl rfl

end Disk

end Unscramble
