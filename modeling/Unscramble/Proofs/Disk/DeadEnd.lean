import Mathlib
import Unscramble.Proofs.Disk.Canonical
import Unscramble.Proofs.Disk.Content

/-!
# Dead ends

No path goes on through a file, or through a link that leads to a file.  Taking such
an entry away cuts off no path but those that end there.
-/

namespace Unscramble.Disk

/-- The entry at `loc` is no directory, and stands for none if it is a link. -/
structure DeadEnd (tree : Tree) (loc : Loc) : Prop where
  leaf : tree.get? loc ≠ some .directory
  closed : ∀ {here name target links mid}, loc = here ++ [name] →
    tree.get? loc = some (.link target) → Stands tree links here target mid →
      tree.get? mid ≠ some .directory

section Walk

variable {tree tree' : Tree} {t loc : Loc}

/-- A walk to a directory does not go through a dead end. -/
theorem DeadEnd.walk {jump jump' : Loc → String → List String → Except Refusal Found}
    (hdead : DeadEnd tree t) (htree : ∀ q, q ≠ t → tree'.get? q = tree.get? q)
    (hblocked : ∀ {dir name target rest}, t = dir ++ [name] → tree.get? t = some (.link target) →
      jump dir target rest ≠ .ok (.present loc .directory))
    (hjump : ∀ {dir target rest}, jump dir target rest = .ok (.present loc .directory) →
      jump' dir target rest = .ok (.present loc .directory))
    {here : Loc} {names : List String}
    (hwalk : walk jump tree .followed here names = .ok (.present loc .directory)) :
    walk jump' tree' .followed here names = .ok (.present loc .directory) := by
  have hkeep {q : Loc} (hq : tree.get? q = some .directory) : tree'.get? q = some .directory := by
    rw [htree q fun heq => hdead.leaf (heq ▸ hq), hq]
  induction names generalizing here with
  | nil =>
      have hhere := start_of_walk hwalk
      simpa only [Disk.walk, hhere, hkeep hhere] using hwalk
  | cons name rest ih =>
      obtain ⟨hhere, ⟨hskip, hnext⟩ | ⟨rfl, hnext⟩ | ⟨hname, hshort, hnext⟩⟩ := walk_cons hwalk
      · simpa only [Disk.walk, hkeep hhere, if_pos hskip] using ih hnext
      · simpa [Disk.walk, hkeep hhere] using ih hnext
      · have hkept : ¬(name = "" ∨ name = ".") := not_or.mpr hname.1
        obtain ⟨target, hlink, hnext⟩ | ⟨held, hheld, -, hnext⟩ := hnext
        · have hother : here ++ [name] ≠ t := fun heq => hblocked heq.symm (heq ▸ hlink) hnext
          simpa [Disk.walk, hkeep hhere, hkept, hname.2, Nat.not_lt.mpr hshort, htree _ hother,
            hlink] using hjump hnext
        · have hdown := hkeep (start_of_walk hnext)
          simpa [Disk.walk, hkeep hhere, hkept, hname.2, Nat.not_lt.mpr hshort, hdown]
            using ih hnext

theorem DeadEnd.route {links : Nat} {here : Loc} {names : List String} (hdead : DeadEnd tree t)
    (htree : ∀ q, q ≠ t → tree'.get? q = tree.get? q)
    (hroute : route tree .followed links here names = .ok (.present loc .directory)) :
    route tree' .followed links here names = .ok (.present loc .directory) := by
  induction links generalizing here names with
  | zero => exact hdead.walk htree (fun _ _ h => by cases h) (fun h => by cases h) hroute
  | succ links ih =>
      refine hdead.walk htree (fun ht hlink hjump => ?_) (fun hjump => ih hjump) hroute
      -- what the link stands for would have to be passed through
      obtain ⟨mid, held, hmid, hmore⟩ := route_append hjump
      obtain ⟨jump, hwalk⟩ := route_eq_walk tree .followed links
      rw [hwalk] at hmore
      exact hdead.closed ht hlink ⟨held, hmid⟩ (start_of_walk hmore)

end Walk

variable {disk : Disk} {path dir : Path} {t p : Loc}

/-- The ways to directories stay open when a dead end is taken away. -/
theorem DeadEnd.reached (hdead : DeadEnd disk.tree t) (hsound : disk.Sound)
    (hfind : disk.find .followed path = .ok (.present p .directory)) :
    (disk.eraseWithin t).find .followed path = .ok (.present p .directory) := by
  have htree (q : Loc) (hq : q ≠ t) : (disk.tree.eraseWithin t).get? q = disk.tree.get? q := by
    rw [hsound.get?_eraseWithin hdead.leaf, if_neg hq]
  have hcwd : (disk.eraseWithin t).cwd = disk.cwd := hsound.cwd_within hdead.leaf
  have hpath := nameable_of_find hfind
  rw [find_of_nameable hpath] at hfind ⊢
  cases hanchor : path.anchor with
  | here =>
      simp only [hanchor, reach, hcwd] at hfind ⊢
      split at hfind
      · exact hdead.route htree hfind
      · cases hfind
      · cases hfind
  | root => rw [hanchor] at hfind; exact hdead.route htree hfind
  | doubleRoot => rw [hanchor] at hfind; exact hdead.route htree hfind

/-- What is found elsewhere is still found when a dead end is taken away. -/
theorem DeadEnd.find_itself (hdead : DeadEnd disk.tree t) (hsound : disk.Sound) {found : Found}
    (hfind : disk.find .itself path = .ok found) (hremoved : found ≠ .removed)
    (hother : ∀ entry, found ≠ .present t entry) (hheld : disk.tree.get? t ≠ none) :
    (disk.eraseWithin t).find .itself path = .ok found := by
  by_cases hdirectory : ∃ loc, found = .present loc .directory
  · obtain ⟨loc, rfl⟩ := hdirectory
    have hreached := hdead.reached hsound (find_followed_of_ne_link hfind (by simp))
    have htnil : t ≠ [] := by
      rintro rfl
      exact hdead.leaf disk.tree.get?_nil
    rcases (disk.eraseWithin t).find_followed path with ⟨q, text, hlink⟩ | heq
    · have hthin := disk.thinner_eraseWithin htnil
      obtain ⟨held, hback, hbare⟩ := hthin.present hsound hlink
      rw [hfind] at hback
      cases hback
      cases hbare
    · rw [← heq, hreached]
  · have hname := hsound.ordinary_of_find hfind (fun loc heq => hdirectory ⟨loc, heq⟩) hremoved
    have hchild := Path.child_parent (Path.ordinary_ne_empty hname)
    rw [← hchild] at hfind ⊢
    obtain ⟨p, hp, hshort, hcases⟩ := reached_of_find_child hname hfind
    rw [find_child_of_reached hname hshort (nameable_of_find hfind) (hdead.reached hsound hp)]
    have hget : p ++ [path.name] ≠ t →
        (disk.eraseWithin t).tree.get? (p ++ [path.name]) = disk.tree.get? (p ++ [path.name]) :=
      fun hne => (hsound.get?_eraseWithin hdead.leaf _).trans (if_neg hne)
    obtain ⟨rfl, hnone⟩ | ⟨entry, rfl, hentry⟩ := hcases
    · rw [hget fun heq => hheld (heq ▸ hnone), hnone]
    · rw [hget fun heq => hother entry (heq ▸ rfl), hentry]

/-- How a path goes on from the directory before its last name. -/
theorem route_of_find_child {name : String} {loc : Loc} {entry : Entry} (hname : Path.Ordinary name)
    (hdir : disk.find .followed dir = .ok (.present p .directory))
    (hfind : disk.find .followed (dir.child name) = .ok (.present loc entry)) :
    route disk.tree .followed linkMax p [name] = .ok (.present loc entry) := by
  have hstep {here : Loc} {names : List String}
      (hfirst : route disk.tree .followed linkMax here names = .ok (.present p .directory))
      (hall : route disk.tree .followed linkMax here (names ++ [name]) =
        .ok (.present loc entry)) :
      route disk.tree .followed linkMax p [name] = .ok (.present loc entry) := by
    obtain ⟨mid, held, hmid, hlast⟩ := route_append hall
    rw [hfirst] at hmid
    cases hmid
    exact hlast
  rw [find_of_nameable (nameable_of_find hfind)] at hfind
  rw [find_of_nameable (nameable_of_find hdir)] at hdir
  simp only [Path.child] at hfind
  cases hanchor : dir.anchor with
  | here =>
      simp only [hanchor, reach, climb_concat hname] at hfind hdir
      rcases hclimb : climb disk.cwd.lost dir.parts with why | ⟨_ | lost, rest⟩
      · rw [hclimb] at hdir; cases hdir
      · rw [hclimb] at hdir hfind
        exact hstep hdir hfind
      · rw [hclimb] at hdir; cases hdir
  | root => rw [hanchor] at hdir hfind; exact hstep hdir hfind
  | doubleRoot => rw [hanchor] at hdir hfind; exact hstep hdir hfind

/-- An entry that leads to a file is a dead end. -/
theorem Sound.deadEnd (hsound : disk.Sound) {entry : Entry} {bytes : Bytes}
    (hfind : disk.find .itself path = .ok (.present t entry))
    (hbytes : disk.content? path = some bytes) : DeadEnd disk.tree t := by
  obtain ⟨loc, access, hfile⟩ := content?_eq_some_iff.mp hbytes
  have hentry : entry ≠ .directory := by
    rintro rfl
    rw [find_followed_of_ne_link hfind (by simp)] at hfile
    cases hfile
  refine ⟨fun h => hentry (Option.some.inj ((find_fits hfind).symm.trans h)), ?_⟩
  intro here name target links mid ht hlink hstands
  have hname := hsound.ordinary_of_find hfile nofun nofun
  have hchild := Path.child_parent (Path.ordinary_ne_empty hname)
  rw [← hchild] at hfind hfile
  obtain ⟨p, hp, -, ⟨h, -⟩ | ⟨_, h, -⟩⟩ := reached_of_find_child hname hfind <;> cases h
  obtain ⟨rfl, -⟩ := List.append_inj' ht rfl
  rcases route_cons (route_of_find_child hname hp hfile) with
    ⟨hskip, -⟩ | ⟨hup, -⟩ | ⟨-, target', fewer, mid', hlink', -, hstands', hend⟩ |
      ⟨-, held, hheld, hother, -⟩
  · exact absurd hskip (not_or.mpr hname.1)
  · exact absurd hup hname.2
  · cases hlink'.symm.trans hlink
    rw [hstands.unique hstands']
    obtain ⟨jump, hwalk⟩ := route_eq_walk disk.tree .followed linkMax
    rw [hwalk, walk] at hend
    split at hend
    · next held hheld =>
        cases hend
        simp [hheld]
    · cases hend
  · exact absurd (Option.some.inj (hheld.symm.trans hlink)) (hother target)

end Unscramble.Disk
