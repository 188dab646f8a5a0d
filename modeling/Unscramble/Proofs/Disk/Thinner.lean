import Mathlib
import Unscramble.Proofs.Disk.Sound

/-!
# Thinner disks

One disk is thinner than another when entries have only been taken away from it
or files altered.  On a thinner disk a path leads to what it led to before, or to
nothing; the one exception is a working directory that has been removed, from
which a path can lead to a directory that is no longer in the tree.
-/

namespace Unscramble

/-- What an entry is, apart from what a file holds. -/
def Entry.bare : Entry → Entry
  | .directory => .directory
  | .file _ _ => .file [] {}
  | .link target => .link target

@[simp]
theorem Entry.bare_eq_directory {entry : Entry} :
    entry.bare = .directory ↔ entry = .directory := by
  cases entry <;> simp [Entry.bare]

@[simp]
theorem Entry.bare_eq_link {entry : Entry} {target : String} :
    entry.bare = .link target ↔ entry = .link target := by
  cases entry <;> simp [Entry.bare]

theorem Disk.kind_bare (entry : Entry) : entry.bare.kind = entry.kind := by cases entry <;> rfl

def Found.bare : Found → Found
  | .present loc entry => .present loc entry.bare
  | .vacant loc => .vacant loc
  | .removed => .removed

/-- Entries that differ in the bytes of a file at most. -/
theorem Entry.bare_cases {entry entry' : Entry} (hbare : entry'.bare = entry.bare) :
    (entry' = .directory ∧ entry = .directory) ∨
      (∃ target, entry' = .link target ∧ entry = .link target) ∨
      ∃ bytes access bytes' access',
        entry' = .file bytes' access' ∧ entry = .file bytes access := by
  cases entry <;> cases entry' <;> simp_all [Entry.bare]

/-- Places that differ in the bytes of a file at most. -/
theorem Found.bare_cases {found found' : Found} (hbare : found'.bare = found.bare) :
    (∃ loc entry entry', found' = .present loc entry' ∧ found = .present loc entry ∧
        entry'.bare = entry.bare) ∨
      (∃ loc, found' = .vacant loc ∧ found = .vacant loc) ∨
      (found' = .removed ∧ found = .removed) := by
  cases found <;> cases found' <;> simp_all [Found.bare]

/-- What a tree holds at a location, apart from what a file holds. -/
def Tree.shape (tree : Tree) (loc : Loc) : Option Entry := (tree.get? loc).map Entry.bare

theorem Tree.shape_eq_directory_iff {tree : Tree} {loc : Loc} :
    tree.shape loc = some .directory ↔ tree.get? loc = some .directory := by
  simp [Tree.shape]

theorem Tree.shape_eq_link_iff {tree : Tree} {loc : Loc} {target : String} :
    tree.shape loc = some (.link target) ↔ tree.get? loc = some (.link target) := by
  simp [Tree.shape]

/-- A working directory after some of the directories on the way to it are gone. -/
def Standpoint.Raised (place' place : Standpoint) : Prop :=
  ∃ gone, place.above = place'.above ++ gone ∧ place'.lost = place.lost + gone.length

theorem Standpoint.Raised.refl (place : Standpoint) : place.Raised place := ⟨[], by simp, rfl⟩

theorem Standpoint.Raised.trans {a b c : Standpoint} (hab : a.Raised b) (hbc : b.Raised c) :
    a.Raised c := by
  obtain ⟨gone, habove, hlost⟩ := hab
  obtain ⟨gone', habove', hlost'⟩ := hbc
  refine ⟨gone ++ gone', by rw [habove', habove, List.append_assoc], ?_⟩
  rw [hlost, hlost', List.length_append]
  omega

theorem Standpoint.raised_within (place : Standpoint) {loc : Loc} (hloc : loc ≠ []) :
    (place.within loc).Raised place := by
  unfold Standpoint.within
  split
  · next hpre =>
      obtain ⟨rest, hrest⟩ := hpre
      obtain ⟨dir, name, rfl⟩ := (List.eq_nil_or_concat' loc).resolve_left hloc
      exact ⟨name :: rest, by simp [← hrest], by simp [← hrest]⟩
  · exact Standpoint.Raised.refl place

theorem Standpoint.raised_below (place : Standpoint) (loc : Loc) :
    (place.below loc).Raised place := by
  unfold Standpoint.below
  split
  · next hpre =>
      obtain ⟨rest, hrest⟩ := hpre
      exact ⟨rest, hrest.symm, by simp [← hrest]⟩
  · exact Standpoint.Raised.refl place

namespace Disk

/-- A path leads to no entry: its last name is free, or the way to it is cut off. -/
def Missing (result : Except Refusal Found) : Prop :=
  (∃ loc, result = .ok (.vacant loc)) ∨ ∃ why, result = .error why ∧ why.isAbsence = true

theorem missing_vacant (loc : Loc) : Missing (.ok (.vacant loc)) := .inl ⟨loc, rfl⟩

theorem missing_notFound : Missing (.error .notFound) := .inr ⟨.notFound, rfl, rfl⟩

structure Thinner (disk' disk : Disk) : Prop where
  tree : ∀ loc, disk'.tree.get? loc = none ∨ disk'.tree.shape loc = disk.tree.shape loc
  cwd : disk'.cwd.Raised disk.cwd

/-! ## Walking a thinner tree -/

/-- What is found on the thinner tree is missing or the same. -/
def Thins (result' result : Except Refusal Found) : Prop :=
  Missing result' ∨ result'.map Found.bare = result.map Found.bare

section Walk

variable {tree tree' : Tree}

theorem get?_of_shape {loc : Loc} {entry : Entry}
    (hshape : tree'.shape loc = tree.shape loc) (hloc : tree.get? loc = some entry) :
    ∃ entry', tree'.get? loc = some entry' ∧ entry'.bare = entry.bare := by
  rw [Tree.shape, Tree.shape, hloc] at hshape
  exact Option.map_eq_some_iff.mp hshape

theorem get?_cases {loc : Loc} (hshape : tree'.shape loc = tree.shape loc) :
    (tree'.get? loc = none ∧ tree.get? loc = none) ∨
      ∃ entry entry', tree'.get? loc = some entry' ∧ tree.get? loc = some entry ∧
        entry'.bare = entry.bare := by
  cases hentry : tree.get? loc with
  | none => exact .inl ⟨by simpa [Tree.shape, hentry] using hshape, rfl⟩
  | some entry =>
    obtain ⟨entry', hentry', hbare⟩ := get?_of_shape hshape hentry
    exact .inr ⟨entry, entry', hentry', rfl, hbare⟩

theorem walk_of_missing {jump : Loc → String → List String → Except Refusal Found}
    {manner : Manner} {here : Loc} (hhere : tree.get? here = none) (names : List String) :
    walk jump tree manner here names = .error .notFound := by
  cases names <;> simp only [walk, hhere]

theorem missing_of_free {jump : Loc → String → List String → Except Refusal Found}
    {manner : Manner} {here : Loc} {name : String} {rest : List String}
    (hhere : tree.get? here = some .directory) (hkept : ¬(name = "" ∨ name = "."))
    (hup : name ≠ "..") (hshort : ¬nameMax < name.utf8ByteSize)
    (hmaking : ¬(manner = .making ∧ rest ≠ [] ∧ rest.all (· = "") = true))
    (hfree : tree.get? (here ++ [name]) = none) :
    Missing (walk jump tree manner here (name :: rest)) := by
  simp only [walk, hhere, if_neg hkept, if_neg hup, if_neg hshort, if_neg hmaking, hfree]
  split
  · exact missing_vacant _
  · exact missing_notFound

theorem walk_thins {jump jump' : Loc → String → List String → Except Refusal Found}
    {manner : Manner} {here : Loc} {names : List String}
    (htree : ∀ loc, tree'.get? loc = none ∨ tree'.shape loc = tree.shape loc)
    (hjump : ∀ dir target rest, Thins (jump' dir target rest) (jump dir target rest)) :
    Thins (walk jump' tree' manner here names) (walk jump tree manner here names) := by
  have hdirectory {loc : Loc} (hloc : tree.get? loc = some .directory) :
      tree'.get? loc = none ∨ tree'.get? loc = some .directory := by
    refine (htree loc).imp_right fun hshape => ?_
    obtain ⟨entry', hentry', hbare⟩ := get?_of_shape hshape hloc
    rw [hentry', Entry.bare_eq_directory.mp hbare]
  have hfree {loc : Loc} (hloc : tree.get? loc = none) : tree'.get? loc = none := by
    rcases htree loc with hgone | hshape
    · exact hgone
    · simpa [Tree.shape, hloc] using hshape
  have hcut {here : Loc} (names : List String) (hhere : tree'.get? here = none)
      (result : Except Refusal Found) : Thins (walk jump' tree' manner here names) result := by
    rw [walk_of_missing hhere]
    exact .inl missing_notFound
  fun_induction walk jump tree manner here names with
  | case1 here entry hhere =>
      rcases htree here with hhere' | hshape
      · exact hcut _ hhere' _
      · obtain ⟨entry', hentry', hbare⟩ := get?_of_shape hshape hhere
        exact .inr (by simp [walk, hentry', Except.map, Found.bare, hbare])
  | case2 here hhere => exact hcut _ (hfree hhere) _
  | case3 here name rest hhere hname ih =>
      rcases hdirectory hhere with hhere' | hhere'
      · exact hcut _ hhere' _
      · simpa only [walk, hhere', if_pos hname] using ih
  | case4 here rest hhere hname ih =>
      rcases hdirectory hhere with hhere' | hhere'
      · exact hcut _ hhere' _
      · simpa only [walk, hhere', if_neg hname, if_true] using ih
  | case5 here name rest hhere hkept hup hlong =>
      rcases hdirectory hhere with hhere' | hhere'
      · exact hcut _ hhere' _
      · exact .inr (by simp only [walk, hhere', if_neg hkept, if_neg hup, if_pos hlong])
  | case6 here name rest hhere hkept hup hshort hmaking =>
      rcases hdirectory hhere with hhere' | hhere'
      · exact hcut _ hhere' _
      · exact .inr (by
          simp only [walk, hhere', if_neg hkept, if_neg hup, if_neg hshort, if_pos hmaking])
  | case7 here name hhere hkept hup hshort hmissing hmaking =>
      rcases hdirectory hhere with hhere' | hhere'
      · exact hcut _ hhere' _
      · exact .inl (missing_of_free hhere' hkept hup hshort hmaking (hfree hmissing))
  | case8 here name rest hhere hkept hup hshort hmaking hmissing hrest =>
      rcases hdirectory hhere with hhere' | hhere'
      · exact hcut _ hhere' _
      · exact .inl (missing_of_free hhere' hkept hup hshort hmaking (hfree hmissing))
  | case9 here name rest hhere hkept hup hshort hmaking target hlink hlast =>
      rcases hdirectory hhere with hhere' | hhere'
      · exact hcut _ hhere' _
      · rcases htree (here ++ [name]) with hgone | hshape
        · exact .inl (missing_of_free hhere' hkept hup hshort hmaking hgone)
        · obtain ⟨entry', hentry', hbare⟩ := get?_of_shape hshape hlink
          rw [Entry.bare_eq_link.mp hbare] at hentry'
          exact .inr (by simp [walk, hhere', hkept, hup, hshort, hentry', hlast])
  | case10 here name rest hhere hkept hup hshort hmaking target hlink hlast =>
      rcases hdirectory hhere with hhere' | hhere'
      · exact hcut _ hhere' _
      · rcases htree (here ++ [name]) with hgone | hshape
        · exact .inl (missing_of_free hhere' hkept hup hshort hmaking hgone)
        · obtain ⟨entry', hentry', hbare⟩ := get?_of_shape hshape hlink
          rw [Entry.bare_eq_link.mp hbare] at hentry'
          simpa only [walk, hhere', if_neg hkept, if_neg hup, if_neg hshort, if_neg hmaking,
            hentry', if_neg hlast] using hjump here target rest
  | case11 here name rest hhere hkept hup hshort hmaking entry hother hentry ih =>
      rcases hdirectory hhere with hhere' | hhere'
      · exact hcut _ hhere' _
      · rcases htree (here ++ [name]) with hgone | hshape
        · exact .inl (missing_of_free hhere' hkept hup hshort hmaking hgone)
        · obtain ⟨entry', hentry', hbare⟩ := get?_of_shape hshape hentry
          have hkeep : ∀ target, entry' ≠ .link target := by
            rintro target rfl
            exact hother target (Entry.bare_eq_link.mp hbare.symm)
          cases entry' with
          | link target => exact absurd rfl (hkeep target)
          | directory =>
              simpa only [walk, hhere', if_neg hkept, if_neg hup, if_neg hshort, if_neg hmaking,
                hentry'] using ih
          | file bytes access =>
              simpa only [walk, hhere', if_neg hkept, if_neg hup, if_neg hshort, if_neg hmaking,
                hentry'] using ih
  | case12 here name rest entry hother hhere =>
      rcases htree here with hhere' | hshape
      · exact hcut _ hhere' _
      · obtain ⟨entry', hentry', hbare⟩ := get?_of_shape hshape hhere
        cases entry' with
        | directory => exact absurd (Entry.bare_eq_directory.mp hbare.symm) hother
        | file bytes access => exact .inr (by simp only [walk, hentry'])
        | link target => exact .inr (by simp only [walk, hentry'])
  | case13 here name rest hhere => exact hcut _ (hfree hhere) _

theorem route_thins {manner : Manner} {links : Nat} {here : Loc} {names : List String}
    (htree : ∀ loc, tree'.get? loc = none ∨ tree'.shape loc = tree.shape loc) :
    Thins (route tree' manner links here names) (route tree manner links here names) := by
  induction links generalizing here names with
  | zero => exact walk_thins htree fun _ _ _ => .inr rfl
  | succ links ih => exact walk_thins htree fun _ _ _ => ih

end Walk

/-! ## Out of a removed directory -/

theorem climb_add (lost more : Nat) (names : List String) :
    climb (lost + more) names =
      match climb lost names with
      | .ok (0, rest) => climb more rest
      | .ok (left + 1, rest) => .ok (left + 1 + more, rest)
      | .error why => .error why := by
  fun_induction climb lost names with
  | case1 names => simp
  | case2 lost => simp [Nat.add_right_comm lost 1 more, climb]
  | case3 lost name rest hname ih =>
      rw [← ih, Nat.add_right_comm lost 1 more, climb, if_pos hname]
  | case4 lost rest hname ih =>
      rw [← ih, Nat.succ_eq_add_one, Nat.add_right_comm lost 1 more, climb, if_neg hname, if_pos rfl]
  | case5 lost name rest hname hup => simp [Nat.add_right_comm lost 1 more, climb, hname, hup]

theorem climb_error {lost : Nat} {names : List String} {why : Refusal}
    (hclimb : climb lost names = .error why) : why = .notFound := by
  fun_induction climb lost names with
  | case1 names => cases hclimb
  | case2 lost => cases hclimb
  | case3 lost name rest hname ih => exact ih hclimb
  | case4 lost rest hname ih => exact ih hclimb
  | case5 lost name rest hname hup => exact (Except.error.inj hclimb).symm

section Climb

variable {jump : Loc → String → List String → Except Refusal Found} {tree : Tree}
  {manner : Manner} {base gone : Loc}

/-- Climbing out of directories that are gone is walking up while they are there. -/
theorem walk_of_climb_eq_zero {names rest : List String}
    (hdirs : ∀ p, p <+: base ++ gone → tree.get? p = some .directory)
    (hclimb : climb gone.length names = .ok (0, rest)) :
    walk jump tree manner (base ++ gone) names = walk jump tree manner base rest := by
  generalize hlength : gone.length = lost at hclimb
  fun_induction climb lost names generalizing gone with
  | case1 names =>
      cases hclimb
      rw [List.eq_nil_of_length_eq_zero hlength, List.append_nil]
  | case2 lost => cases hclimb
  | case3 lost name names hname ih =>
      rw [walk, hdirs _ List.prefix_rfl, if_pos hname]
      exact ih hdirs hlength hclimb
  | case4 lost names hname ih =>
      obtain ⟨init, last, rfl⟩ := (List.eq_nil_or_concat' gone).resolve_left (by
        rintro rfl
        cases hlength)
      simp only [walk, hdirs _ List.prefix_rfl, if_neg hname, if_true]
      rw [← List.append_assoc, List.dropLast_concat]
      refine ih (fun p hp => hdirs p ?_) (by simpa using hlength) hclimb
      rw [← List.append_assoc]
      exact hp.trans (List.prefix_append _ _)
  | case5 lost name names hname hup => cases hclimb

theorem walk_of_climb_eq_succ {names rest : List String} {left : Nat}
    (hdirs : ∀ p, p <+: base ++ gone → tree.get? p = some .directory)
    (hclimb : climb gone.length names = .ok (left + 1, rest)) :
    ∃ loc, walk jump tree manner (base ++ gone) names = .ok (.present loc .directory) := by
  generalize hlength : gone.length = lost at hclimb
  fun_induction climb lost names generalizing gone with
  | case1 names => cases hclimb
  | case2 lost => exact ⟨_, by rw [walk, hdirs _ List.prefix_rfl]⟩
  | case3 lost name names hname ih =>
      rw [walk, hdirs _ List.prefix_rfl, if_pos hname]
      exact ih hdirs hlength hclimb
  | case4 lost names hname ih =>
      obtain ⟨init, last, rfl⟩ := (List.eq_nil_or_concat' gone).resolve_left (by
        rintro rfl
        cases hlength)
      simp only [walk, hdirs _ List.prefix_rfl, if_neg hname, if_true]
      rw [← List.append_assoc, List.dropLast_concat]
      refine ih (fun p hp => hdirs p ?_) (by simpa using hlength) hclimb
      rw [← List.append_assoc]
      exact hp.trans (List.prefix_append _ _)
  | case5 lost name names hname hup => cases hclimb

end Climb

/-! ## Thinner disks -/

variable {disk disk' disk'' : Disk}

theorem route_eq_walk (tree : Tree) (manner : Manner) (links : Nat) :
    ∃ jump, ∀ here names, route tree manner links here names =
      walk jump tree manner here names := by
  cases links with
  | zero => exact ⟨_, fun _ _ => rfl⟩
  | succ links => exact ⟨_, fun _ _ => rfl⟩

/-- What a path leads to on a thinner disk. -/
theorem Thinner.find (hthin : disk'.Thinner disk) (hsound : disk.Sound) (manner : Manner)
    (path : Path) :
    Thins (disk'.find manner path) (disk.find manner path) ∨
      disk'.find manner path = .ok .removed ∧
        ∃ loc, disk.find manner path = .ok (.present loc .directory) := by
  by_cases hpath : path.Nameable
  · rw [find_of_nameable hpath, find_of_nameable hpath]
    cases path.anchor with
    | here =>
        obtain ⟨gone, habove, hlost⟩ := hthin.cwd
        have hdirs : ∀ p, p <+: disk'.cwd.above ++ gone →
            disk.tree.get? p = some .directory := by
          intro p hp
          rw [← habove] at hp
          by_cases hne : p = disk.cwd.above
          · rw [hne, hsound.working]
          · exact hsound.directory_of_prefix hp hne hsound.working
        simp only [reach, hlost, climb_add]
        rcases climb disk.cwd.lost path.parts with why | ⟨_ | lost, rest⟩
        · exact .inl (.inr rfl)
        · obtain ⟨jump, hroute⟩ := route_eq_walk disk.tree manner linkMax
          simp only [habove, hroute]
          rcases hclimb : climb gone.length rest with why | ⟨_ | lost, names⟩
          · rw [climb_error hclimb]
            exact .inl (.inl missing_notFound)
          · rw [walk_of_climb_eq_zero hdirs hclimb, ← hroute]
            exact .inl (route_thins hthin.tree)
          · exact .inr ⟨rfl, walk_of_climb_eq_succ hdirs hclimb⟩
        · exact .inl (.inr (by simp [Nat.add_right_comm lost 1]))
    | root => exact .inl (route_thins hthin.tree)
    | doubleRoot => exact .inl (route_thins hthin.tree)
  · rw [find_of_not_nameable hpath, find_of_not_nameable hpath]
    exact .inl (.inr rfl)

theorem not_missing_present {loc : Loc} {entry : Entry} :
    ¬Missing (.ok (.present loc entry)) := by
  rintro (⟨_, h⟩ | ⟨_, h, -⟩) <;> cases h

theorem not_missing_removed : ¬Missing (.ok .removed) := by
  rintro (⟨_, h⟩ | ⟨_, h, -⟩) <;> cases h

theorem missing_of_bare {result result' : Except Refusal Found}
    (hbare : result'.map Found.bare = result.map Found.bare) (hmissing : Missing result) :
    Missing result' := by
  rcases hmissing with ⟨loc, rfl⟩ | ⟨why, rfl, hwhy⟩
  · rcases result' with _ | ⟨_ | _ | _⟩ <;> cases hbare
    exact missing_vacant loc
  · rcases result' with _ | _ <;> cases hbare
    exact .inr ⟨why, rfl, hwhy⟩

/-- What is missing stays missing. -/
theorem Thinner.missing (hthin : disk'.Thinner disk) (hsound : disk.Sound) {manner : Manner}
    {path : Path} (hmissing : Missing (disk.find manner path)) :
    Missing (disk'.find manner path) := by
  rcases hthin.find hsound manner path with (hgone | hbare) | ⟨-, loc, hloc⟩
  · exact hgone
  · exact missing_of_bare hbare hmissing
  · rw [hloc] at hmissing
    exact absurd hmissing not_missing_present

/-- What is still there was there before. -/
theorem Thinner.present (hthin : disk'.Thinner disk) (hsound : disk.Sound) {manner : Manner}
    {path : Path} {loc : Loc} {entry : Entry}
    (hfind : disk'.find manner path = .ok (.present loc entry)) :
    ∃ entry', disk.find manner path = .ok (.present loc entry') ∧ entry'.bare = entry.bare := by
  rcases hthin.find hsound manner path with (hgone | hbare) | ⟨hremoved, -⟩
  · rw [hfind] at hgone
    exact absurd hgone not_missing_present
  · rw [hfind] at hbare
    rcases hold : disk.find manner path with why | ⟨loc', entry'⟩ | loc' | _ <;>
      rw [hold] at hbare <;> simp only [Except.map, Found.bare, reduceCtorEq, Except.ok.injEq,
        Found.present.injEq] at hbare
    exact ⟨entry', by rw [hbare.1], hbare.2.symm⟩
  · rw [hfind] at hremoved
    cases hremoved

/-- A directory that is still reached was reached before. -/
theorem Thinner.directory (hthin : disk'.Thinner disk) (hsound : disk.Sound)
    {manner : Manner} {path : Path} {loc : Loc}
    (hfind : disk'.find manner path = .ok (.present loc .directory)) :
    disk.find manner path = .ok (.present loc .directory) := by
  obtain ⟨entry', hfind', hbare⟩ := hthin.present hsound hfind
  rw [hfind', Entry.bare_eq_directory.mp hbare]

theorem Thinner.refl (disk : Disk) : disk.Thinner disk :=
  ⟨fun _ => .inr rfl, .refl _⟩

theorem Thinner.trans (hthin : disk''.Thinner disk') (hthin' : disk'.Thinner disk) :
    disk''.Thinner disk where
  tree loc := by
    rcases hthin.tree loc with hgone | hshape
    · exact .inl hgone
    · rcases hthin'.tree loc with hgone' | hshape'
      · left
        simpa [Tree.shape, hgone'] using hshape
      · exact .inr (hshape.trans hshape')
  cwd := hthin.cwd.trans hthin'.cwd

theorem thinner_eraseWithin (disk : Disk) {loc : Loc} (hloc : loc ≠ []) :
    (disk.eraseWithin loc).Thinner disk where
  tree q := by
    have hget := disk.get?_within hloc q
    by_cases hpre : loc <+: q
    · exact .inl (by rw [hget, if_pos hpre])
    · exact .inr (by rw [Tree.shape, Tree.shape, hget, if_neg hpre])
  cwd := disk.cwd.raised_within hloc

theorem thinner_eraseBelow (disk : Disk) (loc : Loc) :
    (disk.eraseBelow loc).Thinner disk where
  tree q := by
    have hget := disk.get?_below loc q
    by_cases hbelow : loc <+: q ∧ loc ≠ q
    · exact .inl (by rw [hget, if_pos hbelow])
    · exact .inr (by rw [Tree.shape, Tree.shape, hget, if_neg hbelow])
  cwd := disk.cwd.raised_below loc

/-- A directory that is emptied and then erased has been erased. -/
theorem eraseWithin_eraseBelow (disk : Disk) (loc : Loc) :
    (disk.eraseBelow loc).eraseWithin loc = disk.eraseWithin loc := by
  have htree : (disk.tree.eraseBelow loc).eraseWithin loc = disk.tree.eraseWithin loc := by
    simp only [Tree.eraseWithin, Tree.eraseBelow, Tree.mk.injEq, List.filter_filter]
    refine List.filter_congr fun x _ => ?_
    by_cases hpre : loc <+: x.1 <;> simp [hpre]
  have hplace (place : Standpoint) : (place.below loc).within loc = place.within loc := by
    unfold Standpoint.below Standpoint.within
    split
    · next hpre =>
        simp only [List.prefix_rfl, if_true, Standpoint.mk.injEq, true_and]
        have hlength := hpre.length_le
        omega
    · rfl
  have hlog : ((disk.log.filter fun p => !decide (loc <+: p ∧ loc ≠ p)).filter
      fun p => !decide (loc <+: p)) = disk.log.filter fun p => !decide (loc <+: p) := by
    cases disk.log with
    | none => rfl
    | some p =>
        by_cases hne : loc = p
        · simp [Option.filter, hne]
        · by_cases hpre : loc <+: p <;> simp [Option.filter, hne, hpre]
  simp only [eraseWithin, eraseBelow, htree, hplace, hlog, List.map_map, Function.comp_def]

theorem shape_alter (disk : Disk) (loc : Loc) (change : Bytes → Bytes) (q : Loc) :
    (disk.alter loc change).tree.shape q = disk.tree.shape q := by
  rcases disk.alter_eq loc change with ⟨bytes, access, hfile, halter⟩ | halter
  · rw [halter, Tree.shape, Tree.shape, get?_insert _ (Tree.ne_nil_of_get? hfile (by simp))]
    split
    · next heq => simp [heq, hfile, Entry.bare]
    · rfl
  · rw [halter]

/-- What a thinner disk holds has been there. -/
theorem Thinner.held (hthin : disk'.Thinner disk) {loc : Loc} {entry : Entry}
    (hentry : disk'.tree.get? loc = some entry) :
    ∃ held, disk.tree.get? loc = some held ∧ held.bare = entry.bare := by
  rcases hthin.tree loc with hgone | hshape
  · rw [hgone] at hentry
    cases hentry
  · exact get?_of_shape hshape.symm hentry

theorem Thinner.held_directory (hthin : disk'.Thinner disk) {loc : Loc}
    (hloc : disk'.tree.get? loc = some .directory) : disk.tree.get? loc = some .directory := by
  obtain ⟨held, hheld, hbare⟩ := hthin.held hloc
  rw [hheld, Entry.bare_eq_directory.mp hbare]

theorem Thinner.held_link (hthin : disk'.Thinner disk) {loc : Loc} {target : String}
    (hloc : disk'.tree.get? loc = some (.link target)) :
    disk.tree.get? loc = some (.link target) := by
  obtain ⟨held, hheld, hbare⟩ := hthin.held hloc
  rw [hheld, Entry.bare_eq_link.mp hbare]

/-- A working directory that a thinner disk has is where it was. -/
theorem Thinner.workingLoc? (hthin : disk'.Thinner disk) {start : Loc}
    (hstart : disk'.workingLoc? = some start) : disk.workingLoc? = some start := by
  obtain ⟨gone, habove, hlost⟩ := hthin.cwd
  rw [workingLoc?_eq_some_iff] at hstart ⊢
  rcases hcwd : disk.cwd with ⟨above, lost⟩
  simp only [hstart, hcwd] at habove hlost
  obtain rfl : gone = [] := List.length_eq_zero_iff.mp (by omega)
  obtain rfl : lost = 0 := by omega
  rw [habove, List.append_nil]

theorem Thinner.of_shape (hshape : ∀ loc, disk'.tree.shape loc = disk.tree.shape loc)
    (hcwd : disk'.cwd = disk.cwd) : disk'.Thinner disk :=
  ⟨fun loc => .inr (hshape loc), hcwd ▸ .refl _⟩

end Disk

end Unscramble
