import Mathlib
import Unscramble.Fault
import Unscramble.Proofs.Disk.Follow

/-!
# What a link stands for

A path that leads to an entry is followed through finitely many links, none of which
is met again while what it stands for is being looked for.  Names that lead on from
such a link are followed from what it stands for.
-/

namespace Unscramble

namespace Path

/-- Names without slashes are read back from the text they are written as. -/
theorem components_intercalate {names : List String} (hslash : ∀ name ∈ names, '/' ∉ name.toList)
    (hnames : names ≠ []) : components ("/".intercalate names) = names := by
  have hsplit := List.splitOn_intercalate '/'
    (by simpa using hslash : ∀ chars ∈ names.map String.toList, '/' ∉ chars) (by simpa using hnames)
  rw [components, String.toList_intercalate]
  change ((['/'].intercalate (names.map String.toList)).splitOn '/').map String.ofList = names
  rw [hsplit, List.map_map]
  simp

end Path

namespace Disk

variable {tree : Tree} {jump jump' : Loc → String → List String → Except Refusal Found}
  {found : Found}

/-! ## Routes -/

theorem walk_mono {manner : Manner} {here : Loc} {names : List String}
    (hjump : ∀ dir target rest, jump dir target rest = .ok found →
      jump' dir target rest = .ok found)
    (hwalk : walk jump tree manner here names = .ok found) :
    walk jump' tree manner here names = .ok found := by
  fun_induction walk jump tree manner here names with
  | case1 here entry hhere => simpa only [walk, hhere] using hwalk
  | case3 here name rest hhere hname ih => simpa only [walk, hhere, if_pos hname] using ih hwalk
  | case4 here rest hhere hname ih =>
      simpa only [walk, hhere, if_neg hname, if_true] using ih hwalk
  | case7 here name hhere hkept hup hshort hmissing =>
      simpa [walk, hhere, hkept, hup, hshort, hmissing] using hwalk
  | case9 here name rest hhere hkept hup hshort hmaking target hlink hlast =>
      simpa only [walk, hhere, if_neg hkept, if_neg hup, if_neg hshort, if_neg hmaking, hlink,
        if_pos hlast] using hwalk
  | case10 here name rest hhere hkept hup hshort hmaking target hlink hlast =>
      simpa only [walk, hhere, if_neg hkept, if_neg hup, if_neg hshort, if_neg hmaking, hlink,
        if_neg hlast] using hjump _ _ _ hwalk
  | case11 here name rest hhere hkept hup hshort hmaking entry hother hentry ih =>
      have hnext := ih hwalk
      cases entry with
      | link target => exact absurd rfl (hother target)
      | _ =>
          simpa only [walk, hhere, if_neg hkept, if_neg hup, if_neg hshort, if_neg hmaking,
            hentry] using hnext
  | _ => cases hwalk

/-- More links may be followed than are needed. -/
theorem route_mono {manner : Manner} {links more : Nat} {here : Loc} {names : List String}
    (hmore : links ≤ more) (hroute : route tree manner links here names = .ok found) :
    route tree manner more here names = .ok found := by
  induction links generalizing more here names with
  | zero =>
      cases more with
      | zero => exact hroute
      | succ more => exact walk_mono (fun _ _ _ hjump => by cases hjump) hroute
  | succ links ih =>
      cases more with
      | zero => exact absurd hmore (Nat.not_succ_le_zero links)
      | succ more =>
          exact walk_mono (fun _ _ _ hjump => ih (Nat.le_of_succ_le_succ hmore) hjump) hroute

/-- The ways in which a walk that follows links gets past a name. -/
theorem walk_cons {here : Loc} {name : String} {rest : List String} {loc : Loc} {entry : Entry}
    (hwalk : walk jump tree .followed here (name :: rest) = .ok (.present loc entry)) :
    tree.get? here = some .directory ∧
      ((name = "" ∨ name = ".") ∧
          walk jump tree .followed here rest = .ok (.present loc entry) ∨
        name = ".." ∧ walk jump tree .followed here.dropLast rest = .ok (.present loc entry) ∨
        Path.Ordinary name ∧ name.utf8ByteSize ≤ nameMax ∧
          ((∃ target, tree.get? (here ++ [name]) = some (.link target) ∧
              jump here target rest = .ok (.present loc entry)) ∨
            ∃ held, tree.get? (here ++ [name]) = some held ∧ (∀ target, held ≠ .link target) ∧
              walk jump tree .followed (here ++ [name]) rest = .ok (.present loc entry))) := by
  unfold walk at hwalk
  split at hwalk
  · next hhere =>
      refine ⟨hhere, ?_⟩
      split at hwalk
      · next hskip => exact .inl ⟨hskip, hwalk⟩
      · next hkept =>
          split at hwalk
          · next hup => exact .inr (.inl ⟨hup, hwalk⟩)
          · next hup =>
              split at hwalk
              · cases hwalk
              · next hshort =>
                  refine .inr (.inr ⟨ordinary_of hkept hup, Nat.le_of_not_lt hshort, ?_⟩)
                  rw [if_neg fun h => by cases h.1] at hwalk
                  split at hwalk
                  · split at hwalk <;> cases hwalk
                  · next target hlink =>
                      rw [if_neg fun h => by cases h.2] at hwalk
                      exact .inl ⟨target, hlink, hwalk⟩
                  · next held hother hheld =>
                      exact .inr ⟨held, hheld, fun target heq => hother target heq, hwalk⟩
  · cases hwalk
  · cases hwalk

/-- A walk to a directory starts in a directory. -/
theorem start_of_walk {here loc : Loc} {names : List String}
    (hwalk : walk jump tree .followed here names = .ok (.present loc .directory)) :
    tree.get? here = some .directory := by
  cases names with
  | nil =>
      cases hhere : tree.get? here with
      | none => rw [walk_of_missing hhere] at hwalk; cases hwalk
      | some entry =>
          simp only [walk, hhere] at hwalk
          cases hwalk
          rfl
  | cons name rest => exact (walk_cons hwalk).1

theorem walk_append {here : Loc} {names more : List String} {loc : Loc} {entry : Entry}
    {P : Loc → Prop}
    (hend : ∀ mid, walk jump tree .followed mid more = .ok (.present loc entry) → P mid)
    (hjump : ∀ dir target rest, jump dir target (rest ++ more) = .ok (.present loc entry) →
      ∃ mid held, jump' dir target rest = .ok (.present mid held) ∧ P mid)
    (hwalk : walk jump tree .followed here (names ++ more) = .ok (.present loc entry)) :
    ∃ mid held, walk jump' tree .followed here names = .ok (.present mid held) ∧ P mid := by
  induction names generalizing here with
  | nil =>
      cases hhere : tree.get? here with
      | none => rw [List.nil_append, walk_of_missing hhere] at hwalk; cases hwalk
      | some held => exact ⟨here, held, by simp only [walk, hhere], hend here hwalk⟩
  | cons name rest ih =>
      rw [List.cons_append] at hwalk
      obtain ⟨hhere, ⟨hskip, hnext⟩ | ⟨rfl, hnext⟩ | ⟨hname, hshort, hnext⟩⟩ := walk_cons hwalk
      · simpa only [walk, hhere, if_pos hskip] using ih hnext
      · simpa [walk, hhere] using ih hnext
      · have hkept : ¬(name = "" ∨ name = ".") := not_or.mpr hname.1
        obtain ⟨target, hlink, hnext⟩ | ⟨held, hheld, hother, hnext⟩ := hnext
        · simpa [walk, hhere, hkept, hname.2, Nat.not_lt.mpr hshort, hlink] using hjump _ _ _ hnext
        · obtain ⟨mid, entry, hwalk', hmid⟩ := ih hnext
          refine ⟨mid, entry, ?_, hmid⟩
          cases held with
          | link target => exact absurd rfl (hother target)
          | _ => simpa [walk, hhere, hkept, hname.2, Nat.not_lt.mpr hshort, hheld] using hwalk'

/-- What more names lead to is found from where the first ones lead. -/
theorem route_append {links : Nat} {here : Loc} {names more : List String} {loc : Loc}
    {entry : Entry}
    (hroute : route tree .followed links here (names ++ more) = .ok (.present loc entry)) :
    ∃ mid held, route tree .followed links here names = .ok (.present mid held) ∧
      route tree .followed links mid more = .ok (.present loc entry) := by
  induction links generalizing here names with
  | zero => exact walk_append (fun _ hend => hend) (fun _ _ _ hjump => by cases hjump) hroute
  | succ links ih =>
      refine walk_append (fun _ hend => hend) (fun dir target rest hjump => ?_) hroute
      rw [← List.append_assoc] at hjump
      obtain ⟨mid, held, hmid, hmore⟩ := ih hjump
      exact ⟨mid, held, hmid, route_mono (Nat.le_succ links) hmore⟩

/-! ## What a link stands for -/

/-- A link to `target` in `here` stands for the entry at `mid`, as is seen by following
at most so many links. -/
def Stands (tree : Tree) (links : Nat) (here : Loc) (target : String) (mid : Loc) : Prop :=
  ∃ held, route tree .followed links (linkStart here target) (Path.components target) =
    .ok (.present mid held)

theorem Stands.unique {links links' : Nat} {here mid mid' : Loc} {target : String}
    (hstands : Stands tree links here target mid)
    (hstands' : Stands tree links' here target mid') : mid = mid' := by
  obtain ⟨held, hroute⟩ := hstands
  obtain ⟨held', hroute'⟩ := hstands'
  have hmore := route_mono (Nat.le_max_left links links') hroute
  rw [route_mono (Nat.le_max_right links links') hroute'] at hmore
  cases hmore
  rfl

/-- There is a least number of links to follow that shows what a link stands for. -/
theorem Stands.exists_least {links : Nat} {here mid : Loc} {target : String}
    (hstands : Stands tree links here target mid) :
    ∃ least ≤ links, Stands tree least here target mid ∧
      ∀ fewer < least, ∀ other, ¬Stands tree fewer here target other := by
  classical
  have hexists : ∃ least, Stands tree least here target mid := ⟨links, hstands⟩
  refine ⟨Nat.find hexists, Nat.find_min' hexists hstands, Nat.find_spec hexists,
    fun fewer hfewer other hother => Nat.find_min hexists hfewer ?_⟩
  rwa [hstands.unique hother]

/-- The ways in which a route that follows links gets past a name, where a link is opened on the
spot. -/
theorem route_step {links : Nat} {here loc : Loc} {name : String} {rest : List String} {entry : Entry}
    (hroute : route tree .followed links here (name :: rest) = .ok (.present loc entry)) :
    ((name = "" ∨ name = ".") ∧
        route tree .followed links here rest = .ok (.present loc entry)) ∨
      (name = ".." ∧ route tree .followed links here.dropLast rest = .ok (.present loc entry)) ∨
      (Path.Ordinary name ∧ ∃ target fewer, tree.get? (here ++ [name]) = some (.link target) ∧
        fewer < links ∧ route tree .followed fewer (linkStart here target)
          (Path.components target ++ rest) = .ok (.present loc entry)) ∨
      (Path.Ordinary name ∧ ∃ held, tree.get? (here ++ [name]) = some held ∧
        (∀ target, held ≠ .link target) ∧
          route tree .followed links (here ++ [name]) rest = .ok (.present loc entry)) := by
  cases links with
  | zero =>
      obtain ⟨-, hskip | hup | ⟨hname, -, ⟨target, -, hjump⟩ | hdown⟩⟩ := walk_cons hroute
      · exact .inl hskip
      · exact .inr (.inl hup)
      · cases hjump
      · exact .inr (.inr (.inr ⟨hname, hdown⟩))
  | succ links =>
      obtain ⟨-, hskip | hup | ⟨hname, -, ⟨target, hlink, hjump⟩ | hdown⟩⟩ := walk_cons hroute
      · exact .inl hskip
      · exact .inr (.inl hup)
      · exact .inr (.inr (.inl ⟨hname, target, links, hlink, Nat.lt_succ_self _, hjump⟩))
      · exact .inr (.inr (.inr ⟨hname, hdown⟩))

/-- The ways in which a route that follows links gets past a name, where a link is taken for what
it stands for. -/
theorem route_cons {links : Nat} {here loc : Loc} {name : String} {rest : List String} {entry : Entry}
    (hroute : route tree .followed links here (name :: rest) = .ok (.present loc entry)) :
    ((name = "" ∨ name = ".") ∧
        route tree .followed links here rest = .ok (.present loc entry)) ∨
      (name = ".." ∧ route tree .followed links here.dropLast rest = .ok (.present loc entry)) ∨
      (Path.Ordinary name ∧ ∃ target fewer mid, tree.get? (here ++ [name]) = some (.link target) ∧
        fewer < links ∧ Stands tree fewer here target mid ∧
          route tree .followed links mid rest = .ok (.present loc entry)) ∨
      (Path.Ordinary name ∧ ∃ held, tree.get? (here ++ [name]) = some held ∧
        (∀ target, held ≠ .link target) ∧
          route tree .followed links (here ++ [name]) rest = .ok (.present loc entry)) := by
  rcases route_step hroute with hskip | hup | ⟨hname, target, fewer, hlink, hfewer, hjump⟩ | hdown
  · exact .inl hskip
  · exact .inr (.inl hup)
  · obtain ⟨mid, held, hmid, hmore⟩ := route_append hjump
    exact .inr (.inr (.inl ⟨hname, target, fewer, mid, hlink, hfewer, ⟨held, hmid⟩,
      route_mono hfewer.le hmore⟩))
  · exact .inr (.inr (.inr hdown))

theorem eq_of_route_nil {links : Nat} {here loc : Loc} {entry : Entry}
    (hroute : route tree .followed links here [] = .ok (.present loc entry)) : here = loc := by
  obtain ⟨jump, hwalk⟩ := route_eq_walk tree .followed links
  rw [hwalk, walk] at hroute
  split at hroute <;> cases hroute
  rfl

/-- Different links, and what each stands for is not seen by following fewer than
`links` links. -/
structure Pending (tree : Tree) (links : Nat) (opens : List Loc) : Prop where
  distinct : opens.Nodup
  hard : ∀ loc ∈ opens, ∃ here name target, loc = here ++ [name] ∧
    tree.get? loc = some (.link target) ∧ ∀ fewer < links, ∀ mid, ¬Stands tree fewer here target mid

theorem Pending.fewer {links fewer : Nat} {opens : List Loc} (hopens : Pending tree links opens)
    (hfewer : fewer ≤ links) : Pending tree fewer opens where
  distinct := hopens.distinct
  hard loc hloc := by
    obtain ⟨here, name, target, rfl, hlink, hhard⟩ := hopens.hard loc hloc
    exact ⟨here, name, target, rfl, hlink, fun least hleast => hhard least (by omega)⟩

theorem Pending.length_le {links : Nat} {opens : List Loc} (hopens : Pending tree links opens)
    (hrooted : tree.Rooted) : opens.length ≤ tree.links := by
  have hsubset : opens ⊆ (tree.entries.filter fun x => x.2.kind = .link).map Prod.fst := by
    intro loc hloc
    obtain ⟨here, name, target, rfl, hlink, -⟩ := hopens.hard loc hloc
    exact List.mem_map.mpr ⟨_, List.mem_filter.mpr
      ⟨(Tree.mem_entries_iff hrooted).mpr ⟨by simp, hlink⟩, rfl⟩, rfl⟩
  have hlength := (hopens.distinct.subperm hsubset).length_le
  rwa [List.length_map] at hlength

/-- A link that is found to stand for something is not open already. -/
theorem Pending.not_mem {links fewer : Nat} {opens : List Loc} {here mid : Loc} {name target : String}
    (hopens : Pending tree links opens) (hfewer : fewer < links)
    (hlink : tree.get? (here ++ [name]) = some (.link target))
    (hstands : Stands tree fewer here target mid) : here ++ [name] ∉ opens := by
  intro hmem
  obtain ⟨dir, last, target', hloc, hlink', hhard⟩ := hopens.hard _ hmem
  obtain ⟨rfl, -⟩ := List.append_inj' hloc rfl
  cases hlink.symm.trans hlink'
  exact hhard fewer hfewer mid hstands

/-- A link may be opened with as many links to follow as are needed. -/
theorem Pending.cons {links : Nat} {opens : List Loc} {here : Loc} {name target : String}
    (hopens : Pending tree links opens) (hnew : here ++ [name] ∉ opens)
    (hlink : tree.get? (here ++ [name]) = some (.link target))
    (hleast : ∀ fewer < links, ∀ mid, ¬Stands tree fewer here target mid) :
    Pending tree links ((here ++ [name]) :: opens) where
  distinct := List.nodup_cons.mpr ⟨hnew, hopens.distinct⟩
  hard := List.forall_mem_cons.mpr ⟨⟨here, name, target, rfl, hlink, hleast⟩, hopens.hard⟩

/-! ## Canonical forms -/

variable {disk : Disk}

/-- Names that entries can have are kept as they are written. -/
theorem collapse_append {names downs : List String} (hdowns : ∀ name ∈ downs, Path.Ordinary name) :
    collapse (names ++ downs) = collapse names ++ downs := by
  rw [collapse, collapse, List.foldl_append]
  generalize List.foldl _ [] names = kept
  induction downs generalizing kept with
  | nil => exact (List.append_nil kept).symm
  | cons name rest ih =>
      obtain ⟨hname, hrest⟩ := List.forall_mem_cons.mp hdowns
      rw [List.foldl_cons, if_neg hname.2, if_pos hname.1, ih hrest, List.append_assoc]
      rfl

theorem collapse_of_ordinary {loc : Loc} (hloc : ∀ name ∈ loc, Path.Ordinary name) :
    collapse loc = loc :=
  (collapse_append hloc : collapse ([] ++ loc) = collapse [] ++ loc)

/-- Going up takes away one name after the other. -/
theorem collapse_ups {loc : Loc} (hloc : ∀ name ∈ loc, Path.Ordinary name) (ups : Nat) :
    collapse (loc ++ List.replicate ups "..") = loc.take (loc.length - ups) := by
  induction ups with
  | zero => simp [collapse_of_ordinary hloc]
  | succ ups ih =>
      rw [List.replicate_succ', ← List.append_assoc, collapse, List.foldl_append]
      rw [collapse] at ih
      rw [ih, List.foldl_cons, List.foldl_nil, if_pos rfl, List.dropLast_eq_take, List.take_take,
        List.length_take]
      congr 1
      omega

/-- The path of an entry that is no link does not go round in a circle. -/
theorem Sound.stat_locPath_ne_loop (hsound : disk.Sound) {loc : Loc} {entry : Entry}
    (hentry : disk.tree.get? loc = some entry) (hlink : ∀ target, entry ≠ .link target) :
    disk.stat .followed (locPath loc) ≠ .error .loop := by
  by_cases hpath : (locPath loc).Nameable
  · rw [stat, hsound.find_locPath_eq hentry hlink hpath]
    split <;> simp [bind, Except.bind]
  · rw [stat, find_of_not_nameable hpath]
    split <;> simp [bind, Except.bind]

end Disk

end Unscramble
