import Unscramble.Proofs.Disk.Track
import Unscramble.Proofs.Result
import Unscramble.Scan

/-!
# Two disks along one way

Names that are followed come to directories, and in each of them to the entry of the next name.
Nothing else on a disk matters for what they lead to.  So where another disk lacks some entries,
but none on the way, a path leads to the same place on it, and what is asked about the path has the
same answer.
-/

namespace Unscramble

namespace Disk

/-- All that these names come to satisfies `P`: the directories on the way, and in each of them the
entry of the next name. -/
structure Keeps (tree : Tree) (P : Loc → Prop) (here : Track) (names : List String) : Prop where
  place : ∀ {there rest}, Follows tree here names there rest → P there.loc
  entry : ∀ {there name rest held}, Follows tree here names there (name :: rest) →
    Path.Ordinary name → tree.get? (there.loc ++ [name]) = some held → P (there.loc ++ [name])

namespace Keeps

variable {tree : Tree} {P Q : Loc → Prop} {here there : Track} {names more rest : List String}

theorem of_forall (hall : ∀ loc, P loc) : Keeps tree P here names := ⟨fun _ => hall _, fun _ _ _ => hall _⟩

theorem mono (himp : ∀ loc, P loc → Q loc) (hkeeps : Keeps tree P here names) :
    Keeps tree Q here names :=
  ⟨fun hfollows => himp _ (hkeeps.place hfollows),
    fun hfollows hname hheld => himp _ (hkeeps.entry hfollows hname hheld)⟩

theorem along (hkeeps : Keeps tree P here names) (hfollows : Follows tree here names there rest) :
    Keeps tree P there rest :=
  ⟨fun hmore => hkeeps.place (hfollows.trans hmore), fun hmore => hkeeps.entry (hfollows.trans hmore)⟩

theorem append (hkeeps : Keeps tree P here names)
    (hmore : ∀ mid, Follows tree here names mid [] → Keeps tree P mid more) :
    Keeps tree P here (names ++ more) where
  place hfollows := by
    rcases hfollows.of_append with ⟨front, -, hfront⟩ | ⟨mid, hmid, hrest⟩
    · exact hkeeps.place hfront
    · exact (hmore mid hmid).place hrest
  entry hfollows hname hheld := by
    rcases hfollows.of_append with ⟨front, hnames, hfront⟩ | ⟨mid, hmid, hrest⟩
    · cases front with
      | nil =>
        obtain rfl : _ :: _ = more := hnames
        exact (hmore _ hfront).entry (.refl _ _) hname hheld
      | cons next front =>
        cases hnames
        exact hkeeps.entry hfront hname hheld
    · exact (hmore mid hmid).entry hrest hname hheld

/-- On the way of one name there are the directory, the entry of the name, and what comes next if
that is a link. -/
theorem single {name : String} (hname : Path.Ordinary name) (hhere : P here.loc)
    (hheld : ∀ held, tree.get? (here.loc ++ [name]) = some held → P (here.loc ++ [name]))
    (hjump : ∀ target, tree.get? (here.loc ++ [name]) = some (.link target) →
      Keeps tree P (here.jump target) (Path.components target)) : Keeps tree P here [name] where
  place hfollows := by
    cases hfollows with
    | refl => exact hhere
    | skip hskip _ => exact absurd hskip (not_or.mpr hname.1)
    | up _ => exact absurd rfl hname.2
    | down _ hdown _ hrest =>
      cases hrest
      exact hheld _ hdown
    | jump _ hlink hrest =>
      rw [List.append_nil] at hrest
      exact (hjump _ hlink).place hrest
  entry hfollows hnext hentry := by
    cases hfollows with
    | refl => exact hheld _ hentry
    | skip hskip _ => exact absurd hskip (not_or.mpr hname.1)
    | up _ => exact absurd rfl hname.2
    | down _ _ _ hrest => cases hrest
    | jump _ hlink hrest =>
      rw [List.append_nil] at hrest
      exact (hjump _ hlink).entry hrest hnext hentry

/-- On a way from directory to directory there is nothing else. -/
theorem of_passes {goal : Loc} (hpasses : tree.Passes P here.loc names goal) :
    Keeps tree P here names := by
  generalize hstart : here.loc = start at hpasses
  induction hpasses generalizing here with
  | arrive hhere hholds =>
    subst hstart
    refine ⟨fun hfollows => ?_, fun hfollows => ?_⟩
    · cases hfollows
      exact hholds
    · cases hfollows
  | up hhere hholds _ ih =>
    subst hstart
    refine ⟨fun hfollows => ?_, fun hfollows hname hheld => ?_⟩
    · cases hfollows with
      | refl => exact hholds
      | skip hskip _ => simp at hskip
      | up hrest => exact (@ih here.up rfl).place hrest
      | down hname _ _ _ => exact absurd rfl hname.2
      | jump hname _ _ => exact absurd rfl hname.2
    · cases hfollows with
      | refl => exact absurd rfl hname.2
      | skip hskip _ => simp at hskip
      | up hrest => exact (@ih here.up rfl).entry hrest hname hheld
      | down hname _ _ _ => exact absurd rfl hname.2
      | jump hname _ _ => exact absurd rfl hname.2
  | @down _ _ name names hhere hholds hname hshort hrest ih =>
    subst hstart
    have hfirst : Keeps tree P here [name] := by
      refine .single hname hholds (fun _ _ => hrest.start_directory.2) fun target hlink => ?_
      cases hlink.symm.trans hrest.start_directory.1
    refine hfirst.append fun mid hmid => ?_
    cases hmid with
    | skip hskip _ => exact absurd hskip (not_or.mpr hname.1)
    | up _ => exact absurd rfl hname.2
    | down _ _ _ hend =>
      cases hend
      exact @ih (here.down name) rfl
    | jump _ hlink _ => cases hlink.symm.trans hrest.start_directory.1

/-- On the way to an entry of a directory there are what is on the way to the directory, the entry,
and what comes next if that is a link. -/
theorem child {disk : Disk} {path : Path} {start loc : Loc} {next : String}
    (hkeeps : Keeps disk.tree P (.origin path start) path.parts)
    (hfind : disk.find .followed path = .ok (.present loc .directory))
    (hstart : disk.start? path.anchor = some start) (hnext : Path.Ordinary next)
    (hheld : ∀ held, disk.tree.get? (loc ++ [next]) = some held → P (loc ++ [next]))
    (hjump : ∀ target (mid : Track), disk.tree.get? (loc ++ [next]) = some (.link target) →
      mid.loc = loc → Keeps disk.tree P (mid.jump target) (Path.components target)) :
    Keeps disk.tree P (.origin (path.child next) start) (path.child next).parts := by
  rw [find_of_start (nameable_of_find hfind) hstart] at hfind
  refine hkeeps.append fun mid hmid => ?_
  obtain ⟨fewer, hend⟩ := hmid.route hfind
  obtain rfl : mid.loc = loc := eq_of_route_nil hend
  exact .single hnext (hkeeps.place hmid) hheld fun target hlink => hjump target mid hlink rfl

end Keeps

/-! ## On a thinner disk -/

section Thinner

variable {disk disk' : Disk} {here there : Track} {names rest : List String}

theorem Follows.thinner (hthin : disk'.Thinner disk)
    (hfollows : Follows disk'.tree here names there rest) :
    Follows disk.tree here names there rest := by
  induction hfollows with
  | refl => exact .refl _ _
  | skip hskip _ ih => exact .skip hskip ih
  | up _ ih => exact .up ih
  | down hname hheld hother _ ih =>
    obtain ⟨held, hheld', hbare⟩ := hthin.held hheld
    refine .down hname hheld' ?_ ih
    rintro target rfl
    exact hother target (Entry.bare_eq_link.mp hbare.symm)
  | jump hname hlink _ ih => exact .jump hname (hthin.held_link hlink) ih

theorem Searchable.thinner {path : Path} (hsearch : disk.Searchable path) (hthin : disk'.Thinner disk)
    (hstart : ∀ start, disk'.start? path.anchor = some start →
      disk.start? path.anchor = some start) : disk'.Searchable path := by
  intro start hstart' there part rest target hfollows hlink
  exact hsearch start (hstart start hstart') there part rest target (hfollows.thinner hthin)
    (hthin.held_link hlink)

/-- A file that is still found has the canonical form that it had. -/
theorem Sound.canonicalPath_thinner {path : Path} {start place : Loc} {bytes : Bytes} {access : Access}
    (hsound : disk.Sound) (hsound' : disk'.Sound) (hthin : disk'.Thinner disk)
    (hstart : disk.start? path.anchor = some start) (hstart' : disk'.start? path.anchor = some start)
    (hread : ∀ part ∈ path.parts, part ≠ "" ∧ '/' ∉ part.toList) (hsearch : disk.Searchable path)
    (hfind : disk'.find .followed path = .ok (.present place (.file bytes access))) :
    disk'.canonicalPath path = disk.canonicalPath path := by
  obtain ⟨entry, hfind', hbare⟩ := hthin.present hsound hfind
  have hother (target : String) : entry ≠ .link target := by
    rintro rfl
    cases hbare
  have hsearch' := hsearch.thinner hthin fun _ h => hstart.trans (hstart'.symm.trans h)
  rw [hsound.canonicalPath_of_found hstart (fun _ part hpart => (hread part hpart).1)
      (fun part hpart => (hread part hpart).2) hsearch hfind' hother,
    hsound'.canonicalPath_of_found hstart' (fun _ part hpart => (hread part hpart).1)
      (fun part hpart => (hread part hpart).2) hsearch' hfind (by simp)]

/-- On a thinner disk nothing new is on the way. -/
theorem Keeps.thinner {P : Loc → Prop} (hkeeps : Keeps disk.tree P here names)
    (hthin : disk'.Thinner disk) : Keeps disk'.tree P here names where
  place hfollows := hkeeps.place (hfollows.thinner hthin)
  entry hfollows hname hheld := by
    obtain ⟨held, hheld', -⟩ := hthin.held hheld
    exact hkeeps.entry (hfollows.thinner hthin) hname hheld'

end Thinner

/-! ## Following names -/

section Walk

variable {tree tree' : Tree} {manner : Manner}
  (hmissing : ∀ loc, tree.get? loc = none → tree'.get? loc = none)

include hmissing

theorem walk_along {jump jump' : Loc → String → List String → Except Refusal Found} {here : Track}
    {names : List String}
    (hkeeps : Keeps tree (fun loc => tree'.shape loc = tree.shape loc) here names)
    (hjump : ∀ (there : Track) target rest,
      Keeps tree (fun loc => tree'.shape loc = tree.shape loc) (there.jump target)
          (Path.components target ++ rest) →
        (jump' there.loc target rest).map Found.bare = (jump there.loc target rest).map Found.bare) :
    (walk jump' tree' manner here.loc names).map Found.bare =
      (walk jump tree manner here.loc names).map Found.bare := by
  induction names generalizing here with
  | nil =>
    rcases get?_cases (hkeeps.place (.refl _ _)) with
      ⟨hnone', hnone⟩ | ⟨entry, entry', hheld', hheld, hbare⟩
    · simp only [walk, hnone, hnone']
    · simp only [walk, hheld, hheld', Except.map, Found.bare, hbare]
  | cons name rest ih =>
    rcases get?_cases (hkeeps.place (.refl _ _)) with
      ⟨hnone', hnone⟩ | ⟨entry, entry', hheld', hheld, hbare⟩
    · simp only [walk, hnone, hnone']
    rcases Entry.bare_cases hbare with
      ⟨rfl, rfl⟩ | ⟨target, rfl, rfl⟩ | ⟨bytes, access, bytes', access', rfl, rfl⟩
    · simp only [walk, hheld, hheld']
      split
      · next hskip => exact ih (hkeeps.along (.skip hskip (.refl _ _)))
      next hkept =>
      split
      · next hup =>
        subst hup
        exact ih (hkeeps.along (.up (.refl _ _)))
      next hup =>
      have hname : Path.Ordinary name := ordinary_of hkept hup
      split
      · rfl
      split
      · rfl
      cases hnext : tree.get? (here.loc ++ [name]) with
      | none => simp only [hmissing _ hnext]
      | some next =>
        obtain ⟨next', hnext', hbare⟩ := get?_of_shape (hkeeps.entry (.refl _ _) hname hnext) hnext
        rcases Entry.bare_cases hbare with
          ⟨rfl, rfl⟩ | ⟨target, rfl, rfl⟩ | ⟨bytes, access, bytes', access', rfl, rfl⟩
        · simp only [hnext']
          exact ih (hkeeps.along (.down hname hnext (by simp) (.refl _ _)))
        · simp only [hnext']
          split
          · rfl
          · exact hjump _ _ _ (hkeeps.along (.jump hname hnext (.refl _ _)))
        · simp only [hnext']
          exact ih (hkeeps.along (.down hname hnext (by simp) (.refl _ _)))
    · simp only [walk, hheld, hheld']
    · simp only [walk, hheld, hheld']

/-- Names lead to the same place where all that they come to has stayed. -/
theorem route_along {links : Nat} {here : Track} {names : List String}
    (hkeeps : Keeps tree (fun loc => tree'.shape loc = tree.shape loc) here names) :
    (route tree' manner links here.loc names).map Found.bare =
      (route tree manner links here.loc names).map Found.bare := by
  induction links generalizing here names with
  | zero => exact walk_along hmissing hkeeps fun _ _ _ _ => rfl
  | succ links ih =>
    refine walk_along hmissing hkeeps fun there target rest hrest => ?_
    rw [← there.loc_jump]
    exact ih hrest

end Walk

/-! ## Asking about a path -/

/-- On both disks the path leads to the same place, if anywhere; what is there may differ in the
bytes of a file. -/
def LeadsAlike (disk disk' : Disk) (path : Path) : Prop :=
  ∀ manner, (disk'.find manner path).map Found.bare = (disk.find manner path).map Found.bare

namespace LeadsAlike

variable {disk disk' : Disk} {manner : Manner} {path : Path}

theorem of_keeps {start : Loc} (hmissing : ∀ loc, disk.tree.get? loc = none → disk'.tree.get? loc = none)
    (hstart : disk.start? path.anchor = some start) (hstart' : disk'.start? path.anchor = some start)
    (hkeeps : Keeps disk.tree (fun loc => disk'.tree.shape loc = disk.tree.shape loc)
      (.origin path start) path.parts) : disk.LeadsAlike disk' path := by
  intro manner
  by_cases hpath : path.Nameable
  · rw [find_of_start hpath hstart, find_of_start hpath hstart']
    exact route_along hmissing hkeeps
  · rw [find_of_not_nameable hpath, find_of_not_nameable hpath]

variable (halike : disk.LeadsAlike disk' path)

include halike

theorem find_eq_directory_iff {loc : Loc} :
    disk'.find manner path = .ok (.present loc .directory) ↔
      disk.find manner path = .ok (.present loc .directory) := by
  have hdirectory (disk : Disk) : disk.find manner path = .ok (.present loc .directory) ↔
      (disk.find manner path).map Found.bare = .ok (.present loc .directory) := by
    rcases disk.find manner path with why | found
    · simp [Except.map]
    · cases found <;> simp [Except.map, Found.bare]
  rw [hdirectory, hdirectory, halike]

theorem stat :
    (disk'.stat manner path).map Entry.bare = (disk.stat manner path).map Entry.bare := by
  unfold Disk.stat
  rcases Except.cases_of_map_eq (halike manner) with
    ⟨why, hwhy', hwhy⟩ | ⟨found', found, hfound', hfound, hbare⟩
  · rw [hwhy', hwhy]
  · rw [hfound', hfound]
    rcases Found.bare_cases hbare with
      ⟨loc, entry, entry', rfl, rfl, hentry⟩ | ⟨loc, rfl, rfl⟩ | ⟨rfl, rfl⟩
    · exact congrArg Except.ok hentry
    · rfl
    · rfl

theorem stat_eq_link_iff {target : String} :
    disk'.stat manner path = .ok (.link target) ↔ disk.stat manner path = .ok (.link target) := by
  have hlink (disk : Disk) : disk.stat manner path = .ok (.link target) ↔
      (disk.stat manner path).map Entry.bare = .ok (.link target) := by
    rcases disk.stat manner path with why | entry
    · simp [Except.map]
    · simp [Except.map]
  rw [hlink, hlink, halike.stat]

theorem stat_eq_error_iff {why : Refusal} :
    disk'.stat manner path = .error why ↔ disk.stat manner path = .error why := by
  have herror (disk : Disk) : disk.stat manner path = .error why ↔
      (disk.stat manner path).map Entry.bare = .error why := by
    rcases disk.stat manner path with why | entry <;> simp [Except.map]
  rw [herror, herror, halike.stat]

/-- A directory is listed alike where it has the same entries. -/
theorem list (hlisting : ∀ loc, disk.find .followed path = .ok (.present loc .directory) →
      disk'.tree.listing loc = disk.tree.listing loc) : disk'.list path = disk.list path := by
  unfold Disk.list
  rcases Except.cases_of_map_eq (halike .followed) with
    ⟨why, hwhy', hwhy⟩ | ⟨found', found, hfound', hfound, hbare⟩
  · rw [hwhy', hwhy]
    rfl
  rw [hfound', hfound]
  rcases Found.bare_cases hbare with
    ⟨loc, entry, entry', rfl, rfl, hentry⟩ | ⟨loc, rfl, rfl⟩ | ⟨rfl, rfl⟩
  · rcases Entry.bare_cases hentry with
      ⟨rfl, rfl⟩ | ⟨target, rfl, rfl⟩ | ⟨bytes, access, bytes', access', rfl, rfl⟩
    · exact congrArg Except.ok (hlisting loc hfound)
    · rfl
    · rfl
  · rfl
  · rfl

/-- A question about the kind of an entry has the same answer. -/
theorem ask_kind (kind : Kind) : disk'.ask manner path (·.kind = kind) =
    disk.ask manner path (·.kind = kind) := by
  unfold Disk.ask
  have hstat : (disk'.stat manner path).map Entry.bare = (disk.stat manner path).map Entry.bare :=
    halike.stat
  rcases Except.cases_of_map_eq hstat with
    ⟨why, hwhy', hwhy⟩ | ⟨entry', entry, hentry', hentry, hbare⟩
  · rw [hwhy', hwhy]
  · rw [hentry', hentry]
    dsimp only
    rw [← kind_bare entry', hbare, kind_bare]

/-- A path that leads to a file is that of a script on both disks, if it has the same canonical
form. -/
theorem isScript {rules : Scan.Rules}
    (hcanonical : Text.lowerString path.suffix ∈ rules.extensions → disk.isFile path = .ok true →
      disk'.canonicalPath path = disk.canonicalPath path) :
    Scan.isScript rules path disk' = Scan.isScript rules path disk := by
  have hfile : disk'.query Disk.isFile path = disk.query Disk.isFile path := by
    rw [query, query, isFile, isFile, halike.ask_kind]
  unfold Scan.isScript
  split
  · rfl
  next hsuffix =>
  rw [hfile, query]
  rcases hanswer : disk.isFile path with why | _ | _
  · simp only [bind, Except.bind]
  · simp only [bind, Except.bind, Bool.false_eq_true, if_false]
  · rw [hcanonical (not_not.mp hsuffix) hanswer]

end LeadsAlike

/-- Whether an entry of a directory leads to a directory itself is answered alike. -/
theorem LeadsAlike.leadsToDirectory {disk disk' : Disk} {dir : Path} {entry : String × Kind}
    (halike : disk.LeadsAlike disk' (dir.child entry.1)) :
    Scan.leadsToDirectory dir entry disk' = Scan.leadsToDirectory dir entry disk := by
  unfold Scan.leadsToDirectory
  cases entry.2 with
  | directory => rfl
  | file => rfl
  | link =>
    have hstat : (disk'.stat .followed (dir.child entry.1)).map Entry.bare =
        (disk.stat .followed (dir.child entry.1)).map Entry.bare := halike.stat
    rcases Except.cases_of_map_eq hstat with
      ⟨why, hwhy', hwhy⟩ | ⟨held', held, hheld', hheld, hbare⟩
    · rw [hwhy', hwhy]
    · have hkind : held'.kind = held.kind := by rw [← kind_bare held', hbare, kind_bare]
      simp only [hheld', hheld, hkind]

end Disk

end Unscramble
