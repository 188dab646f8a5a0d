import Mathlib
import Unscramble.Proofs.Disk.Thinner

/-!
# Asking about a path

What the answers to questions about a path say about the entry it leads to, and
what the last name of a path leads to in the directory before it.
-/

namespace Unscramble

namespace Disk

variable {disk disk' : Disk} {path : Path}

/-- Following the path fails, if at all, because nothing is there. -/
def Resolvable (disk : Disk) (path : Path) : Prop :=
  ∀ why, disk.find .followed path = .error why → why.isAbsence = true

theorem Thinner.resolvable (hthin : disk'.Thinner disk) (hsound : disk.Sound)
    (hpath : disk.Resolvable path) : disk'.Resolvable path := by
  intro why hwhy
  rcases hthin.find hsound .followed path with (hgone | hbare) | ⟨hremoved, -⟩
  · rw [hwhy] at hgone
    rcases hgone with ⟨_, h⟩ | ⟨_, h, habsent⟩
    · cases h
    · cases h
      exact habsent
  · rw [hwhy] at hbare
    rcases hold : disk.find .followed path with why' | found <;> rw [hold] at hbare
    · cases hbare
      exact hpath why hold
    · cases hbare
  · rw [hwhy] at hremoved
    cases hremoved

theorem find_followed_of_ne_link {result : Except Refusal Found}
    (hfind : disk.find .itself path = result)
    (hlink : ∀ loc text, result ≠ .ok (.present loc (.link text))) :
    disk.find .followed path = result := by
  rcases disk.find_followed path with ⟨loc, text, hpresent⟩ | heq
  · exact absurd (hfind.symm.trans hpresent) (hlink loc text)
  · rw [heq, hfind]

theorem Missing.followed (hmissing : Missing (disk.find .itself path)) :
    Missing (disk.find .followed path) := by
  rw [find_followed_of_ne_link rfl]
  · exact hmissing
  · intro loc text heq
    rw [heq] at hmissing
    exact not_missing_present hmissing

variable {manner : Manner}

theorem ask_of_missing (hmissing : Missing (disk.find manner path)) (question : Entry → Bool) :
    disk.ask manner path question = .ok false := by
  rcases hmissing with ⟨loc, hvacant⟩ | ⟨why, hwhy, habsent⟩
  · simp [ask, stat, hvacant, bind, Except.bind, Refusal.isAbsence]
  · simp [ask, stat, hwhy, bind, Except.bind, habsent]

theorem ask_of_present {loc : Loc} {entry : Entry}
    (hfind : disk.find manner path = .ok (.present loc entry)) (question : Entry → Bool) :
    disk.ask manner path question = .ok (question entry) := by
  simp [ask, stat, hfind, bind, Except.bind]

theorem ask_of_refused {why : Refusal} (hfind : disk.find manner path = .error why)
    (hwhy : why.isAbsence = false) (question : Entry → Bool) :
    disk.ask manner path question = .error why := by
  simp [ask, stat, hfind, bind, Except.bind, hwhy]

/-- A question about a path that can be resolved has an answer. -/
theorem Resolvable.ask (hpath : disk.Resolvable path) (question : Entry → Bool) :
    ∃ answer, disk.ask .followed path question = .ok answer := by
  rcases hfind : disk.find .followed path with why | ⟨loc, entry⟩ | loc | _
  · exact ⟨false, ask_of_missing (.inr ⟨why, hfind, hpath why hfind⟩) question⟩
  · exact ⟨_, ask_of_present hfind question⟩
  · exact ⟨false, ask_of_missing (.inl ⟨loc, hfind⟩) question⟩
  · exact ⟨question .directory, by simp [Disk.ask, stat, hfind, bind, Except.bind]⟩

/-! ## A name in a directory -/

theorem ask_eq_true_iff {question : Entry → Bool} : disk.ask manner path question = .ok true ↔
    (∃ loc entry, disk.find manner path = .ok (.present loc entry) ∧ question entry = true) ∨
      disk.find manner path = .ok .removed ∧ question .directory = true := by
  rcases hfind : disk.find manner path with why | ⟨loc, entry⟩ | loc | _
  · simp only [ask, stat, hfind, bind, Except.bind]
    cases why.isAbsence <;> simp
  · simp [ask, stat, hfind, bind, Except.bind]
  · simp [ask, stat, hfind, bind, Except.bind, Refusal.isAbsence]
  · simp [ask, stat, hfind, bind, Except.bind]

theorem isFile_eq_true_iff : disk.isFile path = .ok true ↔ ∃ loc bytes access,
    disk.find .followed path = .ok (.present loc (.file bytes access)) := by
  rw [isFile, ask_eq_true_iff]
  constructor
  · rintro (⟨loc, entry, hfind, hkind⟩ | ⟨-, hkind⟩)
    · cases entry with
      | file bytes access => exact ⟨loc, bytes, access, hfind⟩
      | directory => cases hkind
      | link target => cases hkind
    · cases hkind
  · rintro ⟨loc, bytes, access, hfind⟩
    exact .inl ⟨loc, _, hfind, rfl⟩

theorem present_of_isFile (hfile : disk.isFile path = .ok true) : disk.present path = .ok true := by
  obtain ⟨loc, bytes, access, hfind⟩ := isFile_eq_true_iff.mp hfile
  exact ask_eq_true_iff.mpr (.inl ⟨loc, _, hfind, rfl⟩)

theorem nameable_of_isFile (hfile : disk.isFile path = .ok true) : path.Nameable := by
  obtain ⟨loc, bytes, access, hfind⟩ := isFile_eq_true_iff.mp hfile
  exact nameable_of_find hfind

theorem nameable_of_list {entries : List (String × Kind)} (hlist : disk.list path = .ok entries) :
    path.Nameable := by
  cases hfind : disk.find .followed path with
  | ok found => exact nameable_of_find hfind
  | error why =>
    rw [list, hfind] at hlist
    cases hlist

/-! ### The last name of a path to a file -/

/-- What is no name of an entry leads to a directory. -/
theorem walk_unnamed_directory {jump : Loc → String → List String → Except Refusal Found}
    {tree : Tree} {here : Loc} {names : List String} {last : String} {found : Found}
    (hclosed : ∀ {loc}, tree.get? loc = some .directory →
      tree.get? loc.dropLast = some .directory)
    (hlast : ¬Path.Ordinary last)
    (hjump : ∀ dir target rest, jump dir target (rest ++ [last]) = .ok found →
      ∃ loc, found = .present loc .directory)
    (hwalk : walk jump tree manner here (names ++ [last]) = .ok found) :
    ∃ loc, found = .present loc .directory := by
  induction names generalizing here with
  | nil =>
      simp only [List.nil_append] at hwalk
      unfold walk at hwalk
      split at hwalk
      · next hhere =>
          by_cases hkept : last = "" ∨ last = "."
          · simp [walk, hhere, if_pos hkept] at hwalk
            exact ⟨_, hwalk.symm⟩
          · have hup : last = ".." := by
              by_contra hup
              exact hlast (ordinary_of hkept hup)
            simp [walk, hup, hclosed hhere] at hwalk
            exact ⟨_, hwalk.symm⟩
      · cases hwalk
      · cases hwalk
  | cons name rest ih =>
      simp only [List.cons_append] at hwalk
      unfold walk at hwalk
      split at hwalk
      · split at hwalk
        · exact ih hwalk
        · split at hwalk
          · exact ih hwalk
          · split at hwalk
            · cases hwalk
            · split at hwalk
              · cases hwalk
              · split at hwalk
                · simp at hwalk
                · rw [if_neg (by simp)] at hwalk
                  exact hjump _ _ _ hwalk
                · exact ih hwalk
      · cases hwalk
      · cases hwalk

theorem route_unnamed_directory {tree : Tree} {links : Nat} {here : Loc} {names : List String}
    {last : String} {found : Found}
    (hclosed : ∀ {loc}, tree.get? loc = some .directory →
      tree.get? loc.dropLast = some .directory)
    (hlast : ¬Path.Ordinary last)
    (hroute : route tree manner links here (names ++ [last]) = .ok found) :
    ∃ loc, found = .present loc .directory := by
  induction links generalizing here names with
  | zero => exact walk_unnamed_directory hclosed hlast (fun _ _ _ h => by cases h) hroute
  | succ links ih =>
      refine walk_unnamed_directory hclosed hlast (fun dir target rest h => ?_) hroute
      rw [← List.append_assoc] at h
      exact ih h

theorem climb_eq_concat {lost : Nat} {names rest : List String} {name : String}
    (hclimb : climb lost (names ++ [name]) = .ok (0, rest)) :
    rest = [] ∨ ∃ init, rest = init ++ [name] := by
  generalize hall : names ++ [name] = all at hclimb
  fun_induction climb lost all generalizing names with
  | case1 all => exact .inr ⟨names, by cases hclimb; exact hall.symm⟩
  | case2 lost => cases hclimb
  | case3 lost other others hother ih =>
      cases names with
      | nil =>
          cases hall
          simp [climb] at hclimb
      | cons first names =>
          cases hall
          exact ih rfl hclimb
  | case4 lost others hother ih =>
      cases names with
      | nil =>
          cases hall
          cases lost <;> simp [climb] at hclimb
          exact .inl hclimb
      | cons first names =>
          cases hall
          exact ih rfl hclimb
  | case5 lost other others hother hup => cases hclimb

/-- A path to anything but a directory ends in the name of an entry. -/
theorem Sound.ordinary_of_find (hsound : disk.Sound) {found : Found}
    (hfind : disk.find manner path = .ok found)
    (hdirectory : ∀ loc, found ≠ .present loc .directory) (hremoved : found ≠ .removed) :
    Path.Ordinary path.name := by
  have hnames (here : Loc) (hhere : disk.tree.get? here = some .directory) :
      route disk.tree manner linkMax here [] ≠ .ok found := by
    intro hroute
    simp only [route, linkMax, walk, hhere] at hroute
    exact hdirectory here (Except.ok.inj hroute).symm
  obtain ⟨anchor, parts⟩ := path
  rw [find_of_nameable (nameable_of_find hfind)] at hfind
  rcases List.eq_nil_or_concat' parts with rfl | ⟨init, last, rfl⟩
  · exfalso
    cases anchor with
    | here =>
        simp only [reach] at hfind
        cases hlost : disk.cwd.lost with
        | zero =>
            rw [hlost] at hfind
            exact hnames _ hsound.working hfind
        | succ lost =>
            rw [hlost] at hfind
            exact hremoved (Except.ok.inj hfind).symm
    | root => exact hnames _ (Tree.get?_nil _) hfind
    | doubleRoot => exact hnames _ (Tree.get?_nil _) hfind
  · rw [Path.name_eq_of_parts_concat rfl]
    by_contra hlast
    have hup {here : Loc} {names : List String} (h : route disk.tree manner linkMax here
        (names ++ [last]) = .ok found) : False := by
      obtain ⟨loc, rfl⟩ := route_unnamed_directory hsound.up_closed hlast h
      exact hdirectory loc rfl
    cases anchor with
    | here =>
        simp only [reach] at hfind
        split at hfind
        · next rest hclimb =>
            rcases climb_eq_concat hclimb with rfl | ⟨init, rfl⟩
            · exact hnames _ hsound.working hfind
            · exact hup hfind
        · exact hremoved (Except.ok.inj hfind).symm
        · cases hfind
    | root => exact hup hfind
    | doubleRoot => exact hup hfind

/-- A path to a file ends in the name of an entry. -/
theorem Sound.ordinary_name (hsound : disk.Sound)
    (hfile : disk.isFile path = .ok true) : Path.Ordinary path.name := by
  obtain ⟨loc, bytes, access, hfind⟩ := isFile_eq_true_iff.mp hfile
  exact hsound.ordinary_of_find hfind nofun nofun

theorem Sound.name_ne_empty (hsound : disk.Sound) (hfile : disk.isFile path = .ok true) :
    path.name ≠ "" :=
  Path.ordinary_ne_empty (hsound.ordinary_name hfile)

section Child

variable {dir : Path} {name : String} {loc : Loc}

theorem lookUp_of_not_directory {tree : Tree} {result : Except Refusal Found}
    (hresult : ∀ loc, result ≠ .ok (.present loc .directory)) :
    ∃ why, lookUp tree name result = .error why := by
  rcases result with why | ⟨loc, entry⟩ | loc | _
  · exact ⟨why, rfl⟩
  · cases entry with
    | directory => exact absurd rfl (hresult loc)
    | file bytes access => exact ⟨_, rfl⟩
    | link target => exact ⟨_, rfl⟩
  · exact ⟨_, rfl⟩
  · exact ⟨_, rfl⟩

/-- A name is looked up in vain where its directory is not reached. -/
theorem find_child_of_not_reached (hname : Path.Ordinary name)
    (hdir : ∀ loc, disk.find .followed dir ≠ .ok (.present loc .directory)) :
    ∃ why, disk.find .itself (dir.child name) = .error why := by
  by_cases hpath : (dir.child name).Nameable
  · rw [find_child hname hpath]
    exact lookUp_of_not_directory hdir
  · exact ⟨_, find_of_not_nameable hpath _⟩

/-- What a name leads to in a directory that is reached. -/
theorem find_child_of_reached (hname : Path.Ordinary name)
    (hshort : name.utf8ByteSize ≤ nameMax) (hpath : (dir.child name).Nameable)
    (hdir : disk.find .followed dir = .ok (.present loc .directory)) :
    disk.find .itself (dir.child name) =
      match disk.tree.get? (loc ++ [name]) with
      | none => .ok (.vacant (loc ++ [name]))
      | some entry => .ok (.present (loc ++ [name]) entry) := by
  rw [find_child hname hpath, hdir]
  cases hheld : disk.tree.get? (loc ++ [name]) <;> simp [lookUp, hheld, Nat.not_lt.mpr hshort]

/-- A path without NUL that can be resolved is short enough to be looked up. -/
theorem Resolvable.child_fits (hpath : disk.Resolvable (dir.child name)) (hname : Path.Ordinary name)
    (hnul : (dir.child name).hasNul = false)
    (hdir : disk.find .followed dir = .ok (.present loc .directory)) :
    (dir.child name).Nameable ∧ name.utf8ByteSize ≤ nameMax := by
  have hpathmax : (dir.child name).Nameable := by
    by_contra hlong
    have hwhy := hpath _ (find_of_not_nameable hlong _)
    rw [hnul] at hwhy
    cases hwhy
  refine ⟨hpathmax, ?_⟩
  by_contra hlong
  have hfind : disk.find .itself (dir.child name) = .error .nameTooLong := by
    rw [find_child hname hpathmax, hdir]
    simp only [lookUp, if_pos (Nat.not_le.mp hlong)]
  cases hpath _ (find_followed_of_ne_link hfind (by simp))

/-- An entry that a name leads to lies in the directory that is reached. -/
theorem reached_of_find_child (hname : Path.Ordinary name) {found : Found}
    (hfind : disk.find .itself (dir.child name) = .ok found) :
    ∃ p, disk.find .followed dir = .ok (.present p .directory) ∧
      name.utf8ByteSize ≤ nameMax ∧
      (found = .vacant (p ++ [name]) ∧ disk.tree.get? (p ++ [name]) = none ∨
        ∃ entry, found = .present (p ++ [name]) entry ∧
          disk.tree.get? (p ++ [name]) = some entry) := by
  have hpath := nameable_of_find hfind
  rw [find_child hname hpath] at hfind
  by_cases hdir : ∀ loc, disk.find .followed dir ≠ .ok (.present loc .directory)
  · obtain ⟨why, hwhy⟩ : ∃ why, lookUp disk.tree name (disk.find .followed dir) = .error why :=
      lookUp_of_not_directory hdir
    rw [hwhy] at hfind
    cases hfind
  · push Not at hdir
    obtain ⟨p, hp⟩ := hdir
    rw [hp] at hfind
    simp only [lookUp] at hfind
    split at hfind
    · cases hfind
    · next hshort =>
        refine ⟨p, hp, Nat.not_lt.mp hshort, ?_⟩
        cases hentry : disk.tree.get? (p ++ [name]) with
        | none =>
            rw [hentry] at hfind
            exact .inl ⟨(Except.ok.inj hfind).symm, rfl⟩
        | some entry =>
            rw [hentry] at hfind
            exact .inr ⟨entry, (Except.ok.inj hfind).symm, rfl⟩

theorem missing_of_find_error {path : Path} {why : Refusal} (hpath : disk.Resolvable path)
    (hfind : disk.find .itself path = .error why) : Missing (disk.find .itself path) := by
  rw [hfind]
  refine .inr ⟨why, rfl, hpath why ?_⟩
  exact find_followed_of_ne_link hfind (by simp)

/-- What a name leads to is an entry, or nothing. -/
theorem Resolvable.present_or_missing (hpath : disk.Resolvable (dir.child name))
    (hname : Path.Ordinary name) :
    (∃ loc entry, disk.find .itself (dir.child name) = .ok (.present loc entry)) ∨
      Missing (disk.find .itself (dir.child name)) := by
  rcases hfind : disk.find .itself (dir.child name) with why | found
  · rw [← hfind]
    exact .inr (missing_of_find_error hpath hfind)
  · obtain ⟨p, -, -, ⟨rfl, -⟩ | ⟨entry, rfl, -⟩⟩ := reached_of_find_child hname hfind
    · exact .inr (missing_vacant _)
    · exact .inl ⟨_, _, rfl⟩

theorem listing_eraseBelow (tree : Tree) (loc : Loc) : (tree.eraseBelow loc).listing loc = [] := by
  rw [Tree.listing, List.filterMap_eq_nil_iff]
  intro x hx
  have hkept := (List.mem_filter.mp hx).2
  have hname : Loc.nameIn? loc x.1 = none := by
    unfold Loc.nameIn?
    split
    · next hpre =>
        have heq : loc = x.1 := by simpa [hpre] using hkept
        simp [← heq]
    · rfl
  rw [hname, Option.map_none]

/-- Nothing is left at a path whose entry has been erased. -/
theorem Sound.missing_eraseWithin (hsound : disk.Sound) (hname : Path.Ordinary name)
    {entry : Entry} (hfind : disk.find .itself (dir.child name) = .ok (.present loc entry)) :
    Missing ((disk.eraseWithin loc).find .itself (dir.child name)) := by
  obtain ⟨p, -, -, ⟨h, -⟩ | ⟨_, h, -⟩⟩ := reached_of_find_child hname hfind
  · cases h
  cases h
  have hthin := disk.thinner_eraseWithin (by simp : p ++ [name] ≠ [])
  rcases hafter : (disk.eraseWithin (p ++ [name])).find .itself (dir.child name)
    with why | ⟨q, held⟩ | q | _
  · rw [← hafter]
    rcases hthin.find hsound .itself (dir.child name) with (hgone | hbare) | ⟨hremoved, -⟩
    · exact hgone
    · rw [hafter, hfind] at hbare
      cases hbare
    · rw [hafter] at hremoved
      cases hremoved
  · obtain ⟨old, hold, -⟩ := hthin.present hsound hafter
    rw [hfind] at hold
    cases hold
    have hfits := find_fits hafter
    rw [Fits, get?_within _ (by simp), if_pos List.prefix_rfl] at hfits
    cases hfits
  · exact missing_vacant q
  · obtain ⟨_, -, -, ⟨h, -⟩ | ⟨_, h, -⟩⟩ := reached_of_find_child hname hafter <;> cases h

end Child

end Disk

end Unscramble
