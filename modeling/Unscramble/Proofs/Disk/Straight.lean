import Mathlib
import Unscramble.Proofs.Disk.Query

/-!
# Straight paths on disks without links

A straight path goes up only at its start.  On a disk without links it leads to
the location it spells, and taking away what lies beside the way there does not
cut it off, not even where the working directory itself has been removed.
-/

namespace Unscramble

/-- No entry is a link. -/
def Tree.Linkless (tree : Tree) : Prop := ∀ loc target, tree.get? loc ≠ some (.link target)

namespace Path

/-- The path and all its names are within the limits of the system. -/
def Fitting (path : Path) : Prop :=
  path.Nameable ∧ ∀ name ∈ path.parts, name.utf8ByteSize ≤ Disk.nameMax

instance (path : Path) : Decidable path.Fitting :=
  inferInstanceAs (Decidable (_ ∧ _))

theorem Fitting.parent {path : Path} {name : String} (hpath : (path.child name).Fitting)
    (hname : name ≠ "") : path.Fitting :=
  ⟨hpath.1.parent hname, fun other hother => hpath.2 other (List.mem_append_left _ hother)⟩

/-- The path goes up at its start only. -/
def Straight (path : Path) : Prop :=
  ∃ ups downs, path.parts = List.replicate ups ".." ++ downs ∧ ∀ name ∈ downs, Ordinary name

end Path

namespace Disk

variable {tree : Tree} {manner : Manner}
  {jump : Loc → String → List String → Except Refusal Found}

/-! ## Going down -/

/-- The names on the way to an entry lead there, whatever links lie elsewhere, unless one
is too long. -/
theorem Sound.walk_down_eq {disk : Disk} (hsound : disk.Sound) {base : Loc} {downs : List String}
    {entry : Entry} (hdowns : ∀ name ∈ downs, Path.Ordinary name)
    (hentry : disk.tree.get? (base ++ downs) = some entry)
    (hlink : ∀ target, entry ≠ .link target) :
    walk jump disk.tree manner base downs =
      if ∀ name ∈ downs, name.utf8ByteSize ≤ nameMax then .ok (.present (base ++ downs) entry)
      else .error .nameTooLong := by
  induction downs generalizing base with
  | nil =>
      rw [List.append_nil] at hentry ⊢
      rw [if_pos (by simp)]
      simp only [walk, hentry]
  | cons name rest ih =>
      obtain ⟨hname, hrest⟩ := List.forall_mem_cons.mp hdowns
      have hkept : ¬(name = "" ∨ name = ".") := not_or.mpr hname.1
      have hbase : disk.tree.get? base = some .directory :=
        hsound.directory_of_prefix (List.prefix_append _ _) (by simp) hentry
      have hmaking : ¬(manner = .making ∧ rest ≠ [] ∧ rest.all (· = "") = true) := by
        rintro ⟨-, hne, hall⟩
        obtain ⟨next, others, rfl⟩ := List.exists_cons_of_ne_nil hne
        have hnext := Path.ordinary_ne_empty (hrest next List.mem_cons_self)
        simp [hnext] at hall
      rw [List.append_cons] at hentry ⊢
      rw [walk, hbase]
      simp only [if_neg hkept, if_neg hname.2, if_neg hmaking, List.forall_mem_cons]
      by_cases hshort : name.utf8ByteSize ≤ nameMax
      · have hnext := ih hrest hentry
        simp only [if_neg (Nat.not_lt.mpr hshort), hshort, true_and]
        rw [← hnext]
        by_cases hlast : rest = []
        · subst hlast
          rw [List.append_nil] at hentry
          rw [hentry]
          cases entry with
          | link target => exact absurd rfl (hlink target)
          | directory => rfl
          | file bytes access => rfl
        · have hheld : disk.tree.get? (base ++ [name]) = some .directory :=
            hsound.directory_of_prefix (List.prefix_append _ _) (by simpa using hlast) hentry
          rw [hheld]
      · rw [if_pos (Nat.lt_of_not_le hshort), if_neg fun h => hshort h.1]

/-- Names within the limits lead to the entry on whose way they lie. -/
theorem Sound.walk_down {disk : Disk} (hsound : disk.Sound) {base : Loc} {downs : List String}
    {entry : Entry}
    (hdowns : ∀ name ∈ downs, Path.Ordinary name ∧ name.utf8ByteSize ≤ nameMax)
    (hentry : disk.tree.get? (base ++ downs) = some entry)
    (hlink : ∀ target, entry ≠ .link target) :
    walk jump disk.tree manner base downs = .ok (.present (base ++ downs) entry) := by
  rw [hsound.walk_down_eq (fun name hname => (hdowns name hname).1) hentry hlink,
    if_pos fun name hname => (hdowns name hname).2]

/-- Without links names lead to the location they spell, or nowhere. -/
theorem loc_of_walk_down (hlinkless : tree.Linkless) {base : Loc} {downs : List String}
    {found : Found} (hdowns : ∀ name ∈ downs, Path.Ordinary name)
    (hwalk : walk jump tree manner base downs = .ok found) :
    found = .vacant (base ++ downs) ∨ ∃ entry, found = .present (base ++ downs) entry := by
  induction downs generalizing base with
  | nil =>
      simp only [walk] at hwalk
      split at hwalk <;> cases hwalk
      exact .inr ⟨_, by rw [List.append_nil]⟩
  | cons name rest ih =>
      obtain ⟨hname, hrest⟩ := List.forall_mem_cons.mp hdowns
      have hkept : ¬(name = "" ∨ name = ".") := not_or.mpr hname.1
      rw [List.append_cons]
      unfold walk at hwalk
      split at hwalk
      · rw [if_neg hkept, if_neg hname.2] at hwalk
        split at hwalk
        · cases hwalk
        · split at hwalk
          · cases hwalk
          · split at hwalk
            · split at hwalk <;> cases hwalk
              next hlast => simp [hlast]
            · next target hlink => exact absurd hlink (hlinkless _ _)
            · exact ih hrest hwalk
      · cases hwalk
      · cases hwalk

/-! ## Going up -/

theorem Sound.walk_up {disk : Disk} (hsound : disk.Sound) {here : Loc} {ups : Nat}
    {names : List String} (hhere : disk.tree.get? here = some .directory) :
    walk jump disk.tree manner here (List.replicate ups ".." ++ names) =
      walk jump disk.tree manner (here.take (here.length - ups)) names := by
  induction ups generalizing here with
  | zero => simp
  | succ ups ih =>
      rw [List.replicate_succ, List.cons_append, walk, hhere]
      simp only [String.reduceEq, or_self, if_false, if_true]
      rw [ih (hsound.up_closed hhere), List.length_dropLast, List.dropLast_eq_take,
        List.take_take]
      congr 2
      omega

/-- Going up leaves one removed directory after the other. -/
theorem climb_up {lost ups : Nat} {names : List String} (hups : lost ≤ ups) :
    climb lost (List.replicate ups ".." ++ names) =
      .ok (0, List.replicate (ups - lost) ".." ++ names) := by
  induction lost generalizing ups with
  | zero => rw [climb, Nat.sub_zero]
  | succ lost ih =>
      obtain ⟨ups, rfl⟩ : ∃ more, ups = more + 1 := ⟨ups - 1, by omega⟩
      rw [List.replicate_succ, List.cons_append, climb]
      simp only [String.reduceEq, or_self, if_false, if_true]
      rw [ih (by omega), Nat.add_sub_add_right]

/-- A path that goes down too early does not leave the removed directories. -/
theorem climb_down {lost ups : Nat} {downs rest : List String} (hups : ups < lost)
    (hdowns : ∀ name ∈ downs, Path.Ordinary name) :
    climb lost (List.replicate ups ".." ++ downs) ≠ .ok (0, rest) := by
  induction ups generalizing lost with
  | zero =>
      obtain ⟨lost, rfl⟩ : ∃ more, lost = more + 1 := ⟨lost - 1, by omega⟩
      cases downs with
      | nil => simp [climb]
      | cons name others =>
          have hname := hdowns name List.mem_cons_self
          have hkept : ¬(name = "" ∨ name = ".") := not_or.mpr hname.1
          rw [List.replicate_zero, List.nil_append, climb, if_neg hkept, if_neg hname.2]
          simp
  | succ ups ih =>
      obtain ⟨lost, rfl⟩ : ∃ more, lost = more + 1 := ⟨lost - 1, by omega⟩
      rw [List.replicate_succ, List.cons_append, climb]
      simp only [String.reduceEq, or_self, if_false, if_true]
      exact ih (by omega)

/-! ## Straight paths -/

/-- Where a path that goes up so often starts to go down. -/
def turn (disk : Disk) (ups : Nat) : Anchor → Loc
  | .here => disk.cwd.above.take (disk.cwd.above.length - (ups - disk.cwd.lost))
  | _ => []

variable {disk disk' : Disk} {path : Path} {ups : Nat} {downs : List String}

theorem Sound.find_eq_walk (hsound : disk.Sound) (hpath : path.Nameable)
    (hparts : path.parts = List.replicate ups ".." ++ downs)
    (hlost : path.anchor = .here → disk.cwd.lost ≤ ups) (manner : Manner) :
    ∃ jump, disk.find manner path =
      walk jump disk.tree manner (disk.turn ups path.anchor) downs := by
  obtain ⟨jump, hroute⟩ := route_eq_walk disk.tree manner linkMax
  refine ⟨jump, ?_⟩
  rw [find_of_nameable hpath, hparts]
  cases hanchor : path.anchor with
  | here =>
      simp only [reach, climb_up (hlost hanchor), hroute]
      exact hsound.walk_up hsound.working
  | root =>
      simp only [reach, hroute, hsound.walk_up disk.tree.get?_nil, List.take_nil, turn]
  | doubleRoot =>
      simp only [reach, hroute, hsound.walk_up disk.tree.get?_nil, List.take_nil, turn]

theorem lost_le_of_find (hpath : path.Nameable)
    (hparts : path.parts = List.replicate ups ".." ++ downs)
    (hdowns : ∀ name ∈ downs, Path.Ordinary name) {loc : Loc} {entry : Entry}
    (hfind : disk.find manner path = .ok (.present loc entry)) :
    path.anchor = .here → disk.cwd.lost ≤ ups := by
  intro hanchor
  by_contra hups
  rw [find_of_nameable hpath, hparts, hanchor, reach] at hfind
  split at hfind
  · next names hclimb => exact climb_down (Nat.lt_of_not_le hups) hdowns hclimb
  · cases hfind
  · cases hfind

/-- A straight path that reaches a directory reaches the one it spells. -/
theorem Sound.spells_of_reached (hsound : disk.Sound) (hlinkless : disk.tree.Linkless)
    (hparts : path.parts = List.replicate ups ".." ++ downs)
    (hdowns : ∀ name ∈ downs, Path.Ordinary name) {loc : Loc} {entry : Entry}
    (hfind : disk.find manner path = .ok (.present loc entry)) :
    (path.anchor = .here → disk.cwd.lost ≤ ups) ∧ loc = disk.turn ups path.anchor ++ downs := by
  have hpath := nameable_of_find hfind
  have hlost := lost_le_of_find hpath hparts hdowns hfind
  refine ⟨hlost, ?_⟩
  obtain ⟨jump, hwalk⟩ := hsound.find_eq_walk hpath hparts hlost manner
  rcases loc_of_walk_down hlinkless hdowns (hwalk.symm.trans hfind) with hvacant | ⟨_, hpresent⟩
  · cases hvacant
  · cases hpresent
    rfl

/-- Taking away what lies beside the way of a straight path does not cut it off. -/
theorem Sound.reached_of_thinner (hsound : disk.Sound) (hlinkless : disk.tree.Linkless)
    (hsound' : disk'.Sound) (hthin : disk'.Thinner disk) (hfits : path.Fitting)
    (hstraight : path.Straight) {dir : Loc}
    (hfind : disk.find .followed path = .ok (.present dir .directory))
    (hdir : disk'.tree.get? dir = some .directory)
    (hcwd : disk'.cwd = disk.cwd ∨ dir <+: disk'.cwd.above) :
    disk'.find .followed path = .ok (.present dir .directory) := by
  obtain ⟨ups, downs, hparts, hdowns⟩ := hstraight
  obtain ⟨hlost, hloc⟩ := hsound.spells_of_reached hlinkless hparts hdowns hfind
  have hmem : ∀ name ∈ downs, name ∈ path.parts := fun name hname => by
    rw [hparts]
    exact List.mem_append_right _ hname
  -- the working directory has been raised to no more than where the path turns
  have hturn : (path.anchor = .here → disk'.cwd.lost ≤ ups) ∧
      disk'.turn ups path.anchor = disk.turn ups path.anchor := by
    rcases hcwd with hcwd | hbelow
    · simp only [turn, hcwd]
      exact ⟨hlost, trivial⟩
    · cases hanchor : path.anchor with
      | here =>
          rw [hanchor] at hloc
          obtain ⟨gone, habove, hmore⟩ := hthin.cwd
          have hlength := hbelow.length_le
          have hups := hlost hanchor
          have hdirs := congrArg List.length habove
          simp only [hloc, turn, List.length_append, List.length_take] at hlength hdirs
          refine ⟨fun _ => by omega, ?_⟩
          simp only [turn]
          rw [habove, List.length_append, List.take_append_of_le_length (by omega)]
          congr 1
          omega
      | root => exact ⟨nofun, rfl⟩
      | doubleRoot => exact ⟨nofun, rfl⟩
  obtain ⟨jump, hwalk⟩ := hsound'.find_eq_walk hfits.1 hparts hturn.1 .followed
  rw [hwalk, hturn.2]
  rw [hloc] at hdir ⊢
  exact hsound'.walk_down (fun name hname => ⟨hdowns name hname, hfits.2 name (hmem name hname)⟩)
    hdir nofun

/-- Without links it does not matter whether they are followed. -/
theorem find_followed_of_linkless (hlinkless : disk.tree.Linkless) (path : Path) :
    disk.find .followed path = disk.find .itself path := by
  rcases disk.find_followed path with ⟨loc, target, hfind⟩ | heq
  · exact absurd (find_fits hfind) (hlinkless loc target)
  · exact heq

end Disk

end Unscramble
