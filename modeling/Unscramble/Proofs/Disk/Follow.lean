import Mathlib
import Unscramble.Disk.Canonical
import Unscramble.Proofs.Disk.Straight

/-!
# Links that can be followed

Where every link leads to names within the limits of the system, a path fails only
because something is not there or because its links go round in a circle.  The path
of a directory's location leads to that directory, whatever links lie elsewhere.
-/

namespace Unscramble

/-- Each link has a path within the limits of the system, and so have the names in
its target. -/
def Tree.Followable (tree : Tree) : Prop :=
  ∀ loc target, tree.get? loc = some (.link target) → (Disk.locPath loc).Fitting ∧
    ∀ name ∈ Path.components target, name.utf8ByteSize ≤ Disk.nameMax

theorem Tree.Linkless.followable {tree : Tree} (hlinkless : tree.Linkless) : tree.Followable :=
  fun loc target hlink => absurd hlink (hlinkless loc target)

namespace Disk

variable {tree : Tree} {disk : Disk} {path : Path}

/-! ## Why a path fails -/

theorem absence_of_walk {jump : Loc → String → List String → Except Refusal Found} {here : Loc}
    {names : List String} {why : Refusal}
    (hjump : ∀ dir name target rest, tree.get? (dir ++ [name]) = some (.link target) →
      (∀ next ∈ rest, next.utf8ByteSize ≤ nameMax) → jump dir target rest = .error why →
        why.isAbsence = true)
    (hnames : ∀ name ∈ names, name.utf8ByteSize ≤ nameMax)
    (hwalk : walk jump tree .followed here names = .error why) : why.isAbsence = true := by
  induction names generalizing here with
  | nil =>
      simp only [walk] at hwalk
      split at hwalk <;> cases hwalk
      rfl
  | cons name rest ih =>
      obtain ⟨hshort, hrest⟩ := List.forall_mem_cons.mp hnames
      unfold walk at hwalk
      split at hwalk
      · split at hwalk
        · exact ih hrest hwalk
        · split at hwalk
          · exact ih hrest hwalk
          · rw [if_neg (Nat.not_lt.mpr hshort), if_neg (fun h => by cases h.1)] at hwalk
            split at hwalk
            · split at hwalk <;> cases hwalk
              rfl
            · next target hlink =>
                rw [if_neg (fun h => by cases h.2)] at hwalk
                exact hjump _ _ _ _ hlink hrest hwalk
            · exact ih hrest hwalk
      · cases hwalk
        rfl
      · cases hwalk
        rfl

theorem absence_of_route (hfollow : tree.Followable) {links : Nat} {here : Loc}
    {names : List String} {why : Refusal} (hnames : ∀ name ∈ names, name.utf8ByteSize ≤ nameMax)
    (hroute : route tree .followed links here names = .error why) : why.isAbsence = true := by
  induction links generalizing here names with
  | zero =>
      refine absence_of_walk (fun _ _ _ _ _ _ hjump => ?_) hnames hroute
      cases hjump
      rfl
  | succ links ih =>
      refine absence_of_walk (fun dir name target rest hlink hrest hjump => ?_) hnames hroute
      refine ih (fun next hnext => ?_) hjump
      rcases List.mem_append.mp hnext with hnext | hnext
      · exact (hfollow _ _ hlink).2 next hnext
      · exact hrest next hnext

theorem mem_of_climb {lost : Nat} {names rest : List String} {name : String}
    (hclimb : climb lost names = .ok (0, rest)) (hname : name ∈ rest) : name ∈ names := by
  fun_induction climb lost names with
  | case1 names => cases hclimb; exact hname
  | case2 lost => cases hclimb
  | case3 lost next others hempty ih => exact List.mem_cons_of_mem _ (ih hclimb)
  | case4 lost others hempty ih => exact List.mem_cons_of_mem _ (ih hclimb)
  | case5 lost next others hempty hup => cases hclimb

/-- A path within the limits can be resolved where all links can be followed. -/
theorem resolvable_of_followable (hfollow : disk.tree.Followable) (hfits : path.Fitting) :
    disk.Resolvable path := by
  intro why hfind
  rw [find_of_nameable hfits.1] at hfind
  cases hanchor : path.anchor with
  | here =>
      simp only [hanchor, reach] at hfind
      split at hfind
      · next names hclimb =>
          exact absence_of_route hfollow
            (fun name hname => hfits.2 name (mem_of_climb hclimb hname)) hfind
      · cases hfind
      · next hclimb =>
          cases hfind
          rw [climb_error hclimb]
          rfl
  | root =>
      simp only [hanchor, reach] at hfind
      exact absence_of_route hfollow hfits.2 hfind
  | doubleRoot =>
      simp only [hanchor, reach] at hfind
      exact absence_of_route hfollow hfits.2 hfind

/-- On a disk without links a path fails only because something is not there. -/
theorem resolvable_of_linkless (hlinkless : disk.tree.Linkless) (hfits : path.Fitting) :
    disk.Resolvable path :=
  resolvable_of_followable hlinkless.followable hfits

/-! ## The path of a location -/

variable {loc : Loc} {name : String}

theorem locPath_child (loc : Loc) (name : String) :
    (locPath loc).child name = locPath (loc ++ [name]) := rfl

theorem locPath_injective : Function.Injective locPath := fun _ _ heq => congrArg Path.parts heq

/-- The path of an entry that is no link leads to that entry. -/
theorem Sound.find_locPath_eq (hsound : disk.Sound) {entry : Entry}
    (hentry : disk.tree.get? loc = some entry) (hlink : ∀ target, entry ≠ .link target)
    (hpath : (locPath loc).Nameable) (manner : Manner) :
    disk.find manner (locPath loc) =
      if ∀ name ∈ loc, name.utf8ByteSize ≤ nameMax then .ok (.present loc entry)
      else .error .nameTooLong := by
  obtain ⟨jump, hroute⟩ := route_eq_walk disk.tree manner linkMax
  rw [find_of_nameable hpath]
  exact (hroute [] loc).trans
    (hsound.walk_down_eq (hsound.ordinary_of_mem hentry)
      (hentry : disk.tree.get? ([] ++ loc) = some entry) hlink)

theorem Sound.find_locPath (hsound : disk.Sound) {entry : Entry}
    (hentry : disk.tree.get? loc = some entry) (hlink : ∀ target, entry ≠ .link target)
    (hfits : (locPath loc).Fitting) (manner : Manner) :
    disk.find manner (locPath loc) = .ok (.present loc entry) := by
  have hshort : ∀ name ∈ loc, name.utf8ByteSize ≤ nameMax := hfits.2
  rw [hsound.find_locPath_eq hentry hlink hfits.1, if_pos hshort]

/-- A location is all that its path can lead to. -/
theorem Sound.loc_of_find_locPath (hsound : disk.Sound) {manner : Manner} {found : Found}
    {entry : Entry} (hentry : disk.tree.get? loc = some entry)
    (hlink : ∀ target, entry ≠ .link target)
    (hfind : disk.find manner (locPath loc) = .ok found) : found = .present loc entry := by
  rw [hsound.find_locPath_eq hentry hlink (nameable_of_find hfind)] at hfind
  split at hfind <;> cases hfind
  rfl

end Disk

end Unscramble
