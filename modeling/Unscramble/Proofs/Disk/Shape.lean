import Mathlib
import Unscramble.Proofs.Disk.Alongside
import Unscramble.Proofs.Independence

/-!
# Disks of one shape

What files hold plays no part in where a path leads.  On disks that differ in the bytes of
their files only, a question about kinds, names and links has the same answer, a refusal has
the same reason, and a path has the same canonical form.
-/

namespace Unscramble

open Disk

namespace Disk

/-- The disks hold the same entries, apart from what their files hold, and are seen from the
same place. -/
structure SameShape (disk disk' : Disk) : Prop where
  tree : ∀ loc, disk'.tree.shape loc = disk.tree.shape loc
  cwd : disk'.cwd = disk.cwd

theorem sameShape_logged (disk : Disk) (line : String) : SameShape disk (disk.logged line) :=
  ⟨disk.shape_logged line, (disk.logged_places line).1⟩

namespace SameShape

variable {disk disk' : Disk} {manner : Manner} {path : Path} (hsame : disk.SameShape disk')

include hsame

theorem missing (loc : Loc) (hloc : disk.tree.get? loc = none) : disk'.tree.get? loc = none := by
  have hshape := hsame.tree loc
  simpa [Tree.shape, hloc] using hshape

theorem trans {disk'' : Disk} (hnext : disk'.SameShape disk'') : disk.SameShape disk'' :=
  ⟨fun loc => (hnext.tree loc).trans (hsame.tree loc), hnext.cwd.trans hsame.cwd⟩

theorem find :
    (disk'.find manner path).map Found.bare = (disk.find manner path).map Found.bare := by
  have hroute {here : Loc} {names : List String} :
      (route disk'.tree manner linkMax here names).map Found.bare =
        (route disk.tree manner linkMax here names).map Found.bare := by
    have hkeeps : Keeps disk.tree (fun loc => disk'.tree.shape loc = disk.tree.shape loc)
        ⟨path, here⟩ names := .of_forall hsame.tree
    exact route_along hsame.missing hkeeps
  unfold Disk.find
  rw [hsame.cwd]
  split
  · rfl
  split
  · rfl
  split
  · split
    · exact hroute
    · rfl
    · rfl
  · exact hroute

theorem leadsAlike (path : Path) : disk.LeadsAlike disk' path := fun _ => hsame.find

theorem stat_eq_link_iff {target : String} :
    disk'.stat manner path = .ok (.link target) ↔ disk.stat manner path = .ok (.link target) :=
  (hsame.leadsAlike path).stat_eq_link_iff

theorem stat_eq_error_iff {why : Refusal} :
    disk'.stat manner path = .error why ↔ disk.stat manner path = .error why :=
  (hsame.leadsAlike path).stat_eq_error_iff

theorem listing (hsound : disk.Sound) (hsound' : disk'.Sound) (loc : Loc) :
    disk'.tree.listing loc = disk.tree.listing loc := by
  have : Std.Antisymm fun left right : String × Kind => left.1 < right.1 :=
    ⟨fun _ _ hlt hgt => absurd hgt (lt_asymm hlt)⟩
  have : Std.Irrefl fun left right : String × Kind => left.1 < right.1 :=
    ⟨fun entry => lt_irrefl entry.1⟩
  refine (disk'.tree.listing_pairwise loc).eq_of_mem_iff (disk.tree.listing_pairwise loc)
    fun entry => ?_
  rw [hsound'.mem_listing_iff, hsound.mem_listing_iff]
  rcases get?_cases (hsame.tree (loc ++ [entry.1])) with
    ⟨hnone', hnone⟩ | ⟨held, held', hheld', hheld, hbare⟩
  · simp [hnone', hnone]
  · simp [hheld', hheld, ← kind_bare held, ← kind_bare held', hbare]

theorem list (hsound : disk.Sound) (hsound' : disk'.Sound) : disk'.list path = disk.list path :=
  (hsame.leadsAlike path).list fun loc _ => hsame.listing hsound hsound' loc

theorem retains : disk.Retains disk' where
  directory loc hloc := by
    rwa [← Tree.shape_eq_directory_iff, hsame.tree loc, Tree.shape_eq_directory_iff]
  link loc target := by
    rw [← Tree.shape_eq_link_iff, hsame.tree loc, Tree.shape_eq_link_iff]
  working start hstart := by
    rwa [workingLoc?, hsame.cwd]

/-! ## Canonical forms -/

theorem unlinkNames {enter enter' : Path → String → Met → Unlinked} (henter : enter' = enter)
    (met : Met) (base : Path) (names : List String) :
    Disk.unlinkNames enter' disk' met base names = Disk.unlinkNames enter disk met base names := by
  subst henter
  induction names generalizing base met with
  | nil => rfl
  | cons name rest ih =>
    unfold Disk.unlinkNames
    split
    · exact ih _ _
    split
    · exact ih _ _
    by_cases hlink : ∃ target, disk.stat .itself (base.child name) = .ok (.link target)
    · obtain ⟨target, hold⟩ := hlink
      simp only [hold, hsame.stat_eq_link_iff.mpr hold, ih]
    · have hlink' (target : String) : disk'.stat .itself (base.child name) ≠ .ok (.link target) :=
        fun hnew => hlink ⟨target, hsame.stat_eq_link_iff.mp hnew⟩
      push Not at hlink
      dsimp only
      split
      · next target hnew => exact absurd hnew (hlink' target)
      · exact ih _ _

theorem unlinkFrom (depth : Nat) :
    Disk.unlinkFrom disk' depth = Disk.unlinkFrom disk depth := by
  induction depth with
  | zero => rfl
  | succ depth ih =>
    funext base target met
    exact hsame.unlinkNames ih _ _ _

theorem canonicalPath (hsound : disk.Sound) (hsound' : disk'.Sound) :
    disk'.canonicalPath path = disk.canonicalPath path := by
  have hworking : disk'.workingLoc? = disk.workingLoc? := by
    rw [workingLoc?, workingLoc?, hsame.cwd]
  have hcanonical : disk'.canonical path = disk.canonical path := by
    unfold Disk.canonical
    simp only [hsame.retains.links_eq hsound hsound', hsame.unlinkFrom, hworking]
    by_cases hnul : path.hasNul = true
    · simp only [if_pos hnul, throw, throwThe, MonadExceptOf.throw, bind, Except.bind]
    simp only [if_neg hnul]
    generalize (Disk.unlinkFrom disk _ _ _ _).path = found
    -- all that is asked of the disk now is whether the result goes round in a circle
    have hloop (result : Path) : disk'.stat .followed result = .error .loop ↔
        disk.stat .followed result = .error .loop := hsame.stat_eq_error_iff
    obtain ⟨anchor, parts⟩ := found
    cases anchor with
    | here =>
      cases disk.workingLoc? with
      | none => simp only [throw, throwThe, MonadExceptOf.throw, bind, Except.bind]
      | some cwd =>
        have := hloop (locPath (collapse (cwd ++ parts)))
        simp only [pure_bind]
        split <;> simp_all
    | root =>
      have := hloop (locPath (collapse parts))
      simp only [pure_bind]
      split <;> simp_all
    | doubleRoot =>
      have := hloop (locPath (collapse parts))
      simp only [pure_bind]
      split <;> simp_all
  rw [Disk.canonicalPath, Disk.canonicalPath, hcanonical]

end SameShape

end Disk

end Unscramble
