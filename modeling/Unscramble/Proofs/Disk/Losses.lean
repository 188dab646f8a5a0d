import Unscramble.Proofs.Disk.Below
import Unscramble.Proofs.Disk.Content
import Unscramble.Proofs.Sweep

/-!
# What a disk loses

Entries are taken away in some places only, and nothing else becomes of the disk but lines in the
log.  Then a path leads where it led before as long as nothing on its way lies in one of these
places, and the file at its end holds what it held.
-/

namespace Unscramble.Disk

variable {lost lost' P Q : Loc → Prop} {disk disk' disk'' : Disk} {path root : Path}
  {loc base start : Loc} {way : List String}

/-! ## Ways -/

/-- On its way the path comes to nothing but what satisfies `P`. -/
def Treads (disk : Disk) (P : Loc → Prop) (path : Path) : Prop :=
  ∃ start, disk.start? path.anchor = some start ∧ Keeps disk.tree P (.origin path start) path.parts

namespace Treads

theorem mono (htreads : disk.Treads P path) (himp : ∀ loc, P loc → Q loc) : disk.Treads Q path := by
  obtain ⟨start, hstart, hkeeps⟩ := htreads
  exact ⟨start, hstart, hkeeps.mono himp⟩

theorem holds (htreads : disk.Treads P path) {entry : Entry}
    (hfind : disk.find .followed path = .ok (.present loc entry)) : P loc := by
  obtain ⟨start, hstart, hkeeps⟩ := htreads
  rw [find_of_start (nameable_of_find hfind) hstart] at hfind
  have hend : ∃ there, Follows disk.tree (.origin path start) path.parts there [] ∧
      there.loc = loc := Follows.of_route hfind
  obtain ⟨there, hfollows, rfl⟩ := hend
  exact hkeeps.place hfollows

end Treads

/-- The path leads to the directory at `loc` and comes to nothing on its way but what satisfies `P`. -/
structure Along (disk : Disk) (P : Loc → Prop) (path : Path) (loc : Loc) : Prop where
  found : disk.find .followed path = .ok (.present loc .directory)
  way : disk.Treads P path

namespace Along

theorem mono (halong : disk.Along P path loc) (himp : ∀ loc, P loc → Q loc) :
    disk.Along Q path loc := ⟨halong.found, halong.way.mono himp⟩

theorem holds (halong : disk.Along P path loc) : P loc := halong.way.holds halong.found

/-- The way goes on to an entry of the directory that is no link. -/
theorem child {name : String} (halong : disk.Along P path loc) (hname : Path.Ordinary name)
    (hheld : ∀ held, disk.tree.get? (loc ++ [name]) = some held → P (loc ++ [name]))
    (hlink : ∀ target, disk.tree.get? (loc ++ [name]) ≠ some (.link target)) :
    disk.Treads P (path.child name) := by
  obtain ⟨start, hstart, hkeeps⟩ := halong.way
  exact ⟨start, hstart, hkeeps.child halong.found hstart hname hheld fun target _ h =>
    absurd h (hlink target)⟩

/-- The way goes on through real directories. -/
theorem below (halong : disk.Along P root base) (hsound : disk.Sound)
    (hfind : disk.find .followed (root.below way) = .ok (.present (base ++ way) .directory))
    (hholds : ∀ front, front <+: way → P (base ++ front)) :
    disk.Along P (root.below way) (base ++ way) := by
  induction way using List.reverseRecOn with
  | nil => simpa using halong
  | append_singleton init last ih =>
    have hheld : disk.tree.get? (base ++ (init ++ [last])) = some .directory := find_fits hfind
    have hname : Path.Ordinary last := hsound.ordinary_of_mem hheld last (by simp)
    have hshort := (hsound.leads_below halong.found hheld hfind).2
    have hlast : P (base ++ (init ++ [last])) := hholds _ List.prefix_rfl
    rw [← Path.child_below] at hfind ⊢
    rw [← List.append_assoc] at hheld hlast hfind ⊢
    have hinit : disk.find .followed (root.below init) = .ok (.present (base ++ init) .directory) := by
      rw [hsound.find_below halong.found (hsound.closed hheld)
        ((nameable_of_find hfind).parent (Path.ordinary_ne_empty hname)),
        if_pos fun name hmem => hshort name (List.mem_append_left _ hmem)]
    have hbefore := ih hinit fun front hfront => hholds front (hfront.trans (List.prefix_append _ _))
    refine ⟨hfind, hbefore.child hname (fun _ _ => hlast) fun target hlink => ?_⟩
    cases hheld.symm.trans hlink

end Along

/-- A way through directories is a way along them. -/
theorem Through.along (hway : disk.Through P path loc) : disk.Along P path loc := by
  obtain ⟨start, hstart, hpasses⟩ := hway.passes
  exact ⟨hway.found, start, hstart, .of_passes hpasses⟩

/-! ## Losses -/

/-- Entries have been taken away where `lost` holds.  Nothing else has become of the disk but lines
in the log. -/
structure Loses (lost : Loc → Prop) (disk disk' : Disk) : Prop where
  sound : disk'.Sound
  thinner : disk'.Thinner disk
  shape : ∀ loc, ¬lost loc → disk'.tree.shape loc = disk.tree.shape loc
  kept : ∀ loc, ¬lost loc → disk.log ≠ some loc → disk'.tree.get? loc = disk.tree.get? loc
  working : ∀ start, ¬lost start → disk.workingLoc? = some start → disk'.workingLoc? = some start
  log : disk'.log = disk.log ∨ disk'.log = none

namespace Loses

theorem refl (hsound : disk.Sound) : Loses lost disk disk where
  sound := hsound
  thinner := .refl disk
  shape _ _ := rfl
  kept _ _ _ := rfl
  working _ _ hstart := hstart
  log := .inl rfl

theorem unlogged (hloses : Loses lost disk disk') (hlog : disk.log ≠ some loc) :
    disk'.log ≠ some loc := by
  rcases hloses.log with heq | hnone
  · rwa [heq]
  · simp [hnone]

theorem trans (hfirst : Loses lost disk disk') (hsecond : Loses lost disk' disk'') :
    Loses lost disk disk'' where
  sound := hsecond.sound
  thinner := hsecond.thinner.trans hfirst.thinner
  shape loc hloc := (hsecond.shape loc hloc).trans (hfirst.shape loc hloc)
  kept loc hloc hlog :=
    (hsecond.kept loc hloc (hfirst.unlogged hlog)).trans (hfirst.kept loc hloc hlog)
  working start hstart hworking := hsecond.working start hstart (hfirst.working start hstart hworking)
  log := by
    rcases hsecond.log with heq | hnone
    · rw [heq]
      exact hfirst.log
    · exact .inr hnone

theorem mono (hloses : Loses lost disk disk') (himp : ∀ loc, lost loc → lost' loc) :
    Loses lost' disk disk' where
  sound := hloses.sound
  thinner := hloses.thinner
  shape loc hloc := hloses.shape loc (mt (himp loc) hloc)
  kept loc hloc := hloses.kept loc (mt (himp loc) hloc)
  working start hstart := hloses.working start (mt (himp start) hstart)
  log := hloses.log

/-! ### What takes entries away -/

theorem noted (hsound : disk.Sound) (lines : List String) :
    Loses lost disk (disk.noted lines) where
  sound := hsound.noted lines
  thinner := .of_shape (disk.shape_noted lines) (disk.noted_places lines).1
  shape loc _ := disk.shape_noted lines loc
  kept _ _ hlog := get?_noted lines hlog
  working start _ hstart := by
    rwa [workingLoc?_eq_some_iff, (disk.noted_places lines).1, ← workingLoc?_eq_some_iff]
  log := .inl (disk.noted_places lines).2.2

theorem of_swept {name : String} {top : Loc} (hswept : Swept top name disk disk') :
    Loses (Covered top name) disk disk' where
  sound := hswept.sound
  thinner := hswept.thinner
  shape := hswept.shape
  kept := hswept.kept
  working _ huncovered hstart := hswept.workingLoc? hstart huncovered
  log := hswept.log

section Erase

variable {zone : List Loc} (hsound : disk.Sound) (hloc : Inside zone loc)

include hsound hloc

theorem eraseWithin (hne : loc ≠ []) : Loses (Inside zone) disk (disk.eraseWithin loc) := by
  have hget (q : Loc) (hq : ¬Inside zone q) :
      (disk.eraseWithin loc).tree.get? q = disk.tree.get? q := by
    rw [get?_within _ hne, if_neg fun hpre => hq (hloc.trans hpre)]
  constructor
  case sound => exact hsound.eraseWithin hne
  case thinner => exact disk.thinner_eraseWithin hne
  case shape => exact fun q hq => by rw [Tree.shape, Tree.shape, hget q hq]
  case kept => exact fun q hq _ => hget q hq
  case working =>
    intro start hstart hworking
    rw [workingLoc?_eq_some_iff] at hworking ⊢
    simp only [Disk.eraseWithin, hworking, Standpoint.within]
    exact if_neg fun hpre => hstart (hloc.trans hpre)
  case log => exact log_filter_cases _ _

theorem eraseBelow (hheld : disk.tree.get? loc = some .directory) :
    Loses (Inside zone) disk (disk.eraseBelow loc) := by
  have hget (q : Loc) (hq : ¬Inside zone q) :
      (disk.eraseBelow loc).tree.get? q = disk.tree.get? q := by
    rw [get?_below, if_neg fun hpre => hq (hloc.trans hpre.1)]
  constructor
  case sound => exact hsound.eraseBelow hheld
  case thinner => exact disk.thinner_eraseBelow loc
  case shape => exact fun q hq => by rw [Tree.shape, Tree.shape, hget q hq]
  case kept => exact fun q hq _ => hget q hq
  case working =>
    intro start hstart hworking
    rw [workingLoc?_eq_some_iff] at hworking ⊢
    simp only [Disk.eraseBelow, hworking, Standpoint.below]
    exact if_neg fun hpre => hstart (hloc.trans hpre)
  case log => exact log_filter_cases _ _

end Erase

/-! ### What is found after it -/

theorem missing (hloses : Loses lost disk disk') (hloc : disk.tree.get? loc = none) :
    disk'.tree.get? loc = none := by
  rcases hloses.thinner.tree loc with hgone | hshape
  · exact hgone
  · simpa [Tree.shape, hloc] using hshape

theorem start? (hloses : Loses lost disk disk') {anchor : Anchor}
    (hstart : disk.start? anchor = some start) (hkept : ¬lost start) :
    disk'.start? anchor = some start := by
  cases anchor with
  | here => exact hloses.working start hkept hstart
  | root => exact hstart
  | doubleRoot => exact hstart

section Kept

variable (hloses : Loses lost disk disk') (htreads : disk.Treads (¬lost ·) path)

include hloses htreads

theorem leadsAlike : disk.LeadsAlike disk' path := by
  obtain ⟨start, hstart, hkeeps⟩ := htreads
  exact .of_keeps (fun _ => hloses.missing) hstart
    (hloses.start? hstart (hkeeps.place (.refl _ _))) (hkeeps.mono hloses.shape)

theorem treads : disk'.Treads (¬lost ·) path := by
  obtain ⟨start, hstart, hkeeps⟩ := htreads
  exact ⟨start, hloses.start? hstart (hkeeps.place (.refl _ _)), hkeeps.thinner hloses.thinner⟩

/-- A file holds the same bytes, unless it is the log. -/
theorem content? {bytes : Bytes} (hlog : disk.Unlogged path)
    (hcontent : disk.content? path = some bytes) : disk'.content? path = some bytes := by
  obtain ⟨place, access, hfind⟩ := content?_eq_some_iff.mp hcontent
  have hsame := hloses.leadsAlike htreads .followed
  rw [hfind] at hsame
  rcases hfound : disk'.find .followed path with why | found
  · rw [hfound] at hsame
    cases hsame
  · rw [hfound] at hsame
    cases found with
    | vacant place' => cases hsame
    | removed => cases hsame
    | present place' entry =>
      obtain rfl : place' = place := (Found.present.inj (Except.ok.inj hsame)).1
      have hheld : disk'.tree.get? place' = some entry := find_fits hfound
      rw [hloses.kept _ (htreads.holds hfind) (hlog _ _ hfind), find_fits hfind] at hheld
      cases hheld
      exact content?_eq_some_iff.mpr ⟨_, _, hfound⟩

end Kept

/-- A way along what is not lost stays open. -/
theorem along (hloses : Loses lost disk disk') (halong : disk.Along (¬lost ·) path loc) :
    disk'.Along (¬lost ·) path loc where
  found := (hloses.leadsAlike halong.way).find_eq_directory_iff.mpr halong.found
  way := hloses.treads halong.way

end Loses

end Unscramble.Disk
