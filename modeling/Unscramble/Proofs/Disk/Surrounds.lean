import Unscramble.Proofs.Disk.Without

/-!
# What lies around a zone

A run over a file works at or below a few locations, its zone.  What lies around the
zone is a disk of its own, on which everything inside has been erased.  It stays the
same as long as changes stay inside, apart from lines in the log, and a directory that
it reaches is reached on every disk that it surrounds.
-/

namespace Unscramble

/-- A place stays above whatever is erased next to the way to it. -/
theorem Standpoint.Raised.within {base place : Standpoint} {loc : Loc} (hraised : base.Raised place)
    (hloc : ¬loc <+: base.above) : base.Raised (place.within loc) := by
  obtain ⟨gone, habove, hlost⟩ := hraised
  unfold Standpoint.within
  split
  · next hpre =>
    have hbase : base.above <+: loc :=
      (List.prefix_or_prefix_of_prefix ⟨gone, habove.symm⟩ hpre).resolve_right hloc
    obtain ⟨rest, rfl⟩ := hbase
    have hrest : rest ≠ [] := by
      rintro rfl
      exact hloc (by simp)
    have hlength : (base.above ++ rest).length ≤ place.above.length := hpre.length_le
    have hpositive := List.length_pos_iff.mpr hrest
    refine ⟨rest.dropLast, List.dropLast_append_of_ne_nil hrest, ?_⟩
    simp only [habove, List.length_append, List.length_dropLast] at hlength ⊢
    omega
  · exact ⟨gone, habove, hlost⟩

theorem Standpoint.Raised.below {base place : Standpoint} {loc : Loc} (hraised : base.Raised place)
    (hloc : ¬loc <+: base.above) : base.Raised (place.below loc) := by
  obtain ⟨gone, habove, hlost⟩ := hraised
  unfold Standpoint.below
  split
  · next hpre =>
    have hbase : base.above <+: loc :=
      (List.prefix_or_prefix_of_prefix ⟨gone, habove.symm⟩ hpre).resolve_right hloc
    obtain ⟨rest, rfl⟩ := hbase
    have hlength : (base.above ++ rest).length ≤ place.above.length := hpre.length_le
    refine ⟨rest, rfl, ?_⟩
    simp only [habove, List.length_append] at hlength ⊢
    omega
  · exact ⟨gone, habove, hlost⟩

namespace Disk

/-- At or below one of the locations of a zone. -/
def Inside (zone : List Loc) (loc : Loc) : Prop := ∃ z ∈ zone, z <+: loc

instance (zone : List Loc) (loc : Loc) : Decidable (Inside zone loc) :=
  inferInstanceAs (Decidable (∃ z ∈ zone, z <+: loc))

variable {zone : List Loc} {base disk disk' : Disk} {loc : Loc}

theorem Inside.trans {other : Loc} (hloc : Inside zone loc) (hother : loc <+: other) :
    Inside zone other := by
  obtain ⟨z, hz, hpre⟩ := hloc
  exact ⟨z, hz, hpre.trans hother⟩

/-- The disk consists of `base` and of what lies inside the zone. -/
structure Surrounds (zone : List Loc) (base disk : Disk) : Prop where
  base_sound : base.Sound
  sound : disk.Sound
  /-- Nothing of `base` lies inside the zone. -/
  empty : ∀ loc, Inside zone loc → base.tree.get? loc = none
  shape : ∀ loc, ¬Inside zone loc → disk.tree.shape loc = base.tree.shape loc
  kept : ∀ loc, ¬Inside zone loc → base.log ≠ some loc → disk.tree.get? loc = base.tree.get? loc
  cwd : base.cwd.Raised disk.cwd
  log : ∀ loc, disk.log = some loc → Inside zone loc ∨ base.log = some loc

theorem raised_without (zone : List Loc) (hzone : ∀ loc ∈ zone, loc ≠ []) (disk : Disk) :
    (disk.without zone).cwd.Raised disk.cwd :=
  (disk.thinner_without hzone).cwd

theorem log_without (zone : List Loc) (disk : Disk) :
    (disk.without zone).log = disk.log.filter fun loc => !decide (Inside zone loc) := by
  induction zone generalizing disk with
  | nil => cases hlog : disk.log <;> simp [without, Inside, hlog, Option.filter]
  | cons z rest ih =>
    rw [without_cons, ih]
    cases hlog : disk.log with
    | none => simp [Disk.eraseWithin, hlog]
    | some loc =>
      have hcons : Inside (z :: rest) loc ↔ z <+: loc ∨ Inside rest loc := by simp [Inside]
      by_cases hz : z <+: loc <;> simp [Disk.eraseWithin, hlog, hz, hcons, Option.filter]

theorem get?_without_zone (hzone : ∀ loc ∈ zone, loc ≠ []) (disk : Disk) (loc : Loc) :
    (disk.without zone).tree.get? loc =
      if Inside zone loc then none else disk.tree.get? loc :=
  get?_without disk hzone loc

theorem workingLoc?_without {start : Loc} (hstart : disk.workingLoc? = some start)
    (houtside : ¬Inside zone start) : (disk.without zone).workingLoc? = some start := by
  rw [workingLoc?_eq_some_iff] at hstart ⊢
  rw [without_cwd, hstart]
  clear hstart
  induction zone with
  | nil => rfl
  | cons z rest ih =>
    have hfirst : ¬z <+: start := fun hpre => houtside ⟨z, List.mem_cons_self, hpre⟩
    rw [List.foldl_cons, Standpoint.within, if_neg hfirst]
    exact ih fun ⟨other, hother, hpre⟩ => houtside ⟨other, List.mem_cons_of_mem _ hother, hpre⟩

/-- What is left without the zone surrounds the disk. -/
theorem surrounds_without (hsound : disk.Sound) (hzone : ∀ loc ∈ zone, loc ≠ []) :
    Surrounds zone (disk.without zone) disk where
  base_sound := hsound.without hzone
  sound := hsound
  empty loc hloc := by rw [get?_without_zone hzone, if_pos hloc]
  shape loc hloc := by rw [Tree.shape, Tree.shape, get?_without_zone hzone, if_neg hloc]
  kept loc hloc _ := by rw [get?_without_zone hzone, if_neg hloc]
  cwd := raised_without zone hzone disk
  log loc hlog := by
    by_cases hloc : Inside zone loc
    · exact .inl hloc
    · right
      rw [log_without, hlog]
      simp [hloc]

/-- A disk on which nothing lies inside the zone surrounds itself. -/
theorem surrounds_self (hsound : disk.Sound)
    (hempty : ∀ loc, Inside zone loc → disk.tree.get? loc = none) : Surrounds zone disk disk where
  base_sound := hsound
  sound := hsound
  empty := hempty
  shape _ _ := rfl
  kept _ _ _ := rfl
  cwd := .refl _
  log _ hlog := .inr hlog

namespace Surrounds

theorem thinner (hbase : Surrounds zone base disk) : base.Thinner disk where
  tree loc := by
    by_cases hloc : Inside zone loc
    · exact .inl (hbase.empty loc hloc)
    · exact .inr (hbase.shape loc hloc).symm
  cwd := hbase.cwd

/-- A directory that is reached around the zone is reached on the whole disk. -/
theorem reached (hbase : Surrounds zone base disk) {path : Path} {manner : Manner}
    (hfind : base.find manner path = .ok (.present loc .directory)) :
    disk.find manner path = .ok (.present loc .directory) :=
  hbase.thinner.directory hbase.sound hfind

/-- The place where one works is no way into the zone. -/
theorem not_above (hbase : Surrounds zone base disk) (hloc : Inside zone loc) :
    ¬loc <+: base.cwd.above := by
  intro hpre
  have hgone := hbase.empty _ (hloc.trans hpre)
  rw [hbase.base_sound.working] at hgone
  cases hgone

theorem logged (hbase : Surrounds zone base disk) (line : String) :
    Surrounds zone base (disk.logged line) where
  base_sound := hbase.base_sound
  sound := hbase.sound.logged line
  empty := hbase.empty
  shape loc hloc := (disk.shape_logged line loc).trans (hbase.shape loc hloc)
  kept loc hloc hlog := by
    rw [get?_logged line, hbase.kept loc hloc hlog]
    intro hopen
    rcases hbase.log loc hopen with hinside | hlog'
    · exact hloc hinside
    · exact hlog hlog'
  cwd := by rw [(disk.logged_places line).1]; exact hbase.cwd
  log loc hlog := hbase.log loc (by rwa [(disk.logged_places line).2.2] at hlog)

/-- A change that keeps what lies around the zone, given by what it does to each part of
the disk. -/
theorem of_kept (hbase : Surrounds zone base disk) (hsound : disk'.Sound)
    (hkept : ∀ loc, ¬Inside zone loc → disk'.tree.get? loc = disk.tree.get? loc)
    (hcwd : base.cwd.Raised disk'.cwd)
    (hlog : ∀ loc, disk'.log = some loc → Inside zone loc ∨ disk.log = some loc) :
    Surrounds zone base disk' where
  base_sound := hbase.base_sound
  sound := hsound
  empty := hbase.empty
  shape loc hloc := by
    rw [← hbase.shape loc hloc, Tree.shape, Tree.shape, hkept loc hloc]
  kept loc hloc hopen := (hkept loc hloc).trans (hbase.kept loc hloc hopen)
  cwd := hcwd
  log loc hopen := (hlog loc hopen).elim .inl (hbase.log loc)

theorem log_of_filter {log : Option Loc} {keep : Loc → Bool} (hlog : log.filter keep = some loc) :
    log = some loc := by
  cases log with
  | none => cases hlog
  | some other =>
    rw [Option.filter_some] at hlog
    split at hlog
    · exact hlog
    · cases hlog

theorem eraseWithin (hbase : Surrounds zone base disk) (hloc : Inside zone loc) (hne : loc ≠ []) :
    Surrounds zone base (disk.eraseWithin loc) := by
  refine hbase.of_kept (hbase.sound.eraseWithin hne) (fun q hq => ?_)
    (hbase.cwd.within (hbase.not_above hloc)) fun q hlog => .inr (log_of_filter hlog)
  rw [get?_within _ hne, if_neg fun hpre => hq (hloc.trans hpre)]

theorem eraseBelow (hbase : Surrounds zone base disk) (hloc : Inside zone loc)
    (hheld : disk.tree.get? loc = some .directory) :
    Surrounds zone base (disk.eraseBelow loc) := by
  refine hbase.of_kept (hbase.sound.eraseBelow hheld) (fun q hq => ?_)
    (hbase.cwd.below (hbase.not_above hloc)) fun q hlog => .inr (log_of_filter hlog)
  rw [get?_below, if_neg fun hpre => hq (hloc.trans hpre.1)]

theorem without (hbase : Surrounds zone base disk) {locs : List Loc}
    (hlocs : ∀ loc ∈ locs, loc ≠ [] ∧ Inside zone loc) : Surrounds zone base (disk.without locs) := by
  induction locs generalizing disk with
  | nil => exact hbase
  | cons loc rest ih =>
    obtain ⟨hne, hloc⟩ := hlocs loc List.mem_cons_self
    exact ih (hbase.eraseWithin hloc hne) fun other hother =>
      hlocs other (List.mem_cons_of_mem _ hother)

theorem insert (hbase : Surrounds zone base disk) (hloc : Inside zone loc) (hne : loc ≠ [])
    {entry : Entry} (hsound : (disk.insert loc entry).Sound) :
    Surrounds zone base (disk.insert loc entry) := by
  refine hbase.of_kept hsound (fun q hq => ?_) hbase.cwd fun q hlog => .inr hlog
  rw [get?_insert _ hne, if_neg]
  rintro rfl
  exact hq hloc

/-- An entry that holds nothing is moved inside the zone. -/
theorem move (hbase : Surrounds zone base disk) {a b : Loc} {entry : Entry}
    (ha : disk.tree.get? a = some entry) (hentry : entry ≠ .directory)
    (hb : disk.tree.get? b ≠ some .directory) (hsound : (disk.move a b entry).Sound)
    (hinside : Inside zone a) (hinside' : Inside zone b) :
    Surrounds zone base (disk.move a b entry) := by
  refine hbase.of_kept hsound (fun q hq => ?_) ?_ fun q hlog => ?_
  · rw [hbase.sound.get?_move ha hentry hb, if_neg, if_neg]
    · rintro rfl
      exact hq hinside
    · rintro rfl
      exact hq hinside'
  · rw [hbase.sound.move_eq ha hentry hb]
    exact hbase.cwd
  · rw [hbase.sound.move_eq ha hentry hb] at hlog
    obtain ⟨p, hp, hq⟩ := Option.map_eq_some_iff.mp hlog
    split at hq
    · exact .inl (hq ▸ hinside')
    · exact .inr (hq ▸ log_of_filter hp)

/-- A disk that is the same without some locations of the zone is surrounded by the same. -/
theorem of_without_eq (hbase : Surrounds zone base disk) {locs : List Loc}
    (hlocs : ∀ loc ∈ locs, loc ≠ []) (hinside : ∀ loc ∈ locs, Inside zone loc)
    (hsound : disk'.Sound) (hsame : disk'.without locs = disk.without locs) :
    Surrounds zone base disk' := by
  have hwhole (q : Loc) (hq : Inside locs q) : Inside zone q := by
    obtain ⟨loc, hloc, hpre⟩ := hq
    exact (hinside loc hloc).trans hpre
  refine hbase.of_kept hsound (fun q hq => ?_) ?_ fun q hlog => ?_
  · have hget := congrArg (fun d => d.tree.get? q) hsame
    simpa only [get?_without_zone hlocs, if_neg (mt (hwhole q) hq)] using hget
  · have hraised : base.cwd.Raised (disk.without locs).cwd := by
      rw [without_cwd]
      clear hlocs hsame hwhole
      suffices ∀ place, base.cwd.Raised place →
          base.cwd.Raised (locs.foldl Standpoint.within place) from this _ hbase.cwd
      induction locs with
      | nil => exact fun _ hplace => hplace
      | cons loc rest ih =>
        exact fun place hplace =>
          ih (fun other hother => hinside other (List.mem_cons_of_mem _ hother)) _
            (hplace.within (hbase.not_above (hinside loc List.mem_cons_self)))
    rw [← hsame] at hraised
    exact hraised.trans (raised_without locs hlocs disk')
  · by_cases hq : Inside locs q
    · exact .inl (hwhole q hq)
    · right
      have hlogs := congrArg Disk.log hsame
      rw [log_without, log_without, hlog] at hlogs
      refine log_of_filter (hlogs.symm.trans ?_)
      simp [hq]

end Surrounds

end Disk

end Unscramble
