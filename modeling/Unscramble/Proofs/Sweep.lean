import Mathlib
import Unscramble.Proofs.Disk.Follow
import Unscramble.Proofs.Disk.Without
import Unscramble.Proofs.Removal
import Unscramble.Sweep

/-!
# What a sweep takes away

A sweep goes down from its root through real directories and erases what carries
the name of a staging directory.  Nothing else on the disk changes, apart from
the lines in the log.
-/

namespace Unscramble

variable {σ : Type}

namespace Disk

/-- The location lies at or below an entry called `name` inside `root`. -/
def Covered (root : Loc) (name : String) (loc : Loc) : Prop :=
  root <+: loc ∧ name ∈ loc.drop root.length

instance (root : Loc) (name : String) (loc : Loc) : Decidable (Covered root name loc) :=
  inferInstanceAs (Decidable (_ ∧ _))

/-- What a sweep for `name` below `root` leaves. -/
structure Swept (root : Loc) (name : String) (disk disk' : Disk) : Prop where
  sound : disk'.Sound
  thinner : disk'.Thinner disk
  cwd : disk'.cwd.above = disk.cwd.above ∨ root <+: disk'.cwd.above
  cwd_kept : ¬Covered root name disk.cwd.above → disk'.cwd = disk.cwd
  log : disk'.log = disk.log ∨ disk'.log = none
  shape : ∀ loc, ¬Covered root name loc → disk'.tree.shape loc = disk.tree.shape loc
  kept : ∀ loc, ¬Covered root name loc → disk.log ≠ some loc →
    disk'.tree.get? loc = disk.tree.get? loc
  pruned : ∀ loc, disk.log ≠ some loc →
    disk'.tree.get? loc = disk.tree.get? loc ∨ disk'.tree.get? loc = none

variable {disk disk' disk'' : Disk} {root : Loc} {name : String}

theorem Swept.refl (hsound : disk.Sound) : Swept root name disk disk :=
  ⟨hsound, .refl _, .inl rfl, fun _ => rfl, .inl rfl, fun _ _ => rfl, fun _ _ _ => rfl,
    fun _ _ => .inl rfl⟩

/-- The log of a disk that has been swept is no other. -/
theorem Swept.unlogged (hswept : Swept root name disk disk') {loc : Loc}
    (hlog : disk.log ≠ some loc) : disk'.log ≠ some loc := by
  rcases hswept.log with heq | hnone
  · rwa [heq]
  · simp [hnone]

/-- A working directory that a sweep does not cover stays. -/
theorem Swept.workingLoc? (hswept : Swept root name disk disk') {start : Loc}
    (hstart : disk.workingLoc? = some start) (huncovered : ¬Covered root name start) :
    disk'.workingLoc? = some start := by
  rw [workingLoc?_eq_some_iff] at hstart ⊢
  rw [hswept.cwd_kept (by rwa [hstart]), hstart]

theorem Swept.trans (hfirst : Swept root name disk disk')
    (hsecond : Swept root name disk' disk'') : Swept root name disk disk'' where
  sound := hsecond.sound
  thinner := hsecond.thinner.trans hfirst.thinner
  cwd := by
    rcases hsecond.cwd with heq | hpre
    · rw [heq]
      exact hfirst.cwd
    · exact .inr hpre
  cwd_kept huncovered := by
    have heq := hfirst.cwd_kept huncovered
    rw [← heq] at huncovered ⊢
    exact hsecond.cwd_kept huncovered
  log := by
    rcases hsecond.log with heq | hnone
    · rw [heq]
      exact hfirst.log
    · exact .inr hnone
  shape loc hloc := (hsecond.shape loc hloc).trans (hfirst.shape loc hloc)
  kept loc hloc hlog :=
    (hsecond.kept loc hloc (hfirst.unlogged hlog)).trans (hfirst.kept loc hloc hlog)
  pruned loc hlog := by
    rcases hsecond.pruned loc (hfirst.unlogged hlog) with heq | hgone
    · rw [heq]
      exact hfirst.pruned loc hlog
    · exact .inr hgone

theorem swept_logged (hsound : disk.Sound) (line : String) :
    Swept root name disk (disk.logged line) where
  sound := hsound.logged line
  thinner := disk.thinner_logged line
  cwd := .inl (by rw [(disk.logged_places line).1])
  cwd_kept _ := (disk.logged_places line).1
  log := .inl (disk.logged_places line).2.2
  shape loc _ := disk.shape_logged line loc
  kept _ _ hlog := get?_logged line hlog
  pruned _ hlog := .inl (get?_logged line hlog)

theorem covered_of_below {dir loc : Loc} (hdir : root <+: dir) (hloc : dir ++ [name] <+: loc) :
    Covered root name loc := by
  obtain ⟨middle, rfl⟩ := hdir
  obtain ⟨rest, rfl⟩ := hloc
  refine ⟨?_, ?_⟩
  · rw [List.append_assoc, List.append_assoc]
    exact List.prefix_append _ _
  · rw [List.append_assoc, List.append_assoc, List.drop_left]
    simp

theorem log_filter_cases (log : Option Loc) (keep : Loc → Bool) :
    log.filter keep = log ∨ log.filter keep = none := by
  cases log with
  | none => exact .inl rfl
  | some loc => cases hkeep : keep loc <;> simp [Option.filter, hkeep]

theorem swept_eraseWithin (hsound : disk.Sound) {dir : Loc} (hdir : root <+: dir) :
    Swept root name disk (disk.eraseWithin (dir ++ [name])) := by
  have hget (loc : Loc) (hloc : ¬Covered root name loc) :
      (disk.eraseWithin (dir ++ [name])).tree.get? loc = disk.tree.get? loc := by
    rw [get?_within _ (by simp), if_neg fun h => hloc (covered_of_below hdir h)]
  constructor
  case sound => exact hsound.eraseWithin (by simp)
  case thinner => exact disk.thinner_eraseWithin (by simp)
  case cwd =>
    simp only [eraseWithin, Standpoint.within]
    split
    · exact .inr (by simpa using hdir)
    · exact .inl rfl
  case cwd_kept => exact fun huncovered => if_neg fun h => huncovered (covered_of_below hdir h)
  case log => exact log_filter_cases _ _
  case shape => exact fun loc hloc => by rw [Tree.shape, Tree.shape, hget loc hloc]
  case kept => exact fun loc hloc _ => hget loc hloc
  case pruned =>
    intro loc _
    rw [get?_within _ (by simp)]
    split
    · exact .inr rfl
    · exact .inl rfl

theorem swept_eraseBelow (hsound : disk.Sound) {dir : Loc} (hdir : root <+: dir)
    (hheld : disk.tree.get? (dir ++ [name]) = some .directory) :
    Swept root name disk (disk.eraseBelow (dir ++ [name])) := by
  have hget (loc : Loc) (hloc : ¬Covered root name loc) :
      (disk.eraseBelow (dir ++ [name])).tree.get? loc = disk.tree.get? loc := by
    rw [get?_below, if_neg fun h => hloc (covered_of_below hdir h.1)]
  constructor
  case sound => exact hsound.eraseBelow hheld
  case thinner => exact disk.thinner_eraseBelow _
  case cwd =>
    simp only [eraseBelow, Standpoint.below]
    split
    · exact .inr (hdir.trans (List.prefix_append dir [name]))
    · exact .inl rfl
  case cwd_kept => exact fun huncovered => if_neg fun h => huncovered (covered_of_below hdir h)
  case log => exact log_filter_cases _ _
  case shape => exact fun loc hloc => by rw [Tree.shape, Tree.shape, hget loc hloc]
  case kept => exact fun loc hloc _ => hget loc hloc
  case pruned =>
    intro loc _
    rw [get?_below]
    split
    · exact .inr rfl
    · exact .inl rfl

/-- If the path reaches a directory at all, it is the one at `loc`. -/
def Leads (disk : Disk) (path : Path) (loc : Loc) : Prop :=
  ∀ p, disk.find .followed path = .ok (.present p .directory) → p = loc

theorem leads_of_found {path : Path} {loc : Loc}
    (hfind : disk.find .followed path = .ok (.present loc .directory)) : disk.Leads path loc := by
  intro p hp
  cases hfind.symm.trans hp
  rfl

theorem exists_leads (disk : Disk) (path : Path) : ∃ loc, disk.Leads path loc := by
  by_cases hreached : ∃ p, disk.find .followed path = .ok (.present p .directory)
  · obtain ⟨p, hp⟩ := hreached
    exact ⟨p, leads_of_found hp⟩
  · exact ⟨[], fun q hq => absurd ⟨q, hq⟩ hreached⟩

theorem Leads.thinner {path : Path} {loc : Loc} (hleads : disk.Leads path loc)
    (hthin : disk'.Thinner disk) (hsound : disk.Sound) : disk'.Leads path loc :=
  fun p hp => hleads p (hthin.directory hsound hp)

/-- The path of a directory's location leads nowhere else. -/
theorem Sound.leads_locPath (hsound : disk.Sound) {loc : Loc}
    (hloc : disk.tree.get? loc = some .directory) : disk.Leads (locPath loc) loc := by
  intro p hp
  cases hsound.loc_of_find_locPath hloc nofun hp
  rfl

/-- Where a name that is no link leads. -/
theorem Leads.child {path : Path} {loc : Loc} {next : String} (hleads : disk.Leads path loc)
    (hnext : Path.Ordinary next)
    (hlink : ∀ target, disk.stat .itself (path.child next) ≠ .ok (.link target)) :
    disk.Leads (path.child next) (loc ++ [next]) := by
  intro p hp
  rcases disk.find_followed (path.child next) with ⟨q, text, hpresent⟩ | heq
  · refine absurd ?_ (hlink text)
    simp [stat, hpresent, bind, Except.bind]
  · rw [heq] at hp
    obtain ⟨q, hq, -, ⟨h, -⟩ | ⟨_, h, -⟩⟩ := reached_of_find_child hnext hp <;> cases h
    rw [hleads q hq]

theorem mem_listing_iff {tree : Tree} {dir : Loc} {entry : String × Kind} :
    entry ∈ tree.listing dir ↔
      ∃ held, (dir ++ [entry.1], held) ∈ tree.entries ∧ entry.2 = held.kind := by
  obtain ⟨next, kind⟩ := entry
  simp only [Tree.listing, List.mem_filterMap, Prod.exists, Option.map_eq_some_iff,
    Prod.mk.injEq, Loc.nameIn?]
  constructor
  · rintro ⟨loc, held, hmem, found, hfound, rfl, rfl⟩
    split at hfound
    · next hpre =>
        obtain ⟨rest, rfl⟩ := hpre
        rw [List.drop_left] at hfound
        split at hfound
        · cases hfound
          exact ⟨held, hmem, rfl⟩
        · cases hfound
    · cases hfound
  · rintro ⟨held, hmem, rfl⟩
    exact ⟨dir ++ [next], held, hmem, next, by simp, rfl, rfl⟩

/-- What a listing tells is in the tree. -/
theorem Sound.mem_list (hsound : disk.Sound) {path : Path} {entries : List (String × Kind)}
    (hlist : disk.list path = .ok entries) {entry : String × Kind} (hentry : entry ∈ entries) :
    ∃ dir held, disk.find .followed path = .ok (.present dir .directory) ∧
      disk.tree.get? (dir ++ [entry.1]) = some held ∧ entry.2 = held.kind := by
  simp only [list, bind, Except.bind] at hlist
  split at hlist
  · cases hlist
  · next found hfind =>
      split at hlist
      · next dir =>
          cases hlist
          obtain ⟨held, hmem, hkind⟩ := mem_listing_iff.mp hentry
          exact ⟨dir, held, hfind, ((Tree.mem_entries_iff hsound.rooted).mp hmem).2, hkind⟩
      · cases hlist
      · cases hlist
      · cases hlist
        cases hentry

end Disk

open Disk

/-- A sweep of `dir` that a sound disk lets happen at `loc`, as a relation between worlds. -/
def World.SweptFrom (root : Loc) (name : String) (dir : Path) (loc : Loc) (w w' : World σ) : Prop :=
  w.disk.Sound → w.disk.Leads dir loc → Swept root name w.disk w'.disk

instance (root : Loc) (name : String) (dir : Path) (loc : Loc) :
    IsPreorder (World σ) (World.SweptFrom root name dir loc) where
  refl _ hsound _ := .refl hsound
  trans _ _ _ hfirst hsecond hsound hleads :=
    have hb := hfirst hsound hleads
    hb.trans (hsecond hb.sound (hleads.thinner hb.thinner hsound))

namespace Sweep

variable {reporter : Reporter} {root loc : Loc} {name : String} {dir : Path}

theorem say_swept (level : Level) (message : String) :
    (reporter.say level message : Act σ Unit).Within (World.SweptFrom root name dir loc) := by
  intro w hsound _
  rw [Act.final_of_ok (reporter.say_eq level message w)]
  exact swept_logged hsound _

theorem remove_swept (hname : Path.Ordinary name) (hloc : root <+: loc) :
    (Act.remove (dir.child name) : Act σ Bool).Within (World.SweptFrom root name dir loc) := by
  intro w hsound hleads
  rcases Act.remove_child_cases dir hsound hname with
    ⟨-, hremove⟩ | ⟨-, fault, hremove⟩ | ⟨p, entry, hfind, hremove⟩ |
      ⟨p, hfind, -, fault, hremove⟩
  · rw [Act.final_of_ok hremove]
    exact .refl hsound
  · rw [Act.final_of_error hremove]
    exact .refl hsound
  · obtain ⟨q, hq, -, ⟨h, -⟩ | ⟨_, h, -⟩⟩ := reached_of_find_child hname hfind <;> cases h
    rw [Act.final_of_ok hremove]
    exact swept_eraseWithin hsound (hleads q hq ▸ hloc)
  · obtain ⟨q, hq, -, ⟨h, -⟩ | ⟨_, h, hheld⟩⟩ := reached_of_find_child hname hfind <;> cases h
    rw [Act.final_of_error hremove]
    exact swept_eraseBelow hsound (hleads q hq ▸ hloc) hheld

/-- What a removal and a report stay within, a reported removal stays within. -/
theorem removeOne_final {R : World σ → World σ → Prop} [IsPreorder (World σ) R] {target : Path}
    {w : World σ} (hsay : ∀ level message, (reporter.say level message : Act σ Unit).Within R)
    (hremove : R w ((Act.remove target : Act σ Bool).final w)) :
    R w ((removeOne reporter target : Act σ (List Path)).final w) := by
  refine Act.final_bind_within (by rwa [Act.final_attempt]) fun result => ?_
  cases result with
  | ok removed => exact Act.within_bind (hsay _ _) fun _ => Act.within_pure _
  | error fault =>
      by_cases hrefusal : fault.isRefusal = true
      · simp only [if_pos hrefusal]
        exact Act.within_bind (hsay _ _) fun _ => Act.within_pure _
      · simp only [if_neg hrefusal]
        exact Act.within_throw _

theorem removeOne_swept (hname : Path.Ordinary name) (hloc : root <+: loc) :
    (removeOne reporter (dir.child name) : Act σ (List Path)).Within
      (World.SweptFrom root name dir loc) :=
  fun w => removeOne_final say_swept (remove_swept hname hloc w)

/-- Go on below `dir` with one of its directories, unless it is a link by now. -/
def descend (reporter : Reporter) (name : String) (depth : Nat) (dir : Path)
    (removed : List Path) (next : String) : Act σ (List Path) := do
  match (← get).disk.stat .itself (dir.child next) with
  | .ok (.link _) => return removed
  | _ => return removed ++ (← sweepBelow reporter name depth (dir.child next))

theorem sweepBelow_of_list {depth : Nat} {dir : Path} {entries : List (String × Kind)}
    {w : World σ} (hlist : w.disk.list dir = .ok entries) :
    sweepBelow reporter name (depth + 1) dir w =
      ((if name ∈ directoryNames w.disk dir entries then removeOne reporter (dir.child name)
        else pure []) >>= fun here =>
          ((directoryNames w.disk dir entries).filter (· ≠ name)).foldlM
            (descend reporter name depth dir) here) w := by
  rw [sweepBelow, Act.bind_of_ok (rfl : (get : Act σ (World σ)) w = .ok w w)]
  simp only [hlist]
  split <;> rfl

theorem sweepBelow_of_unlisted {depth : Nat} {dir : Path} {why : Refusal} {w : World σ}
    (hlist : w.disk.list dir = .error why) :
    sweepBelow reporter name (depth + 1) dir w = .ok [] w := by
  rw [sweepBelow, Act.bind_of_ok (rfl : (get : Act σ (World σ)) w = .ok w w)]
  simp only [hlist]
  rfl


/-- The names in a listing of a sound disk are names of entries. -/
theorem ordinary_of_mem_directoryNames {disk : Disk} {entries : List (String × Kind)}
    (hsound : disk.Sound) (hlist : disk.list dir = .ok entries) {next : String}
    (hnext : next ∈ directoryNames disk dir entries) : Path.Ordinary next := by
  obtain ⟨⟨other, kind⟩, hmem, hleads⟩ := List.mem_filterMap.mp hnext
  obtain ⟨p, held, -, hheld, -⟩ := hsound.mem_list hlist hmem
  have hother : other = next := Option.some.inj (Option.ite_none_right_eq_some.mp hleads).2
  exact hother ▸ hsound.named hheld

theorem sweepBelow_swept (hloc : root <+: loc) (depth : Nat) :
    (sweepBelow reporter name depth dir : Act σ (List Path)).Within
      (World.SweptFrom root name dir loc) := by
  induction depth generalizing dir loc with
  | zero =>
      rw [sweepBelow]
      exact Act.within_pure _
  | succ depth ih =>
      intro w hsound hleads
      cases hlist : w.disk.list dir with
      | error why =>
          rw [Act.final_of_ok (sweepBelow_of_unlisted hlist)]
          exact .refl hsound
      | ok entries =>
          rw [Act.final, sweepBelow_of_list hlist]
          refine Act.within_bind (R := World.SweptFrom root name dir loc) ?_ (fun here => ?_) w
            hsound hleads
          · split
            · next hmem =>
                exact removeOne_swept (ordinary_of_mem_directoryNames hsound hlist hmem) hloc
            · exact Act.within_pure _
          · refine Act.within_foldlM (fun next hnext removed w₁ hsound₁ hleads₁ => ?_) here
            have hordinary :=
              ordinary_of_mem_directoryNames hsound hlist (List.mem_filter.mp hnext).1
            unfold descend
            rw [Act.final_bind_of_ok (rfl : (get : Act σ (World σ)) w₁ = .ok w₁ w₁)]
            split
            · exact .refl hsound₁
            · next hlink =>
                have hchild := hleads₁.child hordinary hlink
                exact Act.within_bind
                  (R := World.SweptFrom root name (dir.child next) (loc ++ [next]))
                  (ih (hloc.trans (List.prefix_append loc [next]))) (fun _ => Act.within_pure _)
                  w₁ hsound₁ hchild

/-- A sweep takes away what it covers, and nothing else. -/
theorem sweep_swept (reporter : Reporter) (name : String) :
    (sweep reporter name dir : Act σ (List Path)).Within
      (World.SweptFrom loc name dir loc) := by
  refine Act.within_bind (Act.within_look _) fun isDirectory => ?_
  split
  · exact sweepBelow_swept List.prefix_rfl _
  · exact Act.within_pure _

end Sweep

end Unscramble
