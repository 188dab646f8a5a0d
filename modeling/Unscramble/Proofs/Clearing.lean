import Mathlib
import Unscramble.Proofs.Course
import Unscramble.Proofs.Disk.Clearing
import Unscramble.Proofs.Faults
import Unscramble.Proofs.Sample

/-!
# A sweep clears its root

A sweep lists a directory, removes what carries the name of a staging directory and
leads to a directory, and goes on below the other directories.  If the root is still
reached in the end, then it has been reached all along, and so has every real directory
below it that the sweep has not removed; so every entry that could have been removed has
been, once, and a second sweep finds nothing.
-/

namespace Unscramble

variable {σ : Type}

/-! ## One removal -/

/-- Work that only takes away from a sound disk. -/
def World.Thinned (w w' : World σ) : Prop :=
  w.disk.Sound → w'.disk.Sound ∧ w'.disk.Thinner w.disk

instance : IsPreorder (World σ) World.Thinned where
  refl w hsound := ⟨hsound, .refl w.disk⟩
  trans _ _ _ hfirst hsecond hsound :=
    have hb := hfirst hsound
    have hc := hsecond hb.1
    ⟨hc.1, hc.2.trans hb.2⟩

namespace Sweep

open Disk

variable {reporter : Reporter} {root : Path} {base dir : Loc} {name : String} {w : World σ}

theorem sweepBelow_thinned (reporter : Reporter) (name : String) (depth : Nat) (dir : Path) :
    (sweepBelow reporter name depth dir : Act σ (List Path)).Within World.Thinned := by
  intro w hsound
  obtain ⟨loc, hleads⟩ := w.disk.exists_leads dir
  have hswept : Swept loc name w.disk ((sweepBelow reporter name depth dir).final w).disk :=
    sweepBelow_swept List.prefix_rfl depth w hsound hleads
  exact ⟨hswept.sound, hswept.thinner⟩

theorem removeOne_thinned (reporter : Reporter) (dir : Path) (hname : Path.Ordinary name) :
    (removeOne reporter (dir.child name) : Act σ (List Path)).Within World.Thinned := by
  intro w hsound
  obtain ⟨loc, hleads⟩ := w.disk.exists_leads dir
  have hswept : Swept loc name w.disk ((removeOne reporter (dir.child name)).final w).disk :=
    removeOne_swept hname List.prefix_rfl w hsound hleads
  exact ⟨hswept.sound, hswept.thinner⟩

/-- What is found at the path of an entry that is listed. -/
theorem find_child_of_listed {path : Path} {loc : Loc} {entry : Entry} (hname : Path.Ordinary name)
    (hpath : (path.child name).hasNul = false)
    (hdir : w.disk.find .followed path = .ok (.present loc .directory))
    (hheld : w.disk.tree.get? (loc ++ [name]) = some entry) :
    w.disk.find .itself (path.child name) =
      if (path.child name).Nameable ∧ name.utf8ByteSize ≤ nameMax then
        .ok (.present (loc ++ [name]) entry)
      else .error .nameTooLong := by
  by_cases hnameable : (path.child name).Nameable
  · rw [find_child hname hnameable, hdir, lookUp, hheld]
    by_cases hshort : name.utf8ByteSize ≤ nameMax
    · rw [if_neg (Nat.not_lt.mpr hshort), if_pos ⟨hnameable, hshort⟩]
    · rw [if_pos (Nat.lt_of_not_le hshort), if_neg fun h => hshort h.2]
  · simp [find_of_not_nameable hnameable, hpath, hnameable]

section Listed

variable {path : Path} {entries : List (String × Kind)} (hsound : w.disk.Sound)
  (hlist : w.disk.list path = .ok entries)

include hsound hlist

/-- What a listing tells to lead to a directory is an entry in the directory that is listed, and
asking says so too. -/
theorem listed_of_mem (hmem : name ∈ directoryNames w.disk path entries) :
    ∃ loc entry, w.disk.find .followed path = .ok (.present loc .directory) ∧
      w.disk.tree.get? (loc ++ [name]) = some entry ∧
      ((path.child name).Nameable → name.utf8ByteSize ≤ nameMax →
        w.disk.isDirectory (path.child name) = .ok true) := by
  obtain ⟨⟨other, kind⟩, hentry, hleads⟩ := List.mem_filterMap.mp hmem
  obtain ⟨loc, held, hloc, hheld, hkind⟩ := hsound.mem_list hlist hentry
  obtain ⟨htold, rfl⟩ : _ ∧ other = name := by simpa using hleads
  refine ⟨loc, held, hloc, hheld, fun hpath hshort => ?_⟩
  have hfind := find_child_of_reached (hsound.named hheld) hshort hpath hloc
  rw [hheld] at hfind
  cases held with
  | directory => exact ask_of_present (find_followed_of_ne_link hfind (by simp)) _
  | file bytes access =>
      cases hkind
      cases htold
  | link target =>
      cases hkind
      dsimp only at htold
      split at htold
      · next entry hstat =>
          rw [isDirectory, ask, hstat]
          exact congrArg Except.ok htold
      · cases htold

/-- A listing tells what leads to a directory. -/
theorem mem_directoryNames_of_leads (hname : Path.Ordinary name) {loc : Loc}
    (hfind : w.disk.find .followed (path.child name) = .ok (.present loc .directory)) :
    name ∈ directoryNames w.disk path entries := by
  have hstat : w.disk.stat .followed (path.child name) = .ok .directory := by
    simp only [stat, hfind]
    rfl
  obtain ⟨q, entry, hkind, hitself⟩ := itself_of_leads hfind
  obtain ⟨p, hp, -, ⟨h, -⟩ | ⟨_, h, hheld⟩⟩ := reached_of_find_child hname hitself <;> cases h
  have hentries : entries = w.disk.tree.listing p := by
    simp only [list, hp, bind, Except.bind] at hlist
    exact (Except.ok.inj hlist).symm
  subst hentries
  have hmem : (name, entry.kind) ∈ w.disk.tree.listing p :=
    mem_listing_iff.mpr ⟨entry, (Tree.mem_entries_iff hsound.rooted).mpr ⟨by simp, hheld⟩, rfl⟩
  refine List.mem_filterMap.mpr ⟨_, hmem, ?_⟩
  rcases hkind with rfl | ⟨target, rfl⟩
  · rfl
  · simp [Entry.kind, hstat]

end Listed

theorem removeOne_of_ok {target : Path} {there : Bool} {w' : World σ}
    (hremove : (Act.remove target : Act σ Bool) w = .ok there w') :
    removeOne reporter target w = .ok [target]
      (w'.said reporter .debug ("Cleaned up output directory: " ++ target.toString)) := by
  rw [removeOne, Act.bind_of_ok (Act.attempt_of_ok hremove)]
  exact Act.bind_of_ok (reporter.debug_eq _ w')

theorem removeOne_of_error {target : Path} {fault : Fault} {w' : World σ}
    (hremove : (Act.remove target : Act σ Bool) w = .error fault w')
    (hpath : target.hasNul = false) :
    removeOne reporter target w = .ok [] (w'.said reporter .error
      ("Error cleaning up output directory: " ++ target.toString ++ " (" ++ fault.message ++ ")")) := by
  have hrefusal := (remove_refused target w fault w' hremove).isRefusal hpath
  rw [removeOne, Act.bind_of_ok (Act.attempt_of_error hremove)]
  simp only [hrefusal, if_true]
  exact Act.bind_of_ok (reporter.error_eq _ w')

/-- Where the entry called `name` in a directory leads to a directory, it is removed, if the
root is still reached afterwards. -/
theorem removeHere_clears {entries : List (String × Kind)} (hsound : w.disk.Sound)
    (hnul : w.disk.tree.NulFree) (hleads : w.disk.Leads (root.below dir) (base ++ dir))
    (hlist : w.disk.list (root.below dir) = .ok entries) :
    ∃ removed w', (if name ∈ directoryNames w.disk (root.below dir) entries then
          removeOne reporter ((root.below dir).child name) else pure [] : Act σ (List Path)) w =
        .ok (removed.map root.below) w' ∧
      (w'.disk.find .followed root = .ok (.present base .directory) →
        Clearing root base name w.disk removed w'.disk ∧
        ∀ entry, w'.disk.tree.get? (base ++ (dir ++ [name])) = some entry → ∀ loc,
          w'.disk.find .followed (root.below (dir ++ [name])) ≠ .ok (.present loc .directory)) := by
  by_cases hmem : name ∈ directoryNames w.disk (root.below dir) entries
  case neg =>
    rw [if_neg hmem]
    refine ⟨[], w, rfl, fun _ => ⟨.done _, fun entry hentry loc hfind => hmem ?_⟩⟩
    rw [← List.append_assoc] at hentry
    rw [← Path.child_below] at hfind
    exact mem_directoryNames_of_leads hsound hlist (hsound.named hentry) hfind
  rw [if_pos hmem]
  obtain ⟨p, held, hp, hheld, hasked⟩ := listed_of_mem hsound hlist hmem
  obtain rfl := hleads p hp
  have hname := hsound.named hheld
  have hpath : ((root.below dir).child name).hasNul = false := by
    rw [Path.hasNul_child, (nameable_of_find hp).1]
    simpa using hnul _ _ _ hheld
  rcases Act.remove_child_cases (root.below dir) hsound hname with
    ⟨hmissing, -⟩ | ⟨hrefused, fault, hremove⟩ | ⟨loc, entry, hfind, hremove⟩ |
      ⟨loc, hfind, hcut, fault, hremove⟩
  · exfalso
    rw [find_child_of_listed hname hpath hp hheld] at hmissing
    split at hmissing
    · exact not_missing_present hmissing
    · obtain ⟨_, h⟩ | ⟨_, h, habsent⟩ := hmissing <;> cases h
      cases habsent
  · refine ⟨[], _, removeOne_of_error hremove hpath, fun _ => ⟨.noted _ (.done _), ?_⟩⟩
    intro entry _ loc hfind
    refine hrefused fun why hwhy => ?_
    rw [Path.child_below] at hwhy
    have hbefore := (w.disk.thinner_logged _).directory hsound hfind
    rw [hwhy] at hbefore
    cases hbefore
  · obtain ⟨q, hq, hshort, ⟨h, -⟩ | ⟨_, h, hentry⟩⟩ := reached_of_find_child hname hfind <;> cases h
    obtain rfl := hleads q hq
    have hdirectory := hasked (nameable_of_find hfind) hshort
    rw [List.append_assoc] at hremove hentry
    have hrun : removeOne reporter ((root.below dir).child name) w = _ := removeOne_of_ok hremove
    rw [Path.child_below] at hrun hdirectory ⊢
    refine ⟨[dir ++ [name]], _, hrun, fun _ => ⟨.removed hentry hdirectory (.noted _ (.done _)),
      fun entry hafter => ?_⟩⟩
    obtain ⟨_, hstill, -⟩ := (thinner_logged _ _).held hafter
    rw [get?_within _ (by simp), if_pos List.prefix_rfl] at hstill
    cases hstill
  · refine ⟨[], _, removeOne_of_error hremove hpath, fun hend => absurd ?_ (hcut (base ++ dir))⟩
    -- the directory that is emptied is not on the way to the root, so this cannot happen
    obtain ⟨q, hq, -, ⟨h, -⟩ | ⟨_, h, hentry⟩⟩ := reached_of_find_child hname hfind <;> cases h
    obtain rfl := hleads q hq
    have hthin := w.disk.thinner_eraseBelow (base ++ dir ++ [name])
    have hroot := (thinner_logged _ _).directory (hsound.eraseBelow hentry) hend
    obtain ⟨-, hshort⟩ := hsound.leads_below (hthin.directory hsound hroot)
      (hsound.closed hentry) hq
    rw [(hsound.eraseBelow hentry).find_below hroot ?_ (nameable_of_find hq), if_pos hshort]
    rw [get?_below, if_neg fun h => by simpa using h.1.length_le]
    exact hsound.closed hentry

/-! ## The whole sweep -/

theorem present_of_stat_link {path : Path} {target : String}
    (hstat : w.disk.stat .itself path = .ok (.link target)) :
    ∃ loc, w.disk.find .itself path = .ok (.present loc (.link target)) := by
  simp only [stat, bind, Except.bind] at hstat
  split at hstat
  · cases hstat
  · next found hfind =>
      split at hstat <;> cases hstat
      exact ⟨_, hfind⟩

theorem descend_of_link {depth : Nat} {path : Path} {removed : List Path} {next target : String}
    (hstat : w.disk.stat .itself (path.child next) = .ok (.link target)) :
    descend reporter name depth path removed next w = .ok removed w := by
  rw [descend, Act.bind_of_ok (rfl : (get : Act σ (World σ)) w = .ok w w)]
  simp only [hstat]
  rfl

theorem descend_of_ne_link {depth : Nat} {path : Path} {removed below : List Path} {next : String}
    {w' : World σ} (hstat : ∀ target, w.disk.stat .itself (path.child next) ≠ .ok (.link target))
    (hbelow : sweepBelow reporter name depth (path.child next) w = .ok below w') :
    descend reporter name depth path removed next w = .ok (removed ++ below) w' := by
  rw [descend, Act.bind_of_ok (rfl : (get : Act σ (World σ)) w = .ok w w)]
  cases hanswer : w.disk.stat .itself (path.child next) with
  | error why => exact Act.bind_of_ok hbelow
  | ok entry =>
      cases entry with
      | link target => exact absurd hanswer (hstat target)
      | directory => exact Act.bind_of_ok hbelow
      | file bytes access => exact Act.bind_of_ok hbelow

/-- What a sweep of the directory `dir` below the root does, if it may go down so far. -/
def Clears (reporter : Reporter) (root : Path) (base : Loc) (name : String) (σ : Type)
    (depth : Nat) (dir : Loc) : Prop :=
  ∀ w : World σ, w.disk.Sound → w.disk.tree.NulFree → w.disk.Leads (root.below dir) (base ++ dir) →
    ∃ removed w', sweepBelow reporter name depth (root.below dir) w =
        .ok (removed.map root.below) w' ∧
      (w'.disk.find .followed root = .ok (.present base .directory) →
        Clearing root base name w.disk removed w'.disk ∧ Clean root base name dir w'.disk)

/-- The directories in a directory are swept one after the other. -/
theorem descendAll_clears {depth : Nat} {names : List String}
    (hbelow : ∀ next, Clears reporter root base name σ depth (dir ++ [next]))
    (hnames : ∀ next ∈ names, Path.Ordinary next) (before : List Loc) (hsound : w.disk.Sound)
    (hnul : w.disk.tree.NulFree) (hleads : w.disk.Leads (root.below dir) (base ++ dir)) :
    ∃ removed w', names.foldlM (descend reporter name depth (root.below dir))
          (before.map root.below) w = .ok ((before ++ removed).map root.below) w' ∧
      w'.disk.Sound ∧ w'.disk.Thinner w.disk ∧
      (w'.disk.find .followed root = .ok (.present base .directory) →
        Clearing root base name w.disk removed w'.disk ∧
        ∀ next ∈ names, w'.disk.tree.get? (base ++ (dir ++ [next])) = some .directory →
          Clean root base name (dir ++ [next]) w'.disk) := by
  induction names generalizing w before with
  | nil =>
      refine ⟨[], w, ?_, hsound, .refl _, fun _ => ⟨.done _, nofun⟩⟩
      rw [List.append_nil]
      rfl
  | cons next rest ih =>
      obtain ⟨hnext, hrest⟩ := List.forall_mem_cons.mp hnames
      rw [List.foldlM_cons]
      by_cases hlink : ∃ target, w.disk.stat .itself ((root.below dir).child next) =
          .ok (.link target)
      · obtain ⟨target, hstat⟩ := hlink
        obtain ⟨removed, w', hrun, hsound', hthin, hclears⟩ := ih hrest before hsound hnul hleads
        refine ⟨removed, w', (Act.bind_of_ok (descend_of_link hstat)).trans hrun, hsound', hthin,
          fun hend => ⟨(hclears hend).1, fun other hother hheld => ?_⟩⟩
        rcases List.mem_cons.mp hother with rfl | hother
        · obtain ⟨q, hq⟩ := present_of_stat_link hstat
          obtain ⟨p, hp, -, ⟨h, -⟩ | ⟨_, h, hentry⟩⟩ := reached_of_find_child hnext hq <;> cases h
          have hbefore := hthin.held_directory hheld
          rw [hleads p hp, List.append_assoc, hbefore] at hentry
          cases hentry
        · exact (hclears hend).2 other hother hheld
      · push Not at hlink
        have hchild := hleads.child hnext hlink
        rw [Path.child_below, List.append_assoc] at hchild
        obtain ⟨removed₁, w₁, hrun₁, hclears₁⟩ := hbelow next w hsound hnul hchild
        obtain ⟨hsound₁, hthin₁⟩ : w₁.disk.Sound ∧ w₁.disk.Thinner w.disk := by
          have hthinned := sweepBelow_thinned reporter name depth (root.below (dir ++ [next])) w hsound
          rwa [Act.final_of_ok hrun₁] at hthinned
        obtain ⟨removed₂, w', hrun₂, hsound', hthin₂, hclears₂⟩ :=
          ih hrest (before ++ removed₁) hsound₁ (NulFree.thinner hnul hthin₁)
            (hleads.thinner hthin₁ hsound)
        refine ⟨removed₁ ++ removed₂, w', ?_, hsound', hthin₂.trans hthin₁, fun hend => ?_⟩
        · rw [← List.append_assoc, ← hrun₂, List.map_append]
          exact Act.bind_of_ok (descend_of_ne_link hlink (Path.child_below root dir next ▸ hrun₁))
        · obtain ⟨htrace₁, hclean₁⟩ := hclears₁ (hthin₂.directory hsound₁ hend)
          obtain ⟨htrace₂, hclean₂⟩ := hclears₂ hend
          refine ⟨htrace₁.trans htrace₂, fun other hother hheld => ?_⟩
          rcases List.mem_cons.mp hother with rfl | hother
          · exact hclean₁.thinner hthin₂ hsound₁
          · exact hclean₂ other hother hheld

/-- A directory is swept: what carries the name is removed, then what lies in the other
directories. -/
theorem sweepBelow_clears (depth : Nat) (dir : Loc) (hdepth : dir.length + depth = pathMax) :
    Clears reporter root base name σ depth dir := by
  induction depth generalizing dir with
  | zero =>
      intro w hsound _ _
      refine ⟨[], w, rfl, fun hend => ⟨.done _, fun down entry hdown hentry loc hfind => ?_⟩⟩
      -- a path of so many names cannot be told to the system
      have hreached := hsound.reached_above hend hentry hfind hdown
      have hnames : ∀ next ∈ dir, next ≠ "" := fun next hnext =>
        Path.ordinary_ne_empty (hsound.ordinary_of_mem (find_fits hreached) next
          (List.mem_append_right _ hnext))
      have hlength := root.length_le_byteLength_below hnames
      have hnameable := (nameable_of_find hreached).2
      omega
  | succ depth ih =>
      intro w hsound hnul hleads
      cases hlist : w.disk.list (root.below dir) with
      | error why =>
          refine ⟨[], w, sweepBelow_of_unlisted hlist,
            fun hend => ⟨.done _, fun down entry hdown hentry loc hfind => ?_⟩⟩
          have hreached := hsound.reached_above hend hentry hfind hdown
          simp [list, hreached, bind, Except.bind] at hlist
      | ok entries =>
          obtain ⟨removed₁, w₁, hrun₁, hclears₁⟩ :=
            removeHere_clears hsound hnul hleads hlist
          have hordinary : ∀ next ∈ directoryNames w.disk (root.below dir) entries,
              Path.Ordinary next := fun _ => ordinary_of_mem_directoryNames hsound hlist
          have hthinned : World.Thinned w w₁ := by
            rw [← Act.final_of_ok hrun₁]
            split
            · next hmem => exact removeOne_thinned reporter _ (hordinary _ hmem) w
            · exact Act.within_pure _ w
          obtain ⟨hsound₁, hthin₁⟩ := hthinned hsound
          obtain ⟨removed₂, w', hrun₂, hsound', hthin₂, hclears₂⟩ :=
            descendAll_clears (fun next => ih (dir ++ [next]) (by simp; omega))
              (fun next hnext => hordinary next (List.mem_filter.mp hnext).1) removed₁ hsound₁
              (NulFree.thinner hnul hthin₁) (hleads.thinner hthin₁ hsound)
          refine ⟨removed₁ ++ removed₂, w', ?_, fun hend => ?_⟩
          · rw [sweepBelow_of_list hlist]
            exact (Act.bind_of_ok hrun₁).trans hrun₂
          · obtain ⟨htrace₁, hhere⟩ := hclears₁ (hthin₂.directory hsound₁ hend)
            obtain ⟨htrace₂, hbelow⟩ := hclears₂ hend
            refine ⟨htrace₁.trans htrace₂, fun down entry hdown hentry loc hfind => ?_⟩
            obtain ⟨more, rfl⟩ := hdown
            cases more with
            | nil =>
                rw [List.append_nil] at hentry hfind
                obtain ⟨held, hheld, -⟩ := hthin₂.held hentry
                exact hhere held hheld loc (hthin₂.directory hsound₁ hfind)
            | cons next more =>
                have hprefix : dir ++ [next] <+: dir ++ next :: more := ⟨more, by simp⟩
                have hreached := hsound'.reached_above hend hentry hfind hprefix
                have hheld := find_fits hreached
                have hreached₁ := hthin₂.directory hsound₁ hreached
                have hother : next ≠ name := by
                  rintro rfl
                  exact hhere _ (hthin₂.held_directory hheld) _ hreached₁
                have hnext : next ∈ directoryNames w.disk (root.below dir) entries := by
                  have hreached₀ := hthin₁.directory hsound hreached₁
                  rw [← Path.child_below] at hreached₀
                  exact mem_directoryNames_of_leads hsound hlist
                    (hsound'.ordinary_of_mem hheld next (by simp)) hreached₀
                exact hbelow next (List.mem_filter.mpr ⟨hnext, by simpa using hother⟩) hheld _
                  entry hprefix hentry loc hfind

/-- A way past none of the directories to remove stays open. -/
theorem through_of_sweep (reporter : Reporter) (name : String) (hsound : w.disk.Sound)
    (hway : w.disk.Through (¬Covered base name ·) root base) :
    ((sweep reporter name root : Act σ (List Path)).final w).disk.Through (¬Covered base name ·)
      root base := by
  have hleads : w.disk.Leads root base := leads_of_found hway.found
  have hswept : Swept base name w.disk ((sweep reporter name root).final w).disk :=
    sweep_swept reporter name w hsound hleads
  exact (Course.swept List.prefix_rfl hswept).through hsound (by simp) hway

/-- What a sweep does to the root it is given, if the root is reached in the end.  It comes to
its end if the system tells whether the root is a directory. -/
theorem sweep_clears (reporter : Reporter) (name : String) (hsound : w.disk.Sound)
    (hnul : w.disk.tree.NulFree) (hroot : w.disk.Resolvable root) :
    ∃ removed w', sweep reporter name root w = .ok (removed.map root.below) w' ∧
      ∀ base, w'.disk.find .followed root = .ok (.present base .directory) →
        Clearing root base name w.disk removed w'.disk ∧ Clean root base name [] w'.disk := by
  obtain ⟨directory, hanswer⟩ := hroot.ask (·.kind = .directory)
  cases directory with
  | false =>
      refine ⟨[], w, ?_, fun base hend => ?_⟩
      · rw [sweep, Act.bind_of_ok (Act.ask_of_ok hanswer)]
        rfl
      · rw [ask_of_present hend] at hanswer
        cases hanswer
  | true =>
      obtain ⟨base, hleads⟩ := w.disk.exists_leads root
      obtain ⟨removed, w', hrun, hclears⟩ := sweepBelow_clears pathMax [] (Nat.zero_add _) w hsound
        hnul (by simpa using hleads)
      rw [Path.below_nil] at hrun
      refine ⟨removed, w', ?_, fun base' hend => ?_⟩
      · rw [sweep, Act.bind_of_ok (Act.ask_of_ok hanswer)]
        exact hrun
      · have hthinned := sweepBelow_thinned reporter name pathMax root w hsound
        rw [Act.final_of_ok hrun] at hthinned
        obtain rfl := hleads base' (hthinned.2.directory hsound hend)
        exact hclears hend

end Sweep

end Unscramble
