import Unscramble.Proofs.Disk.Shape
import Unscramble.Proofs.Exchange
import Unscramble.Proofs.Inventory
import Unscramble.Targets

/-!
# Targets that are chosen by themselves

Where no directory and no file is asked for, the directories next to each other below the base
are offered as targets, and the base itself if none of them holds a script.  Discovery looks at
links in another way than a scan does: it follows them, and passes over those that lead to
nothing but over no others.  Where that is all that links do, a selection ends with targets in
which a scan finds scripts, or with the complaint that there is nothing.
-/

namespace Unscramble

open Disk

variable {σ : Type}

/-! ## Lines in the log -/

namespace Disk.SameShape

variable {disk disk' : Disk} {rules : Scan.Rules} {path dir base : Path}
  (hsame : disk.SameShape disk') (hsound : disk.Sound) (hsound' : disk'.Sound)

include hsame hsound hsound'

theorem query_list : disk'.query Disk.list dir = disk.query Disk.list dir := by
  rw [query, query, hsame.list hsound hsound']

theorem isScript : Scan.isScript rules path disk' = Scan.isScript rules path disk :=
  (hsame.leadsAlike path).isScript fun _ _ => hsame.canonicalPath hsound hsound'

theorem gather (depth : Nat) (acc : List Path) :
    Scan.gather rules disk' depth dir acc = Scan.gather rules disk depth dir acc := by
  induction depth generalizing dir acc with
  | zero => rfl
  | succ depth ih =>
    rw [Scan.gather, Scan.gather, Scan.foldM_succ, Scan.foldM_succ]
    dsimp only
    rw [hsame.query_list hsound hsound']
    refine congrArg _ (funext fun entries => ?_)
    refine congrArg (fun step => entries.foldlM step acc) (funext fun acc => funext fun entry => ?_)
    have hbelow : Scan.gather rules disk' depth (dir.child entry.1) acc =
        Scan.gather rules disk depth (dir.child entry.1) acc := ih acc
    rw [Scan.gather, Scan.gather] at hbelow
    simp only [Scan.entryM, hbelow, hsame.isScript hsound hsound']

/-- A scan finds the same scripts. -/
theorem scripts : Scan.scripts rules disk' base = Scan.scripts rules disk base :=
  hsame.gather hsound hsound' pathMax []

omit hsound hsound' in
theorem leadsToDirectory (entry : String × Kind) :
    Scan.leadsToDirectory dir entry disk' = Scan.leadsToDirectory dir entry disk :=
  (hsame.leadsAlike _).leadsToDirectory

/-- Discovery finds the same targets. -/
theorem discover : Scan.discover rules disk' base = Scan.discover rules disk base := by
  have hscript (dir : Path) : Scan.hasScript rules disk' dir = Scan.hasScript rules disk dir := by
    simp only [Scan.hasScript, hsame.query_list hsound hsound', hsame.leadsToDirectory,
      hsame.isScript hsound hsound']
  simp only [Scan.discover, hsame.query_list hsound hsound', hsame.leadsToDirectory, hscript]

end Disk.SameShape

namespace Scan

section AnyM

variable {test : String × Kind → Except Fault Bool} {entries : List (String × Kind)}

theorem ok_of_anyM (htest : ∀ entry ∈ entries, ∃ answer, test entry = .ok answer) :
    ∃ answer, anyM test entries = .ok answer := by
  induction entries with
  | nil => exact ⟨false, rfl⟩
  | cons entry rest ih =>
    obtain ⟨answer, hanswer⟩ := htest entry List.mem_cons_self
    rw [anyM, hanswer]
    cases answer with
    | true => exact ⟨true, rfl⟩
    | false => exact ih fun other hother => htest other (List.mem_cons_of_mem _ hother)

theorem cases_of_anyM {answer : Bool} (hany : anyM test entries = .ok answer) :
    (answer = true ∧ ∃ entry ∈ entries, test entry = .ok true) ∨
      answer = false ∧ ∀ entry ∈ entries, test entry = .ok false := by
  induction entries with
  | nil =>
    cases hany
    exact .inr ⟨rfl, by simp⟩
  | cons entry rest ih =>
    rw [anyM] at hany
    obtain ⟨first, hfirst, hrest⟩ := Except.ok_of_bind hany
    cases first with
    | true =>
      cases hrest
      exact .inl ⟨rfl, entry, List.mem_cons_self, hfirst⟩
    | false =>
      rcases ih hrest with ⟨rfl, other, hother, hyes⟩ | ⟨rfl, hall⟩
      · exact .inl ⟨rfl, other, List.mem_cons_of_mem _ hother, hyes⟩
      · exact .inr ⟨rfl, List.forall_mem_cons.mpr ⟨hfirst, hall⟩⟩

end AnyM

variable {rules : Rules} {disk : Disk} {base dir path : Path} {loc : Loc} {name : String}
  {entry : String × Kind} {held : Entry}

/-! ## What discovery looks up -/

/-- A link that is followed leads to an entry, or to nothing at all. -/
def Answers (disk : Disk) (path : Path) : Prop :=
  ∀ why, disk.stat .followed path = .error why → why = .notFound

/-- The links directly in the directory that the path leads to can be followed, if they do not
lead to nothing. -/
def LinksAnswer (disk : Disk) (dir : Path) : Prop :=
  ∀ loc name target, disk.find .followed dir = .ok (.present loc .directory) →
    disk.tree.get? (loc ++ [name]) = some (.link target) → Answers disk (dir.child name)

/-- A scan of the path is refused nothing: it can look up what it asks about, and each script has
a canonical form. -/
structure Unrefused (rules : Rules) (disk : Disk) (root : Path) : Prop where
  resolvable : ∀ path held, Meets rules disk root path held → rules.Regards path held →
    disk.Resolvable path
  canonical : ∀ path, Candidate rules disk root path → ∃ place, disk.canonicalPath path = .ok place

/-- An entry of the base that discovery looks into: a directory that is not to be skipped, or a
link to one. -/
def Neighbour (rules : Rules) (disk : Disk) (base : Path) (name : String) : Prop :=
  name ∉ rules.skipped ∧ ∃ loc, disk.find .followed base = .ok (.present loc .directory) ∧
    (disk.tree.get? (loc ++ [name]) = some .directory ∨
      (∃ target, disk.tree.get? (loc ++ [name]) = some (.link target)) ∧
        disk.stat .followed (base.child name) = .ok .directory)

/-- Discovery is refused nothing in the base, nor is a scan there, nor either of them in the
directories next to each other in the base. -/
structure Undisturbed (rules : Rules) (disk : Disk) (base : Path) : Prop where
  scan : Unrefused rules disk base
  links : LinksAnswer disk base
  scanNext : ∀ name, Neighbour rules disk base name → Unrefused rules disk (base.child name)
  linksNext : ∀ name, Neighbour rules disk base name → LinksAnswer disk (base.child name)

/-- A script lies in the directory itself. -/
def HoldsScript (rules : Rules) (disk : Disk) (dir : Path) : Prop :=
  ∃ loc name held, disk.find .followed dir = .ok (.present loc .directory) ∧
    disk.tree.get? (loc ++ [name]) = some held ∧ isScript rules (dir.child name) disk = .ok true

theorem leadsToDirectory_eq_true_iff : leadsToDirectory dir entry disk = .ok true ↔
    entry.2 = .directory ∨
      entry.2 = .link ∧ disk.stat .followed (dir.child entry.1) = .ok .directory := by
  unfold leadsToDirectory
  cases entry.2 with
  | directory => simp
  | file => simp
  | link =>
    rcases hstat : disk.stat .followed (dir.child entry.1) with why | held
    · cases why <;> simp
    · cases held <;> simp [Entry.kind]

theorem leadsToDirectory_answered (hlink : entry.2 = .link → Answers disk (dir.child entry.1)) :
    ∃ answer, leadsToDirectory dir entry disk = .ok answer := by
  unfold leadsToDirectory
  cases hkind : entry.2 with
  | directory => exact ⟨true, rfl⟩
  | file => exact ⟨false, rfl⟩
  | link =>
    rcases hstat : disk.stat .followed (dir.child entry.1) with why | held
    · rw [hlink hkind why hstat]
      exact ⟨false, rfl⟩
    · exact ⟨decide (held.kind = .directory), rfl⟩

theorem kind_eq_link_iff : held.kind = .link ↔ ∃ target, held = .link target := by
  cases held <;> simp [Entry.kind]

/-- What discovery looks into is a real directory, or a link to one. -/
theorem Neighbour.cases (hneighbour : Neighbour rules disk base name)
    (hbase : disk.find .followed base = .ok (.present loc .directory)) :
    disk.tree.get? (loc ++ [name]) = some .directory ∨
      (∃ target, disk.tree.get? (loc ++ [name]) = some (.link target)) ∧
        disk.stat .followed (base.child name) = .ok .directory := by
  obtain ⟨-, place, hplace, hheld⟩ := hneighbour
  cases hbase.symm.trans hplace
  exact hheld

/-- What discovery looks into leads to a directory. -/
theorem Neighbour.found (hbase : disk.find .followed base = .ok (.present loc .directory))
    (hsound : disk.Sound) (hunrefused : Unrefused rules disk base)
    (hnul : (base.child name).hasNul = false)
    (hneighbour : Neighbour rules disk base name) :
    ∃ place, disk.find .followed (base.child name) = .ok (.present place .directory) := by
  rcases hneighbour.cases hbase with hheld | ⟨⟨target, hlink⟩, hstat⟩
  · have hname := hsound.named hheld
    have hpath : disk.Resolvable (base.child name) := by
      refine hunrefused.resolvable _ .directory
        ⟨loc, [], name, hbase, .stay loc, by simpa using hheld, by simp⟩ ?_
      rw [Rules.Regards, Path.name_child]
      exact hneighbour.1
    obtain ⟨hnameable, hshort⟩ := hpath.child_fits hname hnul hbase
    have hfind := find_child_of_reached hname hshort hnameable hbase
    rw [hheld] at hfind
    exact ⟨_, find_followed_of_ne_link hfind (by simp)⟩
  · have hname := hsound.named hlink
    unfold stat at hstat
    obtain ⟨found, hfind, hfound⟩ := Except.ok_of_bind hstat
    cases found with
    | present place held =>
      cases hfound
      exact ⟨place, hfind⟩
    | vacant place => cases hfound
    | removed => exact absurd hfind (find_child_ne_removed hname)

theorem query_list_of_find (hfind : disk.find .followed dir = .ok (.present loc .directory)) :
    disk.query Disk.list dir = .ok (disk.tree.listing loc) := by
  simp [query, list, hfind, bind, Except.bind]

theorem linkAnswers (hsound : disk.Sound) (hlinks : LinksAnswer disk dir)
    (hfind : disk.find .followed dir = .ok (.present loc .directory))
    (hentry : entry ∈ disk.tree.listing loc) :
    ∃ answer, leadsToDirectory dir entry disk = .ok answer := by
  refine leadsToDirectory_answered fun hkind => ?_
  obtain ⟨held, hheld, hsame⟩ := hsound.mem_listing_iff.mp hentry
  obtain ⟨target, rfl⟩ := kind_eq_link_iff.mp (hsame.symm.trans hkind)
  exact hlinks loc _ target hfind hheld

/-! ## Scripts directly in a directory -/

/-- What lies directly in a directory and is no directory is asked about. -/
theorem Unrefused.isScript_child (hunrefused : Unrefused rules disk dir)
    (hfind : disk.find .followed dir = .ok (.present loc .directory))
    (hheld : disk.tree.get? (loc ++ [name]) = some held) (hother : held ≠ .directory) :
    ∃ script, isScript rules (dir.child name) disk = .ok script := by
  have hmeets : Meets rules disk dir (dir.child name) held :=
    ⟨loc, [], name, hfind, .stay loc, by simpa using hheld, by simp⟩
  refine isScript_answered (fun hsuffix => ?_) fun hsuffix hfile =>
    hunrefused.canonical _ ⟨⟨held, hmeets, hother⟩, hsuffix, hfile⟩
  refine hunrefused.resolvable _ held hmeets ?_
  cases held with
  | directory => exact absurd rfl hother
  | file bytes access => exact hsuffix
  | link target => exact hsuffix

theorem ok_of_hasScript (hsound : disk.Sound) (hunrefused : Unrefused rules disk dir)
    (hlinks : LinksAnswer disk dir)
    (hfind : disk.find .followed dir = .ok (.present loc .directory)) :
    ∃ answer, hasScript rules disk dir = .ok answer := by
  unfold hasScript
  rw [query_list_of_find hfind]
  refine ok_of_anyM fun entry hentry => ?_
  obtain ⟨leads, hleads⟩ := linkAnswers hsound hlinks hfind hentry
  rw [hleads]
  cases leads with
  | true => exact ⟨false, rfl⟩
  | false =>
    obtain ⟨held, hheld, hkind⟩ := hsound.mem_listing_iff.mp hentry
    refine hunrefused.isScript_child hfind hheld fun hdirectory => ?_
    subst hdirectory
    have htrue : leadsToDirectory dir entry disk = .ok true :=
      leadsToDirectory_eq_true_iff.mpr (.inl hkind)
    rw [hleads] at htrue
    cases htrue

/-- A script that lies directly in a directory is no directory itself. -/
theorem HoldsScript.cases (hsound : disk.Sound) (hholds : HoldsScript rules disk dir) :
    ∃ loc name held, disk.find .followed dir = .ok (.present loc .directory) ∧
      disk.tree.get? (loc ++ [name]) = some held ∧ held ≠ .directory ∧
      isScript rules (dir.child name) disk = .ok true ∧
      disk.stat .followed (dir.child name) ≠ .ok .directory := by
  obtain ⟨loc, name, held, hfind, hheld, hscript⟩ := hholds
  obtain ⟨-, hfile, -⟩ := isScript_eq_true_iff.mp hscript
  obtain ⟨place, bytes, access, hplace⟩ := isFile_eq_true_iff.mp hfile
  refine ⟨loc, name, held, hfind, hheld, ?_, hscript, by simp [stat, hplace, bind, Except.bind]⟩
  rintro rfl
  -- a real directory is found as what it is
  have hitself {found : Found} (hfound : disk.find .itself (dir.child name) = .ok found) :
      found = .present (loc ++ [name]) .directory := by
    obtain ⟨p, hp, -, ⟨-, hfree⟩ | ⟨entry, rfl, hentry⟩⟩ :=
      reached_of_find_child (hsound.named hheld) hfound <;> cases hfind.symm.trans hp
    · cases hheld.symm.trans hfree
    · cases hheld.symm.trans hentry
      rfl
  rcases disk.find_followed (dir.child name) with ⟨p, text, hlink⟩ | heq
  · cases hitself hlink
  · cases hitself (heq.symm.trans hplace)

theorem hasScript_iff {answer : Bool} (hsound : disk.Sound)
    (hfind : disk.find .followed dir = .ok (.present loc .directory))
    (hscript : hasScript rules disk dir = .ok answer) :
    answer = true ↔ HoldsScript rules disk dir := by
  unfold hasScript at hscript
  rw [query_list_of_find hfind] at hscript
  rcases cases_of_anyM hscript with ⟨rfl, entry, hentry, htest⟩ | ⟨rfl, hall⟩
  · obtain ⟨held, hheld, -⟩ := hsound.mem_listing_iff.mp hentry
    obtain ⟨leads, -, htest⟩ := Except.ok_of_bind htest
    cases leads with
    | true => cases htest
    | false => exact iff_of_true rfl ⟨loc, entry.1, held, hfind, hheld, htest⟩
  · refine iff_of_false (by simp) fun hholds => ?_
    obtain ⟨place, name, held, hplace, hheld, hother, hyes, hstat⟩ := hholds.cases hsound
    cases hfind.symm.trans hplace
    have hno := hall (name, held.kind) (hsound.mem_listing_iff.mpr ⟨held, hheld, rfl⟩)
    obtain ⟨leads, hleads, htest⟩ := Except.ok_of_bind hno
    cases leads with
    | true =>
      rcases leadsToDirectory_eq_true_iff.mp hleads with hkind | ⟨-, hdirectory⟩
      · exact hother (kind_eq_directory_iff.mp hkind)
      · exact hstat hdirectory
    | false => cases hyes.symm.trans htest

/-- A scan of a directory that holds a script finds it. -/
theorem HoldsScript.scripts_ne_nil {found : List Path} (hsound : disk.Sound)
    (hholds : HoldsScript rules disk dir) (hscripts : scripts rules disk dir = .ok found) :
    found ≠ [] := by
  obtain ⟨loc, name, held, hfind, hheld, hother, hscript, -⟩ := hholds.cases hsound
  have hcomes : Comes rules disk.tree loc [name] :=
    ⟨[], name, held, rfl, .stay loc, by simpa using hheld, hother⟩
  have hmem := ((Inventory.of_scripts hsound hfind hscripts).mem_iff (dir.child name)).mpr
    ⟨[name], hcomes, rfl, hscript⟩
  exact List.ne_nil_of_mem hmem

/-! ## Discovery -/

/-- The target that an entry of the base stands for. -/
def target? (rules : Rules) (disk : Disk) (base : Path) (entry : String × Kind) :
    Except Fault (Option Path) := do
  if !(← leadsToDirectory base entry disk) then return none
  if entry.1 ∈ rules.skipped then return none
  if ← hasScript rules disk (base.child entry.1) then return some (base.child entry.1)
  return none

theorem discover_eq (rules : Rules) (disk : Disk) (base : Path) : discover rules disk base =
    disk.query Disk.list base >>= fun entries =>
      entries.filterMapM (target? rules disk base) >>= fun targets =>
        pure (if targets = [] then [base] else targets) := rfl

theorem Neighbour.exists_held (hneighbour : Neighbour rules disk base name)
    (hbase : disk.find .followed base = .ok (.present loc .directory)) :
    ∃ held, disk.tree.get? (loc ++ [name]) = some held := by
  rcases hneighbour.cases hbase with hdirectory | ⟨⟨target, hlink⟩, -⟩
  · exact ⟨_, hdirectory⟩
  · exact ⟨_, hlink⟩

theorem Neighbour.leads (hneighbour : Neighbour rules disk base entry.1)
    (hbase : disk.find .followed base = .ok (.present loc .directory))
    (hheld : disk.tree.get? (loc ++ [entry.1]) = some held) (hkind : entry.2 = held.kind) :
    leadsToDirectory base entry disk = .ok true := by
  rw [leadsToDirectory_eq_true_iff]
  rcases hneighbour.cases hbase with hdirectory | ⟨⟨target, hlink⟩, hstat⟩
  · cases hheld.symm.trans hdirectory
    exact .inl hkind
  · cases hheld.symm.trans hlink
    exact .inr ⟨hkind, hstat⟩

theorem neighbour_of_leads (hsound : disk.Sound)
    (hbase : disk.find .followed base = .ok (.present loc .directory))
    (hentry : entry ∈ disk.tree.listing loc)
    (hleads : leadsToDirectory base entry disk = .ok true) (hskipped : entry.1 ∉ rules.skipped) :
    Neighbour rules disk base entry.1 := by
  obtain ⟨held, hheld, hkind⟩ := hsound.mem_listing_iff.mp hentry
  refine ⟨hskipped, loc, hbase, ?_⟩
  rcases leadsToDirectory_eq_true_iff.mp hleads with hdirectory | ⟨hlink, hstat⟩
  · rw [kind_eq_directory_iff.mp (hkind.symm.trans hdirectory)] at hheld
    exact .inl hheld
  · obtain ⟨target, rfl⟩ := kind_eq_link_iff.mp (hkind.symm.trans hlink)
    exact .inr ⟨⟨target, hheld⟩, hstat⟩

theorem eq_child_of_target? (htarget : target? rules disk base entry = .ok (some path)) :
    path = base.child entry.1 := by
  obtain ⟨leads, -, hnext⟩ := Except.ok_of_bind htarget
  cases leads with
  | false => cases hnext
  | true =>
    simp only [Bool.not_true, Bool.false_eq_true, if_false] at hnext
    split at hnext
    · cases hnext
    obtain ⟨script, -, hend⟩ := Except.ok_of_bind hnext
    cases script with
    | false => cases hend
    | true =>
      cases hend
      rfl

/-- An entry of the base that becomes a target. -/
def Promising (rules : Rules) (disk : Disk) (base : Path) (name : String) : Prop :=
  Neighbour rules disk base name ∧ HoldsScript rules disk (base.child name)

/-- An entry of the base is a target just where it is a promising one. -/
theorem target?_answered (hformed : disk.WellFormed)
    (hbase : disk.find .followed base = .ok (.present loc .directory))
    (hundisturbed : Undisturbed rules disk base) (hentry : entry ∈ disk.tree.listing loc) :
    (Promising rules disk base entry.1 ∧
      target? rules disk base entry = .ok (some (base.child entry.1))) ∨
    ¬Promising rules disk base entry.1 ∧ target? rules disk base entry = .ok none := by
  have hsound := hformed.sound
  obtain ⟨held, hheld, hkind⟩ := hsound.mem_listing_iff.mp hentry
  obtain ⟨leads, hleads⟩ := linkAnswers hsound hundisturbed.links hbase hentry
  simp only [target?, hleads]
  cases leads with
  | false =>
    refine .inr ⟨fun hpromising => ?_, rfl⟩
    have htrue := hpromising.1.leads hbase hheld hkind
    rw [hleads] at htrue
    cases htrue
  | true =>
    by_cases hskipped : entry.1 ∈ rules.skipped
    · refine .inr ⟨fun hpromising => hpromising.1.1 hskipped, ?_⟩
      simp [hskipped, bind, Except.bind, pure, Except.pure]
    have hneighbour := neighbour_of_leads hsound hbase hentry hleads hskipped
    have hnul : (base.child entry.1).hasNul = false := by
      rw [← Path.below_nil (base.child entry.1), ← Path.below_cons]
      exact hasNul_below hformed (nameable_of_find hbase).1 hheld
    obtain ⟨place, hplace⟩ := hneighbour.found hbase hsound hundisturbed.scan hnul
    obtain ⟨script, hscript⟩ := ok_of_hasScript hsound (hundisturbed.scanNext _ hneighbour)
      (hundisturbed.linksNext _ hneighbour) hplace
    have hiff := hasScript_iff hsound hplace hscript
    simp only [hskipped, hscript]
    cases script with
    | true => exact .inl ⟨⟨hneighbour, hiff.mp rfl⟩, rfl⟩
    | false => exact .inr ⟨fun hpromising => Bool.false_ne_true (hiff.mpr hpromising.2), rfl⟩

/-- The targets that discovery offers: the promising entries of the base in the order of their
names, or the base itself. -/
inductive Offered (rules : Rules) (disk : Disk) (base : Path) : List Path → Prop
  | base (hnone : ∀ name, ¬Promising rules disk base name) : Offered rules disk base [base]
  | neighbours {targets : List Path} (hsome : targets ≠ [])
      (hsorted : targets.Pairwise fun left right => left.name < right.name)
      (hmem : ∀ path, path ∈ targets ↔
        ∃ name, Promising rules disk base name ∧ path = base.child name) :
      Offered rules disk base targets

theorem offered_of_found (hformed : disk.WellFormed)
    (hbase : disk.find .followed base = .ok (.present loc .directory))
    (hundisturbed : Undisturbed rules disk base) :
    ∃ targets, discover rules disk base = .ok targets ∧ Offered rules disk base targets := by
  have htarget {entry} (hentry : entry ∈ disk.tree.listing loc) :=
    target?_answered hformed hbase hundisturbed hentry
  obtain ⟨targets, htargets⟩ : ∃ targets,
      (disk.tree.listing loc).filterMapM (target? rules disk base) = .ok targets :=
    ok_of_filterMapM fun entry hentry => by
      rcases htarget hentry with ⟨-, h⟩ | ⟨-, h⟩ <;> exact ⟨_, h⟩
  have hsome {entry : String × Kind} {path : Path} (hentry : entry ∈ disk.tree.listing loc)
      (hpath : target? rules disk base entry = .ok (some path)) :
      Promising rules disk base entry.1 ∧ path = base.child entry.1 := by
    rcases htarget hentry with ⟨hpromising, h⟩ | ⟨-, h⟩ <;> cases h.symm.trans hpath
    exact ⟨hpromising, rfl⟩
  have hmem (path : Path) : path ∈ targets ↔
      ∃ name, Promising rules disk base name ∧ path = base.child name := by
    constructor
    · intro hpath
      obtain ⟨entry, hentry, htest⟩ := (mem_filterMapM_iff htargets).mp hpath
      exact ⟨entry.1, hsome hentry htest⟩
    · rintro ⟨name, hpromising, rfl⟩
      obtain ⟨held, hheld⟩ := hpromising.1.exists_held hbase
      have hentry : (name, held.kind) ∈ disk.tree.listing loc :=
        hformed.sound.mem_listing_iff.mpr ⟨held, hheld, rfl⟩
      rcases htarget hentry with ⟨-, h⟩ | ⟨hnot, -⟩
      · exact (mem_filterMapM_iff htargets).mpr ⟨_, hentry, h⟩
      · exact absurd hpromising hnot
  rw [discover_eq, query_list_of_find hbase]
  by_cases hnil : targets = []
  · subst hnil
    refine ⟨[base], by simp [htargets, bind, Except.bind, pure, Except.pure], .base ?_⟩
    exact fun name hpromising => List.not_mem_nil ((hmem _).mpr ⟨name, hpromising, rfl⟩)
  · refine ⟨targets, by simp [htargets, bind, Except.bind, pure, Except.pure, hnil],
      .neighbours hnil ?_ hmem⟩
    refine pairwise_of_filterMapM (disk.tree.listing_pairwise loc) htargets ?_
    intro left right path path' hlt hleft hright
    rw [eq_child_of_target? hleft, eq_child_of_target? hright, Path.name_child, Path.name_child]
    exact hlt

theorem cases_of_list {listed : List (String × Kind)} (hlist : disk.list dir = .ok listed) :
    (∃ loc, disk.find .followed dir = .ok (.present loc .directory)) ∨
      disk.find .followed dir = .ok .removed := by
  obtain ⟨found, hfind, hend⟩ := Except.ok_of_bind hlist
  cases found with
  | present loc held =>
    cases held with
    | directory => exact .inl ⟨loc, hfind⟩
    | file bytes access => cases hend
    | link target => cases hend
  | vacant loc => cases hend
  | removed => exact .inr hfind

/-- Where a scan is refused nothing, discovery comes to its end as well. -/
theorem offered_of_undisturbed {listed : List (String × Kind)} (hformed : disk.WellFormed)
    (hlist : disk.list base = .ok listed) (hundisturbed : Undisturbed rules disk base) :
    ∃ targets found, discover rules disk base = .ok targets ∧
      scripts rules disk base = .ok found ∧ Offered rules disk base targets := by
  rcases cases_of_list hlist with ⟨loc, hbase⟩ | hremoved
  · obtain ⟨targets, htargets, hoffered⟩ := offered_of_found hformed hbase hundisturbed
    obtain ⟨found, hfound⟩ := ok_of_scripts hformed hbase hundisturbed.scan.resolvable
      hundisturbed.scan.canonical
    exact ⟨targets, found, htargets, hfound, hoffered⟩
  · have hnone (name : String) : ¬Promising rules disk base name := by
      rintro ⟨⟨-, loc, hbase, -⟩, -⟩
      cases hremoved.symm.trans hbase
    refine ⟨[base], [], ?_, scripts_of_removed hremoved, .base hnone⟩
    simp [discover_eq, query, list, hremoved, bind, Except.bind, pure, Except.pure]

theorem Offered.ne_nil {targets : List Path} (hoffered : Offered rules disk base targets) :
    targets ≠ [] := by
  cases hoffered with
  | base => exact List.cons_ne_nil _ _
  | neighbours hsome => exact hsome

theorem Offered.sorted {targets : List Path} (hoffered : Offered rules disk base targets) :
    targets.Pairwise fun left right => left.name < right.name := by
  cases hoffered with
  | base => exact List.pairwise_singleton _ _
  | neighbours _ hsorted => exact hsorted

/-- A scan of a promising entry of the base finds a script. -/
theorem Promising.scripts (hformed : disk.WellFormed) (hundisturbed : Undisturbed rules disk base)
    (hpromising : Promising rules disk base name) :
    ∃ found, scripts rules disk (base.child name) = .ok found ∧ found ≠ [] := by
  obtain ⟨hneighbour, hholds⟩ := hpromising
  obtain ⟨place, -, -, hplace, -⟩ := id hholds
  have hunrefused := hundisturbed.scanNext _ hneighbour
  obtain ⟨found, hfound⟩ :=
    ok_of_scripts hformed hplace hunrefused.resolvable hunrefused.canonical
  exact ⟨found, hfound, hholds.scripts_ne_nil hformed.sound hfound⟩

end Scan

/-! ## Selecting targets -/

/-- The directory below which targets are looked for. -/
def Settings.baseOn (settings : Settings) (disk : Disk) : Except Fault Path :=
  match settings.baseDir with
  | some path => disk.canonicalPath path
  | none => disk.workingDirectory >>= disk.canonicalPath

/-- To look twice is to look once. -/
theorem Act.look_bind {α β : Type} (question : Disk → Except Fault α)
    (next : α → Disk → Except Fault β) : (look question >>= fun answer => look (next answer) :
      Act σ β) = look fun disk => question disk >>= fun answer => next answer disk := by
  funext w
  cases hanswer : question w.disk with
  | error fault =>
    rw [bind_of_error (look_of_error hanswer), look_of_error]
    simp [hanswer, bind, Except.bind]
  | ok answer =>
    rw [bind_of_ok (look_of_ok hanswer)]
    cases hnext : next answer w.disk with
    | error fault => rw [look_of_error hnext, look_of_error (by rw [hanswer]; exact hnext)]
    | ok value => rw [look_of_ok hnext, look_of_ok (by rw [hanswer]; exact hnext)]

theorem Settings.resolvedBaseDir_eq (settings : Settings) :
    (settings.resolvedBaseDir : Act σ Path) = Act.look settings.baseOn := by
  unfold resolvedBaseDir baseOn
  cases settings.baseDir with
  | some path => rfl
  | none => exact Act.look_bind workingDirectory fun path disk => disk.canonicalPath path

theorem Disk.SameShape.baseOn {disk disk' : Disk} (hsame : disk.SameShape disk')
    (hsound : disk.Sound) (hsound' : disk'.Sound) (settings : Settings) :
    settings.baseOn disk' = settings.baseOn disk := by
  have hworking : disk'.workingDirectory = disk.workingDirectory := by
    rw [workingDirectory, workingDirectory, workingLoc?, workingLoc?, hsame.cwd]
  have hcanonical : disk'.canonicalPath = disk.canonicalPath :=
    funext fun path => hsame.canonicalPath hsound hsound'
  simp only [Settings.baseOn, hworking, hcanonical]

section Selection

variable {reporter : Reporter} {settings : Settings} {rules : Scan.Rules} {w : World σ}
  {base : Path} {targets found : List Path}

theorem Settings.baseOn_of_resolved
    (hbase : (settings.resolvedBaseDir : Act σ Path) w = .ok base w) :
    settings.baseOn w.disk = .ok base := by
  rw [resolvedBaseDir_eq] at hbase
  cases hanswer : settings.baseOn w.disk with
  | error fault =>
    rw [Act.look_of_error hanswer] at hbase
    cases hbase
  | ok answer =>
    rw [Act.look_of_ok hanswer] at hbase
    cases hbase
    rfl

theorem resolvedBaseDir_of_sameShape {w' : World σ} (hsame : w.disk.SameShape w'.disk)
    (hsound : w.disk.Sound) (hsound' : w'.disk.Sound)
    (hbase : (settings.resolvedBaseDir : Act σ Path) w = .ok base w) :
    (settings.resolvedBaseDir : Act σ Path) w' = .ok base w' := by
  rw [Settings.resolvedBaseDir_eq]
  refine Act.look_of_ok ?_
  rw [hsame.baseOn hsound hsound']
  exact Settings.baseOn_of_resolved hbase

/-- What a selection does to the world. -/
def World.selected (w : World σ) (reporter : Reporter) : World σ :=
  (w.said reporter .info "Scanning sibling directories...").said reporter .info
    "Scanning completed."

theorem World.sameShape_selected (w : World σ) (reporter : Reporter) :
    w.disk.SameShape (w.selected reporter).disk :=
  (sameShape_logged _ _).trans (sameShape_logged _ _)

theorem World.sound_selected (hsound : w.disk.Sound) : (w.selected reporter).disk.Sound :=
  (hsound.logged _).logged _

/-- A selection offers what discovery finds, unless that is the base and nothing lies below it. -/
theorem selectTargets_of_discover (hsound : w.disk.Sound)
    (hbase : (settings.resolvedBaseDir : Act σ Path) w = .ok base w)
    (hdiscover : Scan.discover rules w.disk base = .ok targets)
    (hscripts : Scan.scripts rules w.disk base = .ok found) :
    selectTargets reporter settings rules none none w =
      if targets = [base] ∧ found = [] then .error (.target .nothing) (w.selected reporter)
      else .ok targets (w.selected reporter) := by
  let w₁ := w.said reporter .info "Scanning sibling directories..."
  have hsound₁ : w₁.disk.Sound := hsound.logged _
  have hsame : w.disk.SameShape w₁.disk := sameShape_logged _ _
  have hbase₁ : (settings.resolvedBaseDir : Act σ Path) w₁ = .ok base w₁ :=
    resolvedBaseDir_of_sameShape hsame hsound hsound₁ hbase
  have hdiscover₁ : (Act.look (Scan.discover rules · base) : Act σ (List Path)) w₁ =
      .ok targets w₁ :=
    Act.look_of_ok ((hsame.discover hsound hsound₁).trans hdiscover)
  have hcount : (Act.look (Scan.count rules · base) : Act σ ℕ) (w.selected reporter) =
      .ok found.length (w.selected reporter) := by
    refine Act.look_of_ok ?_
    rw [Scan.count, (w.sameShape_selected reporter).scripts hsound (World.sound_selected hsound),
      hscripts]
    rfl
  rw [selectTargets, Act.bind_of_ok (reporter.info_eq _ w), Act.bind_of_ok hbase₁,
    Act.bind_of_ok hdiscover₁, Act.bind_of_ok (reporter.info_eq _ w₁)]
  by_cases hself : targets = [base]
  · rw [if_pos hself]
    refine (Act.bind_of_ok hcount).trans ?_
    have hlength := List.length_eq_zero_iff (l := found)
    by_cases hnil : found = []
    · rw [if_pos (hlength.mpr hnil), if_pos ⟨hself, hnil⟩]
      rfl
    · rw [if_neg (mt hlength.mp hnil), if_neg fun hboth => hnil hboth.2]
      rfl
  · rw [if_neg hself, if_neg fun hboth => hself hboth.1]
    rfl

theorem selectTargets_of_undisturbed (reporter : Reporter) {listed : List (String × Kind)}
    (hformed : w.disk.WellFormed)
    (hbase : (settings.resolvedBaseDir : Act σ Path) w = .ok base w)
    (hlist : w.disk.list base = .ok listed) (hundisturbed : Scan.Undisturbed rules w.disk base) :
    ∃ targets found, Scan.scripts rules w.disk base = .ok found ∧
      Scan.Offered rules w.disk base targets ∧
      selectTargets reporter settings rules none none w =
        if targets = [base] ∧ found = [] then .error (.target .nothing) (w.selected reporter)
        else .ok targets (w.selected reporter) := by
  obtain ⟨targets, found, hdiscover, hscripts, hoffered⟩ :=
    Scan.offered_of_undisturbed hformed hlist hundisturbed
  exact ⟨targets, found, hscripts, hoffered,
    selectTargets_of_discover hformed.sound hbase hdiscover hscripts⟩

/-- Where links that discovery follows can be followed, if they do not lead to nothing, and a
scan is refused nothing, a selection ends with a target or with the complaint that there is
nothing to walk. -/
theorem selectTargets_fails_for_nothing (hformed : w.disk.WellFormed)
    (hbase : (settings.resolvedBaseDir : Act σ Path) w = .ok base w)
    (hlist : ∃ listed, w.disk.list base = .ok listed)
    (hundisturbed : Scan.Undisturbed rules w.disk base) :
    (∃ targets w', selectTargets reporter settings rules none none w = .ok targets w' ∧
      targets ≠ []) ∨
    ∃ w', selectTargets reporter settings rules none none w = .error (.target .nothing) w' := by
  obtain ⟨listed, hlist⟩ := hlist
  obtain ⟨targets, found, -, hoffered, heq⟩ :=
    selectTargets_of_undisturbed reporter hformed hbase hlist hundisturbed
  rw [heq]
  split
  · exact .inr ⟨_, rfl⟩
  · exact .inl ⟨targets, _, rfl, hoffered.ne_nil⟩

end Selection

section Samples

namespace Scan

variable {rules : Rules} {disk : Disk} {base : Loc}

theorem unrefused_of_followable (hsound : disk.Sound) (hfollow : disk.tree.Followable)
    (hentries : ∀ x ∈ disk.tree.entries,
      (locPath x.1).Fitting ∧ ∀ name ∈ x.1, '/' ∉ name.toList)
    (hbase : disk.tree.get? base = some .directory) : Unrefused rules disk (locPath base) where
  resolvable path held hmeets _ := by
    obtain ⟨loc, rfl, hmem⟩ := hmeets.location hsound hbase
    exact resolvable_of_followable hfollow (hentries _ hmem).1
  canonical path hpath := by
    obtain ⟨⟨held, hmeets, -⟩, -, hfile⟩ := hpath
    obtain ⟨loc, rfl, hmem⟩ := hmeets.location hsound hbase
    obtain ⟨place, hplace⟩ := hsound.canonicalPath_of_isFile hfollow (hentries _ hmem).2 hfile
    exact ⟨locPath place, hplace⟩

/-- Links that lead to files or to nothing do not disturb discovery. -/
theorem undisturbed_of_links (hsound : disk.Sound) (hfollow : disk.tree.Followable)
    (hentries : ∀ x ∈ disk.tree.entries,
      (locPath x.1).Fitting ∧ ∀ name ∈ x.1, '/' ∉ name.toList)
    (hlinks : ∀ x ∈ disk.tree.entries, x.2.kind = .link →
      (disk.stat .followed (locPath x.1)).map Entry.kind ∈ [.ok .file, .error .notFound])
    (hbase : disk.tree.get? base = some .directory) : Undisturbed rules disk (locPath base) := by
  have hlink {loc : Loc} {name target : String}
      (hheld : disk.tree.get? (loc ++ [name]) = some (.link target)) :
      (disk.stat .followed ((locPath loc).child name)).map Entry.kind ∈
        [.ok .file, .error .notFound] := by
    rw [locPath_child]
    exact hlinks _ ((Tree.mem_entries_iff hsound.rooted).mpr ⟨by simp, hheld⟩) rfl
  have hanswer {dir : Loc} (hdir : disk.tree.get? dir = some .directory) :
      LinksAnswer disk (locPath dir) := by
    intro loc name target hfind hheld why hwhy
    cases hsound.loc_of_find_locPath hdir nofun hfind
    simpa [hwhy, Except.map] using hlink hheld
  have hnext {name : String} (hneighbour : Neighbour rules disk (locPath base) name) :
      disk.tree.get? (base ++ [name]) = some .directory := by
    obtain ⟨-, loc, hfind, hdirectory | ⟨⟨target, hheld⟩, hstat⟩⟩ := hneighbour
    · cases hsound.loc_of_find_locPath hbase nofun hfind
      exact hdirectory
    · cases hsound.loc_of_find_locPath hbase nofun hfind
      simpa [hstat, Except.map, Entry.kind] using hlink hheld
  exact {
    scan := unrefused_of_followable hsound hfollow hentries hbase
    links := hanswer hbase
    scanNext := fun name hneighbour => by
      rw [locPath_child]
      exact unrefused_of_followable hsound hfollow hentries (hnext hneighbour)
    linksNext := fun name hneighbour => by
      rw [locPath_child]
      exact hanswer (hnext hneighbour) }

end Scan

/-- Directories next to each other, two of them with scripts, and links to a script and to
nothing. -/
def Sample.shelves : Disk := Sample.disk
  [(["d"], .directory), (["d", "gone.js"], .link "nowhere"), (["d", "one.js"], .link "x/a.js"),
    (["d", "x"], .directory), (["d", "x", "a.js"], .file [97] {}), (["d", "y"], .directory),
    (["d", "y", "b.js"], .file [98] {}), (["d", "z"], .directory)]

def Sample.shelved : Settings := { baseDir := some (locPath ["d"]) }

theorem Sample.shelves_undisturbed :
    Sample.shelves.WellFormed ∧
      (Sample.shelved.resolvedBaseDir : Act Unit Path) (Sample.world Sample.shelves) =
        .ok (locPath ["d"]) (Sample.world Sample.shelves) ∧
      (∃ listed, Sample.shelves.list (locPath ["d"]) = .ok listed) ∧
      Scan.Undisturbed (.ofSettings Sample.shelved []) Sample.shelves (locPath ["d"]) := by
  have hformed : Sample.shelves.WellFormed := ⟨by decide, by decide⟩
  have hbase : Sample.shelved.baseOn Sample.shelves = .ok (locPath ["d"]) := by
    decide +kernel
  have hfind : Sample.shelves.find .followed (locPath ["d"]) = .ok (.present ["d"] .directory) := by
    decide +kernel
  refine ⟨hformed, ?_, ⟨Sample.shelves.tree.listing ["d"], ?_⟩, ?_⟩
  · rw [Settings.resolvedBaseDir_eq]
    exact Act.look_of_ok hbase
  · simp [list, hfind, bind, Except.bind]
  · exact Scan.undisturbed_of_links hformed.sound (by decide +kernel) (by decide +kernel)
      (by decide +kernel) (by decide +kernel)

theorem shelves_selected :
    Sample.shelves.WellFormed ∧
      Scan.Undisturbed (.ofSettings Sample.shelved []) Sample.shelves (locPath ["d"]) ∧
      ((∃ targets w', selectTargets Sample.tidying.reporter Sample.shelved
          (.ofSettings Sample.shelved []) none none (Sample.world Sample.shelves) =
            .ok targets w' ∧ targets ≠ []) ∨
        ∃ w', selectTargets Sample.tidying.reporter Sample.shelved
          (.ofSettings Sample.shelved []) none none (Sample.world Sample.shelves) =
            .error (.target .nothing) w') := by
  obtain ⟨hformed, hbase, hlist, hundisturbed⟩ := Sample.shelves_undisturbed
  exact ⟨hformed, hundisturbed, selectTargets_fails_for_nothing hformed hbase hlist hundisturbed⟩

/-- A link to itself next to a directory with a script ends a selection. -/
theorem selection_ended_by_circle :
    (Sample.siblings "l").WellFormed ∧
      (Sample.siblings "l").list (locPath ["b"]) = .ok [("l", .link), ("r", .directory)] ∧
      ∃ w', selectTargets Sample.tidying.reporter { baseDir := some (locPath ["b"]) }
        (.ofSettings {} []) none none (Sample.world (Sample.siblings "l")) =
          .error (.refused .loop (some "/b/l") none) w' :=
  ⟨⟨by decide, by decide⟩, by decide +kernel, _, Act.eq_of_result_error (by decide +kernel)⟩

end Samples

end Unscramble
