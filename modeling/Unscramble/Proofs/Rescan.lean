import Unscramble.Proofs.Clearing
import Unscramble.Proofs.Selection
import Unscramble.Proofs.Staging

/-!
# What a sweep leaves to a scan

A sweep takes away entries of one name that lead to directories, and what lies in them.  A scan
and discovery pass over just these entries.  So where no link leads past an entry of that name, all
that is on the way of a scan stays, and a scan of the root finds after the sweep what it found
before.
-/

namespace Unscramble

open Disk

variable {σ : Type}

namespace Disk

variable {disk disk' : Disk} {tree : Tree} {root path : Path} {base loc place : Loc}
  {name next : String} {here there : Track} {names rest : List String}

/-! ## Ways past no entry of the name -/

/-- These names are followed past no entry called `name`. -/
def Avoids (tree : Tree) (name : String) (here : Track) (names : List String) : Prop :=
  ∀ there rest, Follows tree here names there (name :: rest) →
    tree.get? (there.loc ++ [name]) = none

/-- No link leads past an entry called `name`, or to such an entry. -/
def LinksAvoid (name : String) (disk : Disk) : Prop :=
  ∀ (here : Track) last target, disk.tree.get? (here.loc ++ [last]) = some (.link target) →
    Avoids disk.tree name (here.jump target) (Path.components target)

/-- Where neither the names nor the links on their way spell the name, they avoid it. -/
theorem avoids_of_unspelt (hnames : name ∉ names)
    (hlinks : ∀ loc target, tree.get? loc = some (.link target) → name ∉ Path.components target) :
    Avoids tree name here names := by
  intro there rest hfollows
  generalize hleft : name :: rest = left at hfollows
  induction hfollows with
  | refl =>
    subst hleft
    exact absurd List.mem_cons_self hnames
  | skip _ _ ih => exact ih (fun hmem => hnames (List.mem_cons_of_mem _ hmem)) hleft
  | up _ ih => exact ih (fun hmem => hnames (List.mem_cons_of_mem _ hmem)) hleft
  | down _ _ _ _ ih => exact ih (fun hmem => hnames (List.mem_cons_of_mem _ hmem)) hleft
  | jump _ hlink _ ih =>
    refine ih (fun hmem => ?_) hleft
    rcases List.mem_append.mp hmem with hmem | hmem
    · exact hlinks _ _ hlink hmem
    · exact hnames (List.mem_cons_of_mem _ hmem)

theorem linksAvoid_of_unspelt (hrooted : disk.tree.Rooted)
    (hlinks : ∀ x ∈ disk.tree.entries, ∀ target ∈ x.2.target?, name ∉ Path.components target) :
    LinksAvoid name disk := by
  have hspelt {loc : Loc} {target : String} (hlink : disk.tree.get? loc = some (.link target)) :
      name ∉ Path.components target :=
    hlinks (loc, .link target) ((Tree.mem_entries_iff hrooted).mpr
      ⟨Tree.ne_nil_of_get? hlink (by simp), hlink⟩) target rfl
  exact fun here last target hlink =>
    avoids_of_unspelt (hspelt hlink) fun _ _ hother => hspelt hother

theorem not_covered_jump (hhere : ¬Covered base name here.loc) (target : String) :
    ¬Covered base name (here.jump target).loc := by
  unfold Track.jump
  split
  · exact fun hcovered => by simpa using hcovered.2
  · exact hhere

/-- Off the entries of the name, a way past none of them stays off. -/
theorem Avoids.not_covered (havoids : Avoids tree name here names)
    (hhere : ¬Covered base name here.loc) (hfollows : Follows tree here names there rest) :
    ¬Covered base name there.loc := by
  induction hfollows with
  | refl => exact hhere
  | skip hskip _ ih => exact ih (fun _ _ hmore => havoids _ _ (.skip hskip hmore)) hhere
  | up _ ih =>
    exact ih (fun _ _ hmore => havoids _ _ (.up hmore))
      fun hcovered => hhere (hcovered.below (List.dropLast_prefix _))
  | down hname hheld hother _ ih =>
    refine ih (fun _ _ hmore => havoids _ _ (.down hname hheld hother hmore))
      (not_covered_child hhere ?_)
    rintro rfl
    cases hheld.symm.trans (havoids _ _ (.refl _ _))
  | jump hname hlink _ ih =>
    exact ih (fun _ _ hmore => havoids _ _ (.jump hname hlink hmore)) (not_covered_jump hhere _)

theorem Avoids.keeps (havoids : Avoids tree name here names) (hhere : ¬Covered base name here.loc) :
    Keeps tree (¬Covered base name ·) here names where
  place hfollows := havoids.not_covered hhere hfollows
  entry hfollows _ hheld := by
    refine not_covered_child (havoids.not_covered hhere hfollows) ?_
    rintro rfl
    cases hheld.symm.trans (havoids _ _ hfollows)

/-! ## Directories that are reached past no entry of the name -/

/-- The path leads to the directory at `loc`, and nothing on its way lies at or below an entry
called `name` in the directory at `base`. -/
structure Clear (base : Loc) (name : String) (disk : Disk) (path : Path) (loc : Loc) : Prop where
  found : disk.find .followed path = .ok (.present loc .directory)
  way : ∃ start, disk.start? path.anchor = some start ∧
    Keeps disk.tree (¬Covered base name ·) (.origin path start) path.parts
  readable : ∀ part ∈ path.parts, part ≠ "" ∧ '/' ∉ part.toList

theorem Through.clear (hway : disk.Through (¬Covered base name ·) path loc)
    (hslash : disk.tree.Slashless) : Clear base name disk path loc := by
  obtain ⟨start, hstart, hpasses⟩ := hway.passes
  exact ⟨hway.found, ⟨start, hstart, .of_passes hpasses⟩, hpasses.readable hslash⟩

namespace Clear

variable (hclear : Clear base name disk path loc)

include hclear

theorem route {start : Loc} (hstart : disk.start? path.anchor = some start) :
    Disk.route disk.tree .followed linkMax (Track.origin path start).loc path.parts =
      .ok (.present loc .directory) := by
  rw [← hclear.found, find_of_start (nameable_of_find hclear.found) hstart]
  rfl

theorem uncovered : ¬Covered base name loc := by
  obtain ⟨start, hstart, hkeeps⟩ := hclear.way
  obtain ⟨there, hfollows, rfl⟩ := Follows.of_route (hclear.route hstart)
  exact hkeeps.place hfollows

/-- The way to an entry of the directory comes to that entry, and to what it leads to if it is a
link. -/
theorem keeps_child {P : Loc → Prop} (hkept : ∀ loc, ¬Covered base name loc → P loc)
    (hlinks : LinksAvoid name disk) (hnext : Path.Ordinary next)
    (hheld : ∀ held, disk.tree.get? (loc ++ [next]) = some held → P (loc ++ [next])) :
    ∃ start, disk.start? (path.child next).anchor = some start ∧ ¬Covered base name start ∧
      Keeps disk.tree P (.origin (path.child next) start) (path.child next).parts := by
  obtain ⟨start, hstart, hkeeps⟩ := hclear.way
  refine ⟨start, hstart, hkeeps.place (.refl _ _),
    (hkeeps.mono hkept).child hclear.found hstart hnext hheld fun target mid hlink hmid => ?_⟩
  subst hmid
  exact ((hlinks mid next target hlink).keeps (not_covered_jump hclear.uncovered target)).mono hkept

theorem readable_child (hslash : disk.tree.Slashless) (hnext : Path.Ordinary next) {held : Entry}
    (hheld : disk.tree.get? (loc ++ [next]) = some held) :
    ∀ part ∈ (path.child next).parts, part ≠ "" ∧ '/' ∉ part.toList := by
  intro part hpart
  rcases List.mem_append.mp hpart with hpart | hpart
  · exact hclear.readable part hpart
  · rw [List.mem_singleton.mp hpart]
    exact ⟨hnext.1.1, hslash _ _ _ hheld⟩

/-- Going on to a directory of another name, or by a link of another name, is clear too. -/
theorem child (hlinks : LinksAvoid name disk) (hslash : disk.tree.Slashless)
    (hnext : Path.Ordinary next) (hother : next ≠ name) {held : Entry}
    (hheld : disk.tree.get? (loc ++ [next]) = some held)
    (hfind : disk.find .followed (path.child next) = .ok (.present place .directory)) :
    Clear base name disk (path.child next) place where
  found := hfind
  way := by
    obtain ⟨start, hstart, -, hkeeps⟩ := hclear.keeps_child (fun _ huncovered => huncovered) hlinks
      hnext fun _ _ => not_covered_child hclear.uncovered hother
    exact ⟨start, hstart, hkeeps⟩
  readable := hclear.readable_child hslash hnext hheld

end Clear

/-! ## The same questions after a sweep -/

theorem Swept.start? (hswept : Swept base name disk disk') {anchor : Anchor} {start : Loc}
    (hstart : disk.start? anchor = some start) (huncovered : ¬Covered base name start) :
    disk'.start? anchor = some start := by
  cases anchor with
  | here => exact hswept.workingLoc? hstart huncovered
  | root => exact hstart
  | doubleRoot => exact hstart

/-- Where a link in the root leads to a directory below the root, an entry called `name` there that
is no directory itself, but leads to one, does so too on the way by that link. -/
def LinkedAlike (root : Path) (base : Loc) (name : String) (disk : Disk) : Prop :=
  ∀ next dir held,
    disk.find .followed (root.child next) = .ok (.present (base ++ dir) .directory) →
    disk.tree.get? (base ++ (dir ++ [name])) = some held → held ≠ .directory →
    disk.isDirectory (root.below (dir ++ [name])) = .ok true →
      disk.isDirectory ((root.child next).child name) = .ok true

/-- A disk before and after a sweep of `root`, which lies at `base`, where no link leads past an
entry of the name and every script can be searched for. -/
structure Tidied (root : Path) (base : Loc) (name : String) (rules : Scan.Rules)
    (disk disk' : Disk) : Prop where
  sound : disk.Sound
  slashless : disk.tree.Slashless
  links : LinksAvoid name disk
  searchable : ∀ names, Text.lowerString (root.below names).suffix ∈ rules.extensions →
    disk.isFile (root.below names) = .ok true → disk.Searchable (root.below names)
  swept : Swept base name disk disk'
  clearing : ∃ removed, Clearing root base name disk removed disk'

namespace Tidied

variable {rules : Scan.Rules} {way : Loc} {held : Entry}
  (htidied : Tidied root base name rules disk disk')

include htidied

theorem missing (loc : Loc) (hloc : disk.tree.get? loc = none) : disk'.tree.get? loc = none := by
  rcases htidied.swept.thinner.tree loc with hgone | hshape
  · exact hgone
  · simpa [Tree.shape, hloc] using hshape

theorem leadsAlike (hclear : Clear base name disk path loc) : disk.LeadsAlike disk' path := by
  obtain ⟨start, hstart, hkeeps⟩ := hclear.way
  exact .of_keeps htidied.missing hstart
    (htidied.swept.start? hstart (hkeeps.place (.refl _ _))) (hkeeps.mono htidied.swept.shape)

theorem leadsAlike_child (hclear : Clear base name disk path loc) (hnext : Path.Ordinary next)
    (hkept : disk'.tree.get? (loc ++ [next]) ≠ none) : disk.LeadsAlike disk' (path.child next) := by
  obtain ⟨start, hstart, huncovered, hkeeps⟩ := hclear.keeps_child htidied.swept.shape htidied.links
    hnext fun _ _ => (htidied.swept.thinner.tree _).resolve_left hkept
  exact .of_keeps htidied.missing hstart (htidied.swept.start? hstart huncovered) hkeeps

/-- An entry that has stayed is a script as before. -/
theorem isScript_child (hclear : Clear base name disk (root.below way) loc)
    (hheld : disk.tree.get? (loc ++ [next]) = some held)
    (hkept : disk'.tree.get? (loc ++ [next]) ≠ none) :
    Scan.isScript rules ((root.below way).child next) disk' =
      Scan.isScript rules ((root.below way).child next) disk := by
  have hnext := htidied.sound.named hheld
  have halike := htidied.leadsAlike_child hclear hnext hkept
  refine halike.isScript fun hsuffix hfile => ?_
  obtain ⟨place, bytes, access, hfind⟩ : ∃ place bytes access,
      disk'.find .followed ((root.below way).child next) =
        .ok (.present place (.file bytes access)) := by
    refine isFile_eq_true_iff.mp ?_
    rw [← hfile, isFile, isFile, halike.ask_kind]
  have hsearch : disk.Searchable ((root.below way).child next) := by
    rw [Path.child_below] at hsuffix hfile ⊢
    exact htidied.searchable _ hsuffix hfile
  obtain ⟨start, hstart, huncovered, -⟩ := hclear.keeps_child htidied.swept.shape htidied.links
    hnext fun _ _ => (htidied.swept.thinner.tree _).resolve_left hkept
  exact htidied.sound.canonicalPath_thinner htidied.swept.sound htidied.swept.thinner hstart
    (htidied.swept.start? hstart huncovered) (hclear.readable_child htidied.slashless hnext hheld)
    hsearch hfind

/-- An entry that has gone has the name, and it led to a directory as the sweep met it. -/
theorem gone (hclear : Clear base name disk path loc)
    (hheld : disk.tree.get? (loc ++ [next]) = some held)
    (hgone : disk'.tree.get? (loc ++ [next]) = none) :
    next = name ∧ ∃ dir, loc = base ++ dir ∧
      disk.isDirectory (root.below (dir ++ [name])) = .ok true := by
  obtain ⟨removed, hclearing⟩ := htidied.clearing
  obtain ⟨dir, hpre, hleads⟩ := hclearing.gone htidied.sound hheld hgone
  rw [← List.append_assoc] at hpre
  rcases List.prefix_concat_iff.mp hpre with heq | hbelow
  · obtain ⟨rfl, hlast⟩ := List.append_inj' heq rfl
    exact ⟨(List.singleton_inj.mp hlast).symm, dir, rfl, hleads⟩
  · exact absurd (covered_of_below (List.prefix_append base dir) hbelow) hclear.uncovered

/-- The directory is listed without what has gone. -/
theorem query_list (hclear : Clear base name disk path loc) :
    disk'.query Disk.list path = .ok ((disk.tree.listing loc).filter fun entry =>
      (disk'.tree.get? (loc ++ [entry.1])).isSome) := by
  rw [Scan.query_list_of_find ((htidied.leadsAlike hclear).find_eq_directory_iff.mpr hclear.found),
    htidied.sound.listing_eq_filter htidied.swept.sound
      fun next => (htidied.swept.thinner.tree (loc ++ [next])).symm]

end Tidied

end Disk

namespace Scan

variable {rules : Rules} {disk disk' : Disk} {root path : Path} {base loc way : Loc}
  {name : String} {entry : String × Kind} {held : Entry}

/-! ## The scan -/

section Unlisted

variable (halike : disk.LeadsAlike disk' path) (hunlisted : ∀ listed, disk.list path ≠ .ok listed)

include halike hunlisted

theorem query_list_of_unlisted : ∃ fault, disk.query Disk.list path = .error fault ∧
    disk'.query Disk.list path = .error fault := by
  cases hlist : disk.list path with
  | ok listed => exact absurd hlist (hunlisted listed)
  | error why =>
    have hlist' : disk'.list path = .error why := by
      rw [halike.list fun loc hfind => ?_, hlist]
      simp [list, hfind, bind, Except.bind] at hlist
    exact ⟨_, by rw [query, hlist], by rw [query, hlist']⟩

/-- What cannot be listed ends a scan in the same way. -/
theorem foldM_of_unlisted {β : Type} (visit : β → Path → Except Fault β) (depth : Nat) (acc : β) :
    foldM (fun question => question disk') rules visit depth path acc =
      foldM (fun question => question disk) rules visit depth path acc := by
  cases depth with
  | zero => rfl
  | succ depth =>
    obtain ⟨fault, hlist, hlist'⟩ := query_list_of_unlisted halike hunlisted
    rw [foldM_succ, foldM_succ]
    dsimp only
    simp only [hlist, hlist', bind, Except.bind]

theorem hasScript_of_unlisted : hasScript rules disk' path = hasScript rules disk path := by
  obtain ⟨fault, hlist, hlist'⟩ := query_list_of_unlisted halike hunlisted
  rw [hasScript, hasScript, hlist, hlist']
  simp only [bind, Except.bind]

end Unlisted

/-- What an entry leads to can be listed only if it is a directory. -/
theorem unlisted_child (hname : Path.Ordinary name)
    (hfind : ∀ place, disk.find .followed (path.child name) ≠ .ok (.present place .directory))
    (listed : List (String × Kind)) : disk.list (path.child name) ≠ .ok listed := by
  intro hlist
  rcases cases_of_list hlist with ⟨place, hplace⟩ | hremoved
  · exact hfind place hplace
  · exact find_child_ne_removed hname hremoved

/-- Entries that pass a test in vain can be left out. -/
theorem anyM_filter {test test' : String × Kind → Except Fault Bool} {keep : String × Kind → Bool}
    {entries : List (String × Kind)}
    (hkept : ∀ entry ∈ entries, keep entry = true → test' entry = test entry)
    (hidle : ∀ entry ∈ entries, keep entry = false → test entry = .ok false) :
    anyM test' (entries.filter keep) = anyM test entries := by
  induction entries with
  | nil => rfl
  | cons entry rest ih =>
    obtain ⟨hsame, hkept⟩ := List.forall_mem_cons.mp hkept
    obtain ⟨hstill, hidle⟩ := List.forall_mem_cons.mp hidle
    cases hentry : keep entry with
    | true =>
      rw [List.filter_cons_of_pos hentry, anyM, anyM, hsame hentry, ih hkept hidle]
    | false =>
      rw [List.filter_cons_of_neg (by simp [hentry]), anyM, hstill hentry]
      exact ih hkept hidle

variable {place : Loc}

/-- It can be told of an entry whether it leads to a directory, if it does. -/
theorem leadsToDirectory_of_leads
    (hleads : disk.find .followed (path.child entry.1) = .ok (.present place .directory)) :
    leadsToDirectory path entry disk = .ok (decide (entry.2 ≠ .file)) := by
  unfold leadsToDirectory
  cases entry.2 with
  | directory => rfl
  | file => rfl
  | link => simp [stat, hleads, bind, Except.bind, Entry.kind]

/-- What leads to a directory is no script. -/
theorem isScript_of_leads
    (hleads : disk.find .followed path = .ok (.present place .directory)) :
    isScript rules path disk = .ok false :=
  isScript_of_isFile_eq_false (ask_of_present hleads _)

section Tidied

variable (htidied : Tidied root base name rules disk disk') (hskipped : name ∈ rules.skipped)

include htidied

/-- What has gone from the directory led to one on the way of the scan. -/
theorem leads_of_gone (hclear : Clear base name disk (root.below way) (base ++ way))
    (hheld : disk.tree.get? (base ++ way ++ [entry.1]) = some held)
    (hgone : disk'.tree.get? (base ++ way ++ [entry.1]) = none) : entry.1 = name ∧
      ∃ place, disk.find .followed ((root.below way).child entry.1) =
        .ok (.present place .directory) := by
  obtain ⟨hname, dir, hdir, hleads⟩ := htidied.gone hclear hheld hgone
  cases List.append_cancel_left hdir
  rw [← hname, ← Path.child_below, Disk.isDirectory_child_iff (htidied.sound.named hheld)] at hleads
  exact ⟨hname, hleads⟩

include hskipped

/-- The scan of a directory on the way of the sweep does the same before and after it. -/
theorem foldM_tidied {β : Type} (visit : β → Path → Except Fault β) (depth : Nat) {acc : β}
    (hclear : Clear base name disk (root.below way) (base ++ way)) :
    foldM (fun question => question disk') rules visit depth (root.below way) acc =
      foldM (fun question => question disk) rules visit depth (root.below way) acc := by
  induction depth generalizing way acc with
  | zero => rfl
  | succ depth ih =>
    rw [foldM_succ, foldM_succ]
    dsimp only
    rw [htidied.query_list hclear, query_list_of_find hclear.found]
    simp only [bind, Except.bind]
    refine foldlM_filter (fun entry hentry hkept acc => ?_) (fun entry hentry hgone acc => ?_) acc
    · obtain ⟨held, hheld, hkind⟩ := htidied.sound.mem_listing_iff.mp hentry
      have hstays : disk'.tree.get? (base ++ way ++ [entry.1]) ≠ none :=
        Option.isSome_iff_ne_none.mp hkept
      have hname := htidied.sound.named hheld
      simp only [entryM]
      by_cases hdirectory : entry.2 = .directory
      · simp only [if_pos hdirectory]
        split
        · rfl
        next hentered =>
        by_cases hfound : ∃ place, disk.find .followed ((root.below way).child entry.1) =
            .ok (.present place .directory)
        · obtain ⟨place, hplace⟩ := hfound
          have hother : entry.1 ≠ name := fun heq => hentered (heq ▸ hskipped)
          have hnext := hclear.child htidied.links htidied.slashless hname hother hheld hplace
          rw [kind_eq_directory_iff.mp (hkind.symm.trans hdirectory)] at hheld
          rw [leads_child htidied.sound hclear.found hheld place hplace, Path.child_below,
            List.append_assoc] at hnext
          rw [Path.child_below]
          exact ih hnext
        · push Not at hfound
          exact foldM_of_unlisted (htidied.leadsAlike_child hclear hname hstays)
            (unlisted_child hname hfound) visit depth acc
      · simp only [if_neg hdirectory, htidied.isScript_child hclear hheld hstays]
    · obtain ⟨held, hheld, hkind⟩ := htidied.sound.mem_listing_iff.mp hentry
      obtain ⟨rfl, place, hleads⟩ := leads_of_gone htidied hclear hheld (by simpa using hgone)
      simp only [entryM, if_pos hskipped, isScript_of_leads hleads]
      split <;> rfl

omit hskipped in
/-- Whether a script lies directly in a directory, which may be reached by a link in the root. -/
theorem hasScript_tidied (hclear : Clear base name disk (root.below way) loc)
    (hmet : ∀ dir held, loc = base ++ dir → disk.tree.get? (loc ++ [name]) = some held →
      held ≠ .directory → disk.isDirectory (root.below (dir ++ [name])) = .ok true →
        disk.isDirectory ((root.below way).child name) = .ok true) :
    hasScript rules disk' (root.below way) = hasScript rules disk (root.below way) := by
  rw [hasScript, hasScript, htidied.query_list hclear, query_list_of_find hclear.found]
  simp only [bind, Except.bind]
  refine anyM_filter (fun entry hentry hkept => ?_) fun entry hentry hgone => ?_
  · obtain ⟨held, hheld, -⟩ := htidied.sound.mem_listing_iff.mp hentry
    have hstays : disk'.tree.get? (loc ++ [entry.1]) ≠ none := Option.isSome_iff_ne_none.mp hkept
    rw [(htidied.leadsAlike_child hclear (htidied.sound.named hheld) hstays).leadsToDirectory,
      htidied.isScript_child hclear hheld hstays]
  · obtain ⟨held, hheld, hkind⟩ := htidied.sound.mem_listing_iff.mp hentry
    obtain ⟨rfl, dir, hdir, hleads⟩ := htidied.gone hclear hheld (by simpa using hgone)
    by_cases hdirectory : held = .directory
    · rw [leadsToDirectory_eq_true_iff.mpr (.inl (by rw [hkind, hdirectory]; rfl))]
      rfl
    · obtain ⟨place, hplace⟩ := (Disk.isDirectory_child_iff (htidied.sound.named hheld)).mp
        (hmet dir held hdir hheld hdirectory hleads)
      rw [leadsToDirectory_of_leads hplace, isScript_of_leads hplace]
      cases decide (entry.2 ≠ .file) <;> rfl

/-- An entry of the root that has stayed stands for the target it stood for. -/
theorem target?_tidied (hclear : Clear base name disk root base)
    (hmet : LinkedAlike root base name disk)
    (hheld : disk.tree.get? (base ++ [entry.1]) = some held)
    (hstays : disk'.tree.get? (base ++ [entry.1]) ≠ none) :
    target? rules disk' root entry = target? rules disk root entry := by
  have hname := htidied.sound.named hheld
  have halike := htidied.leadsAlike_child hclear hname hstays
  unfold target?
  rw [halike.leadsToDirectory]
  by_cases hentered : entry.1 ∈ rules.skipped
  · simp only [if_pos hentered]
  suffices hscript : hasScript rules disk' (root.child entry.1) =
      hasScript rules disk (root.child entry.1) by rw [hscript]
  by_cases hfound : ∃ place, disk.find .followed (root.child entry.1) =
      .ok (.present place .directory)
  · obtain ⟨place, hplace⟩ := hfound
    have hother : entry.1 ≠ name := fun heq => hentered (heq ▸ hskipped)
    have hnext := hclear.child htidied.links htidied.slashless hname hother hheld hplace
    rw [← Path.below_nil (root.child entry.1), ← Path.below_cons] at hnext hplace ⊢
    refine hasScript_tidied htidied hnext fun dir held hdir hheld hother hleads => ?_
    rw [Path.below_cons, Path.below_nil] at hplace ⊢
    subst hdir
    exact hmet entry.1 dir held hplace (by simpa using hheld) hother hleads
  · push Not at hfound
    exact hasScript_of_unlisted halike (unlisted_child hname hfound)

theorem discover_tidied (hclear : Clear base name disk root base)
    (hmet : LinkedAlike root base name disk) :
    discover rules disk' root = discover rules disk root := by
  rw [discover_eq, discover_eq, htidied.query_list hclear, query_list_of_find hclear.found]
  simp only [bind, Except.bind]
  rw [filterMapM_filter (fun entry hentry hkept => ?_) fun entry hentry hgone => ?_]
  · obtain ⟨held, hheld, -⟩ := htidied.sound.mem_listing_iff.mp hentry
    exact target?_tidied htidied hskipped hclear hmet hheld (Option.isSome_iff_ne_none.mp hkept)
  · obtain ⟨held, hheld, -⟩ := htidied.sound.mem_listing_iff.mp hentry
    have hclear' : Clear base name disk (root.below []) (base ++ []) := by simpa using hclear
    obtain ⟨hname, place, hleads⟩ := leads_of_gone htidied hclear' (by simpa using hheld)
      (by simpa using hgone)
    rw [Path.below_nil] at hleads
    rw [target?, leadsToDirectory_of_leads hleads]
    cases decide (entry.2 ≠ .file)
    · rfl
    · simp [hname, hskipped, bind, Except.bind, pure, Except.pure]

end Tidied

end Scan

/-- A sweep of a root that is reached past no link and none of the directories to remove, on a disk
where no link leads past an entry of their name, changes nothing of what a scan of the root finds,
nor, apart from limits of the system on the way by a link, of what discovery finds there. -/
theorem scan_unchanged_by_sweep (reporter : Reporter) (settings : Settings) (own : List Path)
    {w : World σ} {root : Path} {base : Loc} (hformed : w.disk.WellFormed)
    (hslash : w.disk.tree.Slashless)
    (hway : w.disk.Through (¬Covered base settings.outputDirName ·) root base)
    (hlinks : LinksAvoid settings.outputDirName w.disk)
    (hfit : ∀ names, Text.lowerString (root.below names).suffix ∈ settings.scriptExtensions →
      w.disk.isFile (root.below names) = .ok true → w.disk.Searchable (root.below names)) :
    let rules := Scan.Rules.ofSettings settings own
    ∃ removed w', Sweep.sweep reporter settings.outputDirName root w = .ok removed w' ∧
      Scan.scripts rules w'.disk root = Scan.scripts rules w.disk root ∧
      Scan.count rules w'.disk root = Scan.count rules w.disk root ∧
      Scan.hasScript rules w'.disk root = Scan.hasScript rules w.disk root ∧
      (LinkedAlike root base settings.outputDirName w.disk →
        Scan.discover rules w'.disk root = Scan.discover rules w.disk root) := by
  intro rules
  obtain ⟨removed, w', hrun, hclears⟩ := Sweep.sweep_clears reporter settings.outputDirName
    hformed.sound hformed.nulFree (resolvable_of_found hway.found)
  have hway' := Sweep.through_of_sweep reporter settings.outputDirName hformed.sound hway
  have hleads : w.disk.Leads root base := leads_of_found hway.found
  have hswept := Sweep.sweep_swept reporter settings.outputDirName w hformed.sound hleads
  rw [Act.final_of_ok hrun] at hway' hswept
  have htidied : Tidied root base settings.outputDirName rules w.disk w'.disk :=
    ⟨hformed.sound, hslash, hlinks, hfit, hswept, removed, (hclears base hway'.found).1⟩
  have hskipped : settings.outputDirName ∈ rules.skipped :=
    settings.outputDirName_mem_skipped
  have hclear := hway.clear hslash
  have hclear' : Clear base settings.outputDirName w.disk (root.below []) (base ++ []) := by
    simpa using hclear
  have hscripts : Scan.scripts rules w'.disk root = Scan.scripts rules w.disk root := by
    unfold Scan.scripts
    rw [← Path.below_nil root]
    exact Scan.foldM_tidied htidied hskipped (fun found path => .ok (found ++ [path])) pathMax hclear'
  refine ⟨_, w', hrun, hscripts, by rw [Scan.count, Scan.count, hscripts], ?_, fun hmet => ?_⟩
  · have hscript := Scan.hasScript_tidied htidied hclear' fun dir _ hdir _ _ hdirectory => ?_
    · rwa [Path.below_nil] at hscript
    · cases List.append_cancel_left hdir
      rwa [Path.child_below]
  · exact Scan.discover_tidied htidied hskipped hclear hmet

/-- Where no link has the name, discovery meets what a sweep removes as the sweep does. -/
theorem Disk.linkedAlike_of_not_link {disk : Disk} {root : Path} {base : Loc} {name : String}
    (hsound : disk.Sound) (hroot : disk.find .followed root = .ok (.present base .directory))
    (hlinks : ∀ loc target, disk.tree.get? (loc ++ [name]) ≠ some (.link target)) :
    LinkedAlike root base name disk := by
  intro next dir held hnext hheld hother hleads
  rw [← List.append_assoc] at hheld
  have hname := hsound.named hheld
  rw [← Path.child_below, Disk.isDirectory_child_iff hname] at hleads
  obtain ⟨place, hplace⟩ := hleads
  obtain ⟨_, entry, hkind, hitself⟩ := itself_of_leads hplace
  obtain ⟨above, habove, -, ⟨h, -⟩ | ⟨_, h, hentry⟩⟩ := reached_of_find_child hname hitself <;>
    cases h
  obtain ⟨rfl, -⟩ := hsound.leads_below hroot (find_fits hnext) habove
  cases hheld.symm.trans hentry
  rcases hkind with rfl | ⟨target, rfl⟩
  · exact absurd rfl hother
  · exact absurd hheld (hlinks _ _)

section Samples

/-- A directory with two staging directories below it, a link to a script and a link to a
directory. -/
def Sample.restaged : Disk := Sample.disk
  [(["d"], .directory), (["d", "a.js"], .link "x/b.js"), (["d", "n"], .link "x"),
    (["d", "output_dir"], .directory), (["d", "output_dir", "c.js"], .file [97] {}),
    (["d", "x"], .directory), (["d", "x", "b.js"], .file [98] {}),
    (["d", "x", "output_dir"], .directory)]

theorem Sample.restaged_searchable {path : Path} (hanchor : path.anchor = .root) :
    Sample.restaged.Searchable path := by
  have hfollow : Sample.restaged.tree.Followable := by decide +kernel
  exact searchable_of_root hanchor fun loc target hlink => (hfollow loc target hlink).1

theorem Sample.restaged_linkedAlike :
    LinkedAlike (locPath ["d"]) ["d"] "output_dir" Sample.restaged := by
  have hsound : Sample.restaged.Sound := by decide
  refine linkedAlike_of_not_link hsound (by decide +kernel) fun loc target hlink => ?_
  have hnames : ∀ x ∈ Sample.restaged.tree.entries, x.1.getLast? = some "output_dir" →
      x.2.kind ≠ .link := by decide
  exact hnames _ ((Tree.mem_entries_iff hsound.rooted).mpr ⟨by simp, hlink⟩) (by simp) rfl

theorem restaged_scan_unchanged :
    Sample.restaged.WellFormed ∧ Sample.restaged.tree.Slashless ∧
      Sample.restaged.Through (¬Covered ["d"] "output_dir" ·) (locPath ["d"]) ["d"] ∧
      LinksAvoid "output_dir" Sample.restaged ∧
      LinkedAlike (locPath ["d"]) ["d"] "output_dir" Sample.restaged ∧
      ∃ removed w', Sweep.sweep Sample.tidying.reporter "output_dir" (locPath ["d"])
          (Sample.world Sample.restaged) = .ok removed w' ∧
        Scan.scripts (.ofSettings {} []) w'.disk (locPath ["d"]) =
          .ok [locPath ["d", "a.js"], locPath ["d", "x", "b.js"]] ∧
        Scan.count (.ofSettings {} []) w'.disk (locPath ["d"]) = .ok 2 ∧
        Scan.hasScript (.ofSettings {} []) w'.disk (locPath ["d"]) = .ok true ∧
        Scan.discover (.ofSettings {} []) w'.disk (locPath ["d"]) =
          .ok [locPath ["d", "n"], locPath ["d", "x"]] := by
  have hformed : Sample.restaged.WellFormed := ⟨by decide, by decide⟩
  have hslash : Sample.restaged.tree.Slashless := by decide
  have hway : Sample.restaged.Through (¬Covered ["d"] "output_dir" ·) (locPath ["d"]) ["d"] :=
    ⟨by decide, [], rfl,
      .down (by decide) (by decide) (by decide) (by decide) (.arrive (by decide) (by decide))⟩
  have hlinks : LinksAvoid "output_dir" Sample.restaged :=
    linksAvoid_of_unspelt hformed.sound.rooted (by decide)
  obtain ⟨removed, w', hrun, hscripts, hcount, hscript, hdiscover⟩ :=
    scan_unchanged_by_sweep Sample.tidying.reporter {} [] (w := Sample.world Sample.restaged)
      hformed hslash hway hlinks fun names _ _ => Sample.restaged_searchable rfl
  refine ⟨hformed, hslash, hway, hlinks, Sample.restaged_linkedAlike, removed, w', hrun,
    hscripts.trans ?_, hcount.trans ?_, hscript.trans ?_,
    (hdiscover Sample.restaged_linkedAlike).trans ?_⟩ <;> decide +kernel

/-- A root whose path runs through one of the directories to remove is not found again. -/
theorem scan_cut_off_by_sweep :
    let disk := Sample.disk [(["d"], .directory), (["d", "a.js"], .file [97] {}),
      (["d", "output_dir"], .directory)]
    let root : Path := ⟨.here, ["d", "output_dir", ".."]⟩
    let rules := Scan.Rules.ofSettings {} []
    disk.WellFormed ∧ disk.tree.Linkless ∧
      disk.find .followed root = .ok (.present ["d"] .directory) ∧
      Scan.scripts rules disk root = .ok [root.child "a.js"] ∧
      ∃ w', Sweep.sweep Sample.tidying.reporter "output_dir" root (Sample.world disk) =
          .ok [root.child "output_dir"] w' ∧
        Scan.scripts rules w'.disk root = .error (.refused .notFound (some "d/output_dir/..") none) := by
  intro disk root rules
  have hsweep : (Sweep.sweep Sample.tidying.reporter "output_dir" root : Act Unit _).result
      (Sample.world disk) = .ok [root.child "output_dir"] := by decide +kernel
  refine ⟨⟨by decide, by decide⟩, by decide, by decide, by decide +kernel, _,
    Act.eq_of_result_ok hsweep, by decide +kernel⟩

/-- A link that can just be followed to its end, in a directory that another link leads to. -/
def Sample.chained : Disk :=
  let name (i : Nat) : String := String.ofList [Char.ofNat (65 + i)]
  Sample.disk <| [(["d"], .directory), (["d", "n"], .link "x"), (["d", "x"], .directory),
    (["d", "x", "output_dir"], .link "../../k/A"), (["d", "x", "z.js"], .file [97] {}),
    (["k"], .directory), (["k", name 39], .directory)] ++
  (List.range 39).map fun i => (["k", name i], .link (name (i + 1)))

/-- Discovery follows one link more than the sweep on the way to an entry, and so it is refused what
the sweep removes. -/
theorem discovery_freed_by_sweep :
    let root := locPath ["d"]
    let rules := Scan.Rules.ofSettings {} []
    Sample.chained.WellFormed ∧ LinksAvoid "output_dir" Sample.chained ∧
      Scan.discover rules Sample.chained root =
        .error (.refused .loop (some "/d/n/output_dir") none) ∧
      ∃ w', Sweep.sweep Sample.tidying.reporter "output_dir" root (Sample.world Sample.chained) =
          .ok [root.below ["x", "output_dir"]] w' ∧
        Scan.discover rules w'.disk root = .ok [root.child "n", root.child "x"] := by
  intro root rules
  have hsweep : (Sweep.sweep Sample.tidying.reporter "output_dir" root : Act Unit _).result
      (Sample.world Sample.chained) = .ok [root.below ["x", "output_dir"]] := by decide +kernel
  have hsound : Sample.chained.Sound := by decide +kernel
  have hlinks : LinksAvoid "output_dir" Sample.chained :=
    linksAvoid_of_unspelt hsound.rooted (by decide +kernel)
  exact ⟨⟨hsound, by decide +kernel⟩, hlinks, by decide +kernel, _, Act.eq_of_result_ok hsweep,
    by decide +kernel⟩

end Samples

end Unscramble
