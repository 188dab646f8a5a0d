import Unscramble.Proofs.Discovery
import Unscramble.Proofs.Lone
import Unscramble.Proofs.Preflight

/-!
# Files are processed independently

A walk lists a directory when it comes to it and processes one script after the other on the
disk that the earlier ones have left.  All of them share a staging directory, and each sweeps
below its own directory.  Still every script fares, and ends, as if it were the only one: what
the others leave behind differs from the disk at the start where they lie themselves, in the
log, and by staging directories that are gone.
-/

namespace Unscramble

open Disk Workspace

variable {σ : Type}

/-! ## Listings -/

theorem Tree.listing_pairwise (tree : Tree) (dir : Loc) :
    (tree.listing dir).Pairwise fun left right => left.1 < right.1 := by
  have happend {dir : Loc} {a b : String} (hlt : dir ++ [a] < dir ++ [b]) : a < b := by
    induction dir with
    | nil =>
      rcases List.cons_lt_cons_iff.mp hlt with h | ⟨-, h⟩
      · exact h
      · cases h
    | cons first rest ih =>
      rcases List.cons_lt_cons_iff.mp hlt with h | ⟨-, h⟩
      · exact absurd h (lt_irrefl first)
      · exact ih h
  have hname {loc : Loc} {kind : Kind} {entry : String × Kind}
      (hentry : (Loc.nameIn? dir loc).map (·, kind) = some entry) : loc = dir ++ [entry.1] := by
    obtain ⟨name, hname, rfl⟩ := Option.map_eq_some_iff.mp hentry
    unfold Loc.nameIn? at hname
    split at hname
    · next hpre =>
      obtain ⟨rest, rfl⟩ := hpre
      rw [List.drop_left] at hname
      split at hname <;> cases hname
      rfl
    · cases hname
  refine tree.sorted.filterMap _ fun x y hlt entry hentry other hother => ?_
  rw [hname hentry, hname hother] at hlt
  exact happend hlt

namespace Disk

variable {disk disk' : Disk} {loc : Loc}

theorem Sound.mem_listing_iff (hsound : disk.Sound) {entry : String × Kind} :
    entry ∈ disk.tree.listing loc ↔
      ∃ held, disk.tree.get? (loc ++ [entry.1]) = some held ∧ entry.2 = held.kind := by
  simp only [Disk.mem_listing_iff, Tree.mem_entries_iff hsound.rooted, ne_eq,
    List.append_eq_nil_iff, List.cons_ne_self, and_false, not_false_eq_true, true_and]

/-- Where entries have gone but none has changed its kind, they are missing in the listing. -/
theorem Sound.listing_eq_filter (hsound : disk.Sound) (hsound' : disk'.Sound)
    (hshape : ∀ name, disk'.tree.shape (loc ++ [name]) = disk.tree.shape (loc ++ [name]) ∨
      disk'.tree.get? (loc ++ [name]) = none) :
    disk'.tree.listing loc = (disk.tree.listing loc).filter fun entry =>
      (disk'.tree.get? (loc ++ [entry.1])).isSome := by
  have : Std.Antisymm fun left right : String × Kind => left.1 < right.1 :=
    ⟨fun _ _ hlt hgt => absurd hgt (lt_asymm hlt)⟩
  have : Std.Irrefl fun left right : String × Kind => left.1 < right.1 :=
    ⟨fun entry => lt_irrefl entry.1⟩
  refine (disk'.tree.listing_pairwise loc).eq_of_mem_iff
    ((disk.tree.listing_pairwise loc).filter _) fun entry => ?_
  have hkinds {held held' : Entry} (hheld : disk.tree.get? (loc ++ [entry.1]) = some held)
      (hheld' : disk'.tree.get? (loc ++ [entry.1]) = some held') : held'.kind = held.kind := by
    rcases hshape entry.1 with hsame | hgone
    · rw [Tree.shape, Tree.shape, hheld, hheld', Option.map_some, Option.map_some,
        Option.some.injEq] at hsame
      rw [← kind_bare, hsame, kind_bare]
    · rw [hheld'] at hgone
      cases hgone
  rw [List.mem_filter, hsound'.mem_listing_iff, hsound.mem_listing_iff]
  constructor
  · rintro ⟨held', hheld', hkind⟩
    rcases hshape entry.1 with hsame | hgone
    · obtain ⟨held, hheld, -⟩ := get?_of_shape hsame.symm hheld'
      exact ⟨⟨held, hheld, hkind.trans (hkinds hheld hheld')⟩, by rw [hheld']; rfl⟩
    · rw [hheld'] at hgone
      cases hgone
  · rintro ⟨⟨held, hheld, hkind⟩, hsome⟩
    obtain ⟨held', hheld'⟩ := Option.isSome_iff_exists.mp hsome
    exact ⟨held', hheld', hkind.trans (hkinds hheld hheld').symm⟩

end Disk

/-! ## Names in an open directory -/

namespace Disk.Opens

variable {disk disk' : Disk} {path : Path} {loc : Loc} {name : String}
  (hopens : disk.Opens path loc) (hname : Path.Ordinary name)
  (hlink : ∀ target, disk.tree.get? (loc ++ [name]) ≠ some (.link target))

include hopens hname

theorem takes_of_find {found : Found} (hfind : disk.find .followed (path.child name) = .ok found) :
    path.Takes name := by
  by_contra htakes
  rw [find_child_of_not_takes hopens.found hname htakes] at hfind
  cases hfind

include hlink

theorem find_child (htakes : path.Takes name) : disk.find .followed (path.child name) =
    .ok (Found.on disk.tree (.vacant (loc ++ [name]))) := by
  have hfind := find_child_of_reached hname htakes.2 htakes.1 hopens.found
  rw [Found.on]
  cases hheld : disk.tree.get? (loc ++ [name]) with
  | none => exact find_followed_of_ne_link (by rw [hfind, hheld]) (by simp)
  | some entry =>
    refine find_followed_of_ne_link (by rw [hfind, hheld]) fun _ target heq => ?_
    cases heq
    exact hlink target hheld

theorem content?_child (htakes : path.Takes name) :
    disk.content? (path.child name) = disk.tree.bytes? (loc ++ [name]) := by
  simp only [content?, stat, hopens.find_child hname hlink htakes, Found.on, Tree.bytes?]
  rcases disk.tree.get? (loc ++ [name]) with _ | _ | _ | _ <;> rfl

theorem isFile_child : disk.isFile (path.child name) =
    if path.Takes name then .ok ((disk.tree.get? (loc ++ [name])).any (·.kind = .file))
    else if (path.child name).hasNul then .ok false else .error .nameTooLong := by
  split
  · next htakes =>
    have hfind := hopens.find_child hname hlink htakes
    rw [Found.on] at hfind
    cases hheld : disk.tree.get? (loc ++ [name]) with
    | none =>
      rw [hheld] at hfind
      exact ask_of_missing (.inl ⟨_, hfind⟩) _
    | some entry =>
      rw [hheld] at hfind
      exact ask_of_present hfind _
  · next htakes =>
    have hfind := find_child_of_not_takes hopens.found hname htakes
    cases hnul : (path.child name).hasNul <;> rw [hnul] at hfind
    · exact ask_of_refused hfind rfl _
    · exact ask_of_missing (.inr ⟨_, hfind, rfl⟩) _

variable {rules : Scan.Rules} (hopens' : disk'.Opens path loc)

include hopens'

/-- A file is judged to be a script by its path, and not by what it holds. -/
theorem isScript_congr (hsound : disk.Sound) (hsound' : disk'.Sound) (hslash : disk.tree.Slashless)
    {bytes bytes' : Bytes} {access access' : Access}
    (hheld : disk.tree.get? (loc ++ [name]) = some (.file bytes access))
    (hheld' : disk'.tree.get? (loc ++ [name]) = some (.file bytes' access')) :
    Scan.isScript rules (path.child name) disk' = Scan.isScript rules (path.child name) disk := by
  have hfile : disk'.isFile (path.child name) = disk.isFile (path.child name) := by
    rw [hopens'.isFile_child hname (by simp [hheld']), hopens.isFile_child hname hlink, hheld,
      hheld']
    rfl
  have hquery : disk'.query isFile (path.child name) = disk.query isFile (path.child name) := by
    rw [query, query, hfile]
  unfold Scan.isScript
  rw [hquery, query]
  rcases hanswer : disk.isFile (path.child name) with why | _ | _
  · simp only [bind, Except.bind]
  · simp only [bind, Except.bind, Bool.false_eq_true, if_false]
  · have hnul := (nameable_of_isFile hanswer).1
    have hplain := hslash _ _ _ hheld
    simp only [hopens.canonicalPath_child hsound hheld (by simp) hplain hnul,
      hopens'.canonicalPath_child hsound' hheld' (by simp) hplain hnul]

/-- What is no script does not become one when it is taken away. -/
theorem isScript_of_missing (hmissing : disk'.tree.get? (loc ++ [name]) = none)
    (hscript : Scan.isScript rules (path.child name) disk = .ok false) :
    Scan.isScript rules (path.child name) disk' = .ok false := by
  unfold Scan.isScript at hscript ⊢
  split
  · rfl
  · next hsuffix =>
    rw [if_neg hsuffix] at hscript
    have hfile := hopens'.isFile_child hname (by simp [hmissing])
    rw [hmissing] at hfile
    rw [query, hfile]
    by_cases htakes : path.Takes name
    · rw [if_pos htakes]
      rfl
    · rw [query, hopens.isFile_child hname hlink, if_neg htakes] at hscript
      rw [if_neg htakes]
      cases hnul : (path.child name).hasNul <;> rw [hnul] at hscript
      · cases hscript
      · rfl

end Disk.Opens

theorem Scan.isFile_of_isScript {rules : Rules} {disk : Disk} {path : Path}
    (hscript : isScript rules path disk = .ok true) : disk.isFile path = .ok true := by
  unfold isScript at hscript
  split at hscript
  · cases hscript
  · rw [query] at hscript
    rcases hanswer : disk.isFile path with why | _ | _ <;> rw [hanswer] at hscript
    · cases hscript
    · cases hscript

/-! ## Files and where they lie -/

/-- A file and the location of its directory. -/
structure Spot where
  file : Path
  dir : Loc

namespace Spot

/-- The location of the file. -/
def loc (spot : Spot) : Loc := spot.dir ++ [spot.file.name]

/-- There is a file, and its directory is open without what is called `name` below `root`,
too. -/
structure Stands (spot : Spot) (root : Loc) (name : String) (disk : Disk) : Prop where
  opens : (disk.unstaged root name).Opens spot.file.parent spot.dir
  below : root <+: spot.dir
  held : ∃ bytes access, disk.tree.get? spot.loc = some (.file bytes access)
  takes : spot.file.parent.Takes spot.file.name

/-- Of the artifacts of the file only the staging directory may be there, the file does not have
its name, and neither the file nor an artifact is the log. -/
structure Alone (spot : Spot) (name : String) (disk : Disk) : Prop where
  other : name ≠ spot.file.name
  fresh : ∀ artifact ∈ artifactNames spot.file name,
    artifact = name ∨ disk.tree.get? (spot.dir ++ [artifact]) = none
  unlogged : ∀ loc, Inside (fileLocs spot.file name spot.dir) loc → disk.log ≠ some loc

end Spot

/-- A disk without links below `root`, whose entries have proper names. -/
structure Disk.Ground (root : Loc) (disk : Disk) : Prop where
  sound : disk.Sound
  slashless : disk.tree.Slashless
  linkless : ∀ loc target, root <+: loc → disk.tree.get? loc ≠ some (.link target)

namespace Spot

variable {spot other : Spot} {root : Loc} {name : String} {disk : Disk}

theorem Stands.named (hstands : spot.Stands root name disk) (hsound : disk.Sound) :
    Path.Ordinary spot.file.name := by
  obtain ⟨bytes, access, hheld⟩ := hstands.held
  exact hsound.named hheld

theorem Stands.child (hstands : spot.Stands root name disk) (hsound : disk.Sound) :
    spot.file.parent.child spot.file.name = spot.file :=
  Path.child_parent (Path.ordinary_ne_empty (hstands.named hsound))

theorem Stands.ne_directory (hstands : spot.Stands root name disk) :
    disk.tree.get? spot.loc ≠ some .directory := by
  obtain ⟨bytes, access, hheld⟩ := hstands.held
  simp [hheld]

/-- Nothing lies below a file. -/
theorem Stands.eq_of_below (hstands : spot.Stands root name disk) (hsound : disk.Sound) {loc : Loc}
    {entry : Entry} (hentry : disk.tree.get? loc = some entry) (hpre : spot.loc <+: loc) :
    spot.loc = loc := by
  by_contra hne
  exact hstands.ne_directory (hsound.directory_of_prefix hpre hne hentry)

/-- A file is not above a directory. -/
theorem Stands.not_above (hstands : spot.Stands root name disk) (hsound : disk.Sound) {dir : Loc}
    (hdir : disk.tree.get? dir = some .directory) : ¬spot.loc <+: dir := fun hpre =>
  hstands.ne_directory (hstands.eq_of_below hsound hdir hpre ▸ hdir)

theorem Stands.directory (hstands : spot.Stands root name disk) (hsound : disk.Sound) :
    disk.tree.get? spot.dir = some .directory ∧ ¬Covered root name spot.dir :=
  hsound.of_unstaged hstands.opens.directory

theorem Stands.uncovered (hstands : spot.Stands root name disk) (hsound : disk.Sound)
    (halone : spot.Alone name disk) : ¬Covered root name spot.loc :=
  not_covered_child (hstands.directory hsound).2 (Ne.symm halone.other)

theorem linkless_fileLocs (hground : disk.Ground root) (hbelow : root <+: spot.dir) (loc : Loc)
    (target : String) (hloc : Inside (fileLocs spot.file name spot.dir) loc) :
    disk.tree.get? loc ≠ some (.link target) := by
  refine hground.linkless loc target (hbelow.trans ?_)
  obtain ⟨z, hz, hpre⟩ := hloc
  refine List.IsPrefix.trans ?_ hpre
  rcases List.mem_cons.mp hz with rfl | hartifact
  · exact List.prefix_append _ _
  · obtain ⟨artifact, -, rfl⟩ := List.mem_map.mp hartifact
    exact List.prefix_append _ _

theorem Stands.ready (hstands : spot.Stands root name disk) (hground : disk.Ground root)
    (halone : spot.Alone name disk) : Ready spot.file name spot.dir disk :=
  hground.sound.ready hground.sound
    ((Course.refl hground.sound).retains hground.sound hground.linkless (by simp)) hstands.opens
    hstands.below (fun loc target hloc => linkless_fileLocs hground hstands.below loc target hloc)
    halone.unlogged hstands.ne_directory halone.fresh

/-- What lies at a file does not lie at another one. -/
theorem Stands.apart (hstands : spot.Stands root name disk) (hsound : disk.Sound)
    (hother : other.Stands root name disk) (hne : other.loc ≠ spot.loc) {loc : Loc}
    (hloc : spot.loc <+: loc) : ¬other.loc <+: loc := by
  intro hpre
  obtain ⟨_, _, hheld⟩ := hstands.held
  obtain ⟨_, _, hheld'⟩ := hother.held
  rcases List.prefix_or_prefix_of_prefix hpre hloc with habove | hbelow
  · exact hne (hother.eq_of_below hsound hheld habove)
  · exact hne (hstands.eq_of_below hsound hheld' hbelow).symm

end Spot

/-! ## One file after the other -/

namespace Engine

variable {engine : Engine σ} {reply : String → Except Fault Completed} {root : Loc}
  {start w w' : World σ} {spot : Spot} {done : List Spot}

/-- How a file fares that is the only one to be processed; a fault is its failure. -/
def outcomeAlone (engine : Engine σ) (w : World σ) (file : Path) : Outcome :=
  match (engine.processFile file).result w with
  | .ok outcome => outcome
  | .error fault => { file, status := .failed, error := fault.message }

theorem outcomeAlone_congr {file : Path}
    (hsame : (engine.processFile file).result w = (engine.processFile file).result start) :
    engine.outcomeAlone w file = engine.outcomeAlone start file := by
  rw [outcomeAlone, hsame, outcomeAlone]

/-- A visit to a file that is there notes how the file fares. -/
theorem visit_of_present {file : Path} (hpresent : w.disk.present file = .ok true)
    (hminor : ∀ fault, (engine.processFile file).result w = .error fault → fault.isMinor = true)
    (outcomes : List Outcome) :
    ∃ w', engine.visit outcomes file w = .ok (outcomes ++ [engine.outcomeAlone w file]) w' ∧
      OnlyLogs ((engine.processFile file).final w).disk w'.disk := by
  have hask : (Act.ask Disk.present file : Act σ Bool) w = .ok true w := Act.ask_of_ok hpresent
  rw [visit, Act.bind_of_ok hask]
  cases hrun : engine.processFile file w with
  | ok outcome w' =>
    refine ⟨w', ?_, ?_⟩
    · rw [outcomeAlone, Act.result_of_ok hrun]
      exact Act.bind_of_ok (Act.attempt_of_ok hrun)
    · rw [Act.final_of_ok hrun]
      exact refl w'.disk
  | error fault w' =>
    have hfault := hminor fault (Act.result_of_error hrun)
    refine ⟨w'.said engine.reporter .error
      ("Failed to deobfuscate " ++ file.name ++ ": " ++ fault.message), ?_, ?_⟩
    · rw [outcomeAlone, Act.result_of_error hrun]
      refine (Act.bind_of_ok (Act.attempt_of_error hrun)).trans ?_
      cases fault <;> first
        | exact Act.bind_of_ok (engine.reporter.error_eq _ _)
        | cases hfault
    · rw [Act.final_of_error hrun]
      exact (said_idle _ _ _ _).disk

/-- Some files have been processed since the start, and each has been left as if it had been
the only one. -/
structure Progress (engine : Engine σ) (root : Loc) (start : World σ) (done : List Spot)
    (w : World σ) : Prop where
  provided : engine.Provided w
  stands : ∀ spot ∈ done, spot.Stands root engine.settings.outputDirName start.disk
  alone : ∀ spot ∈ done, spot.Alone engine.settings.outputDirName start.disk
  course : Course root engine.settings.outputDirName (done.map Spot.loc) start.disk w.disk
  settled : ∀ spot ∈ done, w.disk.tree.get? spot.loc =
    ((engine.processFile spot.file).final start).disk.tree.get? spot.loc

theorem Progress.refl (hknown : engine.Provided start) (hsound : start.disk.Sound) :
    engine.Progress root start [] start where
  provided := hknown
  stands := by simp
  alone := by simp
  course := .refl hsound
  settled := by simp

section Ready

variable (hprogress : engine.Progress root start done w)
  (hground : start.disk.Ground root)
  (hstands : spot.Stands root engine.settings.outputDirName start.disk)
  (halone : spot.Alone engine.settings.outputDirName start.disk)

include hprogress

include hground

theorem Progress.retains :
    (start.disk.unstaged root engine.settings.outputDirName).Retains w.disk := by
  refine hprogress.course.retains hground.sound hground.linkless fun source hsource => ?_
  obtain ⟨spot, hspot, rfl⟩ := List.mem_map.mp hsource
  have hstands := hprogress.stands spot hspot
  exact ⟨hstands.below.trans (List.prefix_append _ _), hstands.ne_directory⟩

theorem Progress.opens {path : Path} {loc : Loc}
    (hopens : (start.disk.unstaged root engine.settings.outputDirName).Opens path loc) :
    w.disk.Opens path loc :=
  hopens.retained (hprogress.retains hground) hground.sound.unstaged hprogress.course.sound

include hstands halone

/-- What lies at a file has not changed before it is processed. -/
theorem Progress.same (hnew : ∀ other ∈ done, other.loc ≠ spot.loc) {loc : Loc}
    (hloc : spot.loc <+: loc) : w.disk.tree.get? loc = start.disk.tree.get? loc := by
  have houtside : ¬Inside (done.map Spot.loc) loc := by
    rintro ⟨source, hsource, hpre⟩
    obtain ⟨other, hother, rfl⟩ := List.mem_map.mp hsource
    exact hstands.apart hground.sound (hprogress.stands other hother) (hnew other hother) hloc hpre
  have hunlogged := halone.unlogged loc ⟨spot.loc, List.mem_cons_self, hloc⟩
  rcases hprogress.course.kept loc houtside hunlogged with hsame | ⟨hcovered, hgone⟩
  · exact hsame
  · by_cases heq : spot.loc = loc
    · exact absurd (heq ▸ hcovered) (hstands.uncovered hground.sound halone)
    · rw [hgone, hground.sound.missing_below hstands.ne_directory hloc heq]

/-- A file is ready to be processed when its turn comes. -/
theorem Progress.ready (hnew : ∀ other ∈ done, other.loc ≠ spot.loc) :
    Ready spot.file engine.settings.outputDirName spot.dir w.disk := by
  have hcourse := hprogress.course
  refine hcourse.sound.ready hground.sound (hprogress.retains hground) hstands.opens hstands.below ?_
    (fun loc hloc => hcourse.unlogged (halone.unlogged loc hloc)) ?_ ?_
  · intro loc target hloc hlink
    by_cases hinside : Inside (done.map Spot.loc) loc
    · exact hcourse.plain loc target hinside hlink
    rcases hcourse.shape loc hinside with hsame | ⟨-, hgone⟩
    · rw [← Tree.shape_eq_link_iff, hsame, Tree.shape_eq_link_iff] at hlink
      exact Spot.linkless_fileLocs hground hstands.below loc target hloc hlink
    · rw [hgone] at hlink
      cases hlink
  · exact hprogress.same hground hstands halone hnew List.prefix_rfl ▸ hstands.ne_directory
  · intro artifact hartifact
    refine (halone.fresh artifact hartifact).imp_right fun hnone => ?_
    have houtside : ¬Inside (done.map Spot.loc) (spot.dir ++ [artifact]) := by
      rintro ⟨source, hsource, hpre⟩
      obtain ⟨other, hother, rfl⟩ := List.mem_map.mp hsource
      have hother := hprogress.stands other hother
      rcases List.prefix_concat_iff.mp hpre with heq | habove
      · obtain ⟨_, _, hheld⟩ := hother.held
        rw [heq, hnone] at hheld
        cases hheld
      · exact hother.not_above hground.sound (hstands.directory hground.sound).1 habove
    have hunlogged := halone.unlogged (spot.dir ++ [artifact])
      (inside_fileLocs ⟨_, List.mem_map_of_mem hartifact, List.prefix_rfl⟩)
    rcases hcourse.kept _ houtside hunlogged with hsame | ⟨-, hgone⟩
    · rw [hsame, hnone]
    · exact hgone

end Ready

section Visit

variable (hreplies : engine.Replies reply)
  (hout : Path.Component engine.settings.outputDirName)
  (hscope : engine.settings.cleanupScope = .file) (hground : start.disk.Ground root)

include hreplies hout hscope hground

/-- A file whose turn comes fares as if it were the only one, and is left as if it were. -/
theorem Progress.visit (hprogress : engine.Progress root start done w)
    (hknown : engine.Provided start) (hkeeps : engine.KeepsTo spot.file)
    (hstands : spot.Stands root engine.settings.outputDirName start.disk)
    (halone : spot.Alone engine.settings.outputDirName start.disk)
    (hnew : ∀ other ∈ done, other.loc ≠ spot.loc) (outcomes : List Outcome) :
    ∃ w', engine.visit outcomes spot.file w =
        .ok (outcomes ++ [engine.outcomeAlone start spot.file]) w' ∧
      engine.Progress root start (done ++ [spot]) w' := by
  have hname := hstands.named hground.sound
  have hchild := hstands.child hground.sound
  have hnul : spot.file.hasNul = false := by
    rw [← hchild]
    exact hstands.takes.1.1
  have hsame {loc : Loc} (hloc : spot.dir ++ [spot.file.name] <+: loc) :=
    hprogress.same hground hstands halone hnew hloc
  have hagrees := processFile_agreesAt hkeeps hreplies hout halone.other hscope hname
    hnul hstands.below (hprogress.ready hground hstands halone hnew)
    (hstands.ready hground halone)
    (fun loc ⟨source, hsource, hloc⟩ => hsame (List.mem_singleton.mp hsource ▸ hloc))
    hprogress.provided hknown
  have hpresent : w.disk.present spot.file = .ok true := by
    obtain ⟨bytes, access, hheld⟩ := hstands.held
    have hthere := (hsame List.prefix_rfl).trans hheld
    have hfind := (hprogress.opens hground hstands.opens).find_child hname (by simp [hthere])
      hstands.takes
    rw [hchild, Found.on, hthere] at hfind
    exact ask_eq_true_iff.mpr (.inl ⟨_, _, hfind, rfl⟩)
  have hhandled := hagrees.2
  obtain ⟨w', hvisit, hlogs⟩ := visit_of_present hpresent
    (fun _ => processFile_minor hkeeps hreplies hprogress.provided) outcomes
  rw [outcomeAlone_congr hagrees.1] at hvisit
  obtain ⟨lines, hlines⟩ := hlogs
  have hnoted : Course root engine.settings.outputDirName [] _ _ :=
    Course.noted hhandled.left.sound lines
  rw [← hlines] at hnoted
  -- a file that has been processed is not touched any more
  have hcourse := hhandled.left.trans hnoted
  rw [List.append_nil] at hcourse
  refine ⟨w', hvisit, ?provided, ?stands, ?alone, ?course, ?settled⟩
  case provided =>
    obtain ⟨es, hran, -⟩ := engine.visit_works outcomes spot.file w hprogress.provided
    rw [Act.final_of_ok hvisit] at hran
    exact hran.known hprogress.provided
  case stands => simpa [or_imp, forall_and] using ⟨hprogress.stands, hstands⟩
  case alone => simpa [or_imp, forall_and] using ⟨hprogress.alone, halone⟩
  case course => simpa [Spot.loc] using hprogress.course.trans hcourse
  case settled =>
    intro other hother
    rw [List.mem_append, List.mem_singleton] at hother
    rcases hother with hother | rfl
    · rw [← hprogress.settled other hother]
      have hstands' := hprogress.stands other hother
      have halone' := hprogress.alone other hother
      refine hcourse.kept_uncovered ?_ ?_ (hstands'.uncovered hground.sound halone')
      · rintro ⟨source, hsource, hpre⟩
        rw [List.mem_singleton.mp hsource] at hpre
        exact hstands'.apart hground.sound hstands (hnew other hother).symm List.prefix_rfl hpre
      · exact hprogress.course.unlogged
          (halone'.unlogged _ ⟨other.loc, List.mem_cons_self, List.prefix_rfl⟩)
    · refine Eq.trans ?_ hhandled.same
      refine hnoted.kept_uncovered (by simp [Inside]) (hhandled.left.unlogged ?_)
        (hstands.uncovered hground.sound halone)
      exact hprogress.course.unlogged
        (halone.unlogged _ ⟨other.loc, List.mem_cons_self, List.prefix_rfl⟩)

end Visit

end Engine

end Unscramble
