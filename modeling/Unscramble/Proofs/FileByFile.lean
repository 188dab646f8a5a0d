import Unscramble.Proofs.Independence

/-!
# A directory is processed file by file

A walk over a directory is lazy: a directory is listed when the walk comes to it, after the
scripts before it have been processed.  What a listing then lacks are staging directories,
which are not entered anyway, and a script stays one whatever its tools have written.  So the
walk visits what a scan of the disk at the start finds, in the same order.
-/

namespace Unscramble

open Disk Workspace

variable {σ : Type}

/-! ## Scans entry by entry -/

/-- No scan enters a staging directory. -/
theorem Settings.outputDirName_mem_skipped (settings : Settings) :
    settings.outputDirName ∈ settings.skippedDirNames :=
  List.mem_append_right _ (List.mem_singleton_self _)

namespace Scan

variable {rules : Rules} {disk : Disk} {depth : Nat} {dir : Path} {acc found : List Path}
  {entry : String × Kind}

/-- What a scan does with an entry of a directory. -/
def entryM {m : Type → Type} [Monad m] {β : Type}
    (look : {α : Type} → (Disk → Except Fault α) → m α) (rules : Rules) (visit : β → Path → m β)
    (depth : Nat) (dir : Path) (acc : β) (entry : String × Kind) : m β := do
  let path := dir.child entry.1
  if entry.2 = .directory then
    if entry.1 ∈ rules.skipped then pure acc
    else foldM look rules visit depth path acc
  else if ← look (isScript rules path) then visit acc path
  else pure acc

theorem foldM_succ {m : Type → Type} [Monad m] {β : Type}
    (look : {α : Type} → (Disk → Except Fault α) → m α) (rules : Rules) (visit : β → Path → m β)
    (depth : Nat) (dir : Path) (acc : β) : foldM look rules visit (depth + 1) dir acc =
      look (·.query Disk.list dir) >>= fun entries =>
        entries.foldlM (entryM look rules visit depth dir) acc := by
  rw [foldM]
  rfl

/-- The scripts that are found below a directory, after those found before. -/
def gather (rules : Rules) (disk : Disk) (depth : Nat) (dir : Path) (acc : List Path) :
    Except Fault (List Path) :=
  foldM (fun question => question disk) rules (fun found path => .ok (found ++ [path])) depth dir acc

def gatherEntry (rules : Rules) (disk : Disk) (depth : Nat) (dir : Path) (acc : List Path)
    (entry : String × Kind) : Except Fault (List Path) :=
  entryM (fun question => question disk) rules (fun found path => .ok (found ++ [path])) depth dir
    acc entry

theorem list_of_gather (hgather : gather rules disk depth dir acc = .ok found) :
    ∃ less entries, depth = less + 1 ∧ disk.list dir = .ok entries ∧
      entries.foldlM (gatherEntry rules disk less dir) acc = .ok found := by
  cases depth with
  | zero =>
    rw [gather, foldM] at hgather
    cases hgather
  | succ less =>
    rw [gather, foldM_succ] at hgather
    obtain ⟨entries, hlist, hfold⟩ := Except.ok_of_bind hgather
    exact ⟨less, entries, rfl, list_of_query hlist, hfold⟩

theorem gatherEntry_cases (hentry : gatherEntry rules disk depth dir acc entry = .ok found) :
    entry.2 = .directory ∧ entry.1 ∈ rules.skipped ∧ found = acc ∨
      entry.2 = .directory ∧ entry.1 ∉ rules.skipped ∧
        gather rules disk depth (dir.child entry.1) acc = .ok found ∨
      entry.2 ≠ .directory ∧ isScript rules (dir.child entry.1) disk = .ok true ∧
        found = acc ++ [dir.child entry.1] ∨
      entry.2 ≠ .directory ∧ isScript rules (dir.child entry.1) disk = .ok false ∧ found = acc := by
  rw [gatherEntry, entryM] at hentry
  split at hentry
  · next hdirectory =>
    split at hentry
    · next hskipped =>
      cases hentry
      exact .inl ⟨hdirectory, hskipped, rfl⟩
    · next hentered => exact .inr (.inl ⟨hdirectory, hentered, hentry⟩)
  · next hother =>
    obtain ⟨script, hscript, hvisit⟩ := Except.ok_of_bind hentry
    cases script with
    | true =>
      cases hvisit
      exact .inr (.inr (.inl ⟨hother, hscript, rfl⟩))
    | false =>
      cases hvisit
      exact .inr (.inr (.inr ⟨hother, hscript, rfl⟩))

/-- Nothing that has been found is dropped. -/
theorem prefix_of_entry
    (hbelow : ∀ {dir acc found}, gather rules disk depth dir acc = .ok found → acc <+: found)
    (hentry : gatherEntry rules disk depth dir acc entry = .ok found) : acc <+: found := by
  rcases gatherEntry_cases hentry with ⟨-, -, rfl⟩ | ⟨-, -, hgather⟩ | ⟨-, -, rfl⟩ | ⟨-, -, rfl⟩
  · exact List.prefix_rfl
  · exact hbelow hgather
  · exact List.prefix_append _ _
  · exact List.prefix_rfl

theorem prefix_of_entries {entries : List (String × Kind)}
    (hbelow : ∀ {dir acc found}, gather rules disk depth dir acc = .ok found → acc <+: found)
    (hfold : entries.foldlM (gatherEntry rules disk depth dir) acc = .ok found) : acc <+: found := by
  induction entries generalizing acc with
  | nil =>
    cases hfold
    exact List.prefix_rfl
  | cons entry rest ih =>
    rw [List.foldlM_cons] at hfold
    obtain ⟨next, hnext, hrest⟩ := Except.ok_of_bind hfold
    exact (prefix_of_entry hbelow hnext).trans (ih hrest)

theorem prefix_of_gather (hgather : gather rules disk depth dir acc = .ok found) : acc <+: found := by
  induction depth generalizing dir acc found with
  | zero =>
    obtain ⟨less, _, heq, -⟩ := list_of_gather hgather
    cases heq
  | succ depth ih =>
    obtain ⟨less, entries, heq, -, hfold⟩ := list_of_gather hgather
    cases heq
    exact prefix_of_entries ih hfold

end Scan

/-! ## What a walk meets -/

/-- A file is apart from its artifacts: the staging directory does not have its name, nothing
lies at the siblings that the tools write to, and the log lies neither at the file nor at an
artifact. -/
structure Disk.Apart (file : Path) (name : String) (disk : Disk) : Prop where
  other : name ≠ file.name
  fresh : ∀ dir, disk.find .followed file.parent = .ok (.present dir .directory) →
    ∀ ending ∈ [".temp", ".deobfuscated.js"], disk.tree.get? (dir ++ [file.name ++ ending]) = none
  unlogged : ∀ dir, disk.find .followed file.parent = .ok (.present dir .directory) →
    ∀ loc, Inside (fileLocs file name dir) loc → disk.log ≠ some loc

theorem Disk.Apart.alone {file : Path} {name : String} {disk : Disk} {dir : Loc}
    (hapart : disk.Apart file name)
    (hdir : disk.find .followed file.parent = .ok (.present dir .directory)) :
    Spot.Alone ⟨file, dir⟩ name disk where
  other := hapart.other
  fresh artifact hartifact := by
    have hfresh := hapart.fresh dir hdir
    simp only [artifactNames, List.mem_cons, List.not_mem_nil, or_false] at hartifact
    rcases hartifact with rfl | rfl | rfl
    · exact .inl rfl
    · exact .inr (hfresh ".temp" (by simp))
    · exact .inr (hfresh ".deobfuscated.js" (by simp))
  unlogged := hapart.unlogged dir hdir

namespace Engine

variable {engine : Engine σ} {reply : String → Except Fault Completed} {root loc : Loc}
  {start w : World σ} {done : List Spot} {dir : Path} {depth : Nat} {found : List Path}
  {entry : String × Kind}

/-- A part of a walk has come to its end: it has processed some more files, all below `loc` and
as a scan has found them, and each of them as if it were the only one. -/
structure Went (engine : Engine σ) (root : Loc) (start : World σ) (loc : Loc) (found : List Path)
    (done more : List Spot) (run : Act σ (List Outcome)) (w w' : World σ) : Prop where
  run : run w = .ok ((done ++ more).map fun spot => engine.outcomeAlone start spot.file) w'
  found : found = (done ++ more).map Spot.file
  progress : engine.Progress root start (done ++ more) w'
  below : ∀ spot ∈ more, loc <+: spot.loc

theorem Went.idle {run : Act σ (List Outcome)} (hprogress : engine.Progress root start done w)
    (hrun : run w = .ok (done.map fun spot => engine.outcomeAlone start spot.file) w) :
    engine.Went root start loc (done.map Spot.file) done [] run w w := by
  constructor
  case run => rw [List.append_nil, hrun]
  case found => rw [List.append_nil]
  case progress => rwa [List.append_nil]
  case below => simp

/-- The tools keep to the file, and it is apart from its artifacts. -/
def Fits (engine : Engine σ) (disk : Disk) (file : Path) : Prop :=
  engine.KeepsTo file ∧ disk.Apart file engine.settings.outputDirName

/-- Whatever has been processed before, a walk down to `depth` processes the scripts that a
scan of the disk at the start finds. -/
def WalksBelow (engine : Engine σ) (root : Loc) (start : World σ) (depth : Nat) : Prop :=
  ∀ dir loc done w found, root <+: loc →
    (start.disk.unstaged root engine.settings.outputDirName).Opens dir loc →
    Scan.gather engine.rules start.disk depth dir (done.map Spot.file) = .ok found →
    (∀ file ∈ found, engine.Fits start.disk file) →
    engine.Progress root start done w → (∀ spot ∈ done, ¬loc <+: spot.loc) →
    ∃ more w', engine.Went root start loc found done more
      (Scan.foldM Act.look engine.rules engine.visit depth dir
        (done.map fun spot => engine.outcomeAlone start spot.file)) w w'

section Ground

variable (hground : start.disk.Ground root) (hprogress : engine.Progress root start done w)
  (hopens : (start.disk.unstaged root engine.settings.outputDirName).Opens dir loc)

include hground

theorem opens_start
    (hopens : (start.disk.unstaged root engine.settings.outputDirName).Opens dir loc) :
    start.disk.Opens dir loc :=
  hopens.retained ((Course.refl hground.sound).retains hground.sound hground.linkless (by simp))
    hground.sound.unstaged hground.sound

include hprogress hopens

/-- An entry of an open directory has been touched only if it lies at a file processed before. -/
theorem Progress.outside {name : String} (hnew : ∀ spot ∈ done, loc ++ [name] ≠ spot.loc) :
    ¬Inside (done.map Spot.loc) (loc ++ [name]) := by
  rintro ⟨source, hsource, hpre⟩
  obtain ⟨spot, hspot, rfl⟩ := List.mem_map.mp hsource
  rcases List.prefix_concat_iff.mp hpre with heq | habove
  · exact hnew spot hspot heq.symm
  · exact (hprogress.stands spot hspot).not_above hground.sound
      (hground.sound.of_unstaged hopens.directory).1 habove

/-- An entry that is gone was called as the staging directory is. -/
theorem Progress.name_eq_of_gone {name : String} {entry : Entry}
    (hnew : ∀ spot ∈ done, loc ++ [name] ≠ spot.loc)
    (hentry : start.disk.tree.get? (loc ++ [name]) = some entry)
    (hgone : w.disk.tree.get? (loc ++ [name]) = none) : name = engine.settings.outputDirName := by
  by_contra hne
  have huncovered := not_covered_child (hground.sound.of_unstaged hopens.directory).2 hne
  rcases hprogress.course.shape _ (hprogress.outside hground hopens hnew) with hsame | ⟨hcovered, -⟩
  · obtain ⟨held, hheld, -⟩ := get?_of_shape hsame hentry
    rw [hgone] at hheld
    cases hheld
  · exact huncovered hcovered

/-- Whether a file is a script is answered as at the start. -/
theorem Progress.isScript_eq {name : String} {bytes : Bytes} {access : Access} {script : Bool}
    (hnew : ∀ spot ∈ done, loc ++ [name] ≠ spot.loc)
    (hheld : start.disk.tree.get? (loc ++ [name]) = some (.file bytes access))
    (hscript : Scan.isScript engine.rules (dir.child name) start.disk = .ok script)
    (hother : script = true → name ≠ engine.settings.outputDirName) :
    Scan.isScript engine.rules (dir.child name) w.disk = .ok script := by
  have hname := hground.sound.named hheld
  have hstart := opens_start hground hopens
  have hnow := hprogress.opens hground hopens
  cases hentry : w.disk.tree.get? (loc ++ [name]) with
  | none =>
    have heq := hprogress.name_eq_of_gone hground hopens hnew hheld hentry
    obtain rfl : script = false := by
      by_contra hne
      exact hother (by simpa using hne) heq
    exact hstart.isScript_of_missing hname (by simp [hheld]) hnow hentry hscript
  | some entry =>
    rcases hprogress.course.shape _ (hprogress.outside hground hopens hnew) with hsame | ⟨-, hgone⟩
    · obtain ⟨held, hthere, hbare⟩ := get?_of_shape hsame hheld
      cases held with
      | file bytes' access' =>
        rw [hstart.isScript_congr hname (by simp [hheld]) hnow hground.sound
          hprogress.course.sound hground.slashless hheld hthere, hscript]
      | directory => cases hbare
      | link target => cases hbare
    · rw [hgone] at hentry
      cases hentry

end Ground

section Walk

variable (hreplies : engine.Replies reply)
  (hout : Path.Component engine.settings.outputDirName)
  (hscope : engine.settings.cleanupScope = .file) (hground : start.disk.Ground root)
  (hknown : engine.Provided start)

include hreplies hout hscope hground hknown

/-- A script of an open directory is visited when the walk comes to it. -/
theorem Progress.went_script (hroot : root <+: loc)
    (hopens : (start.disk.unstaged root engine.settings.outputDirName).Opens dir loc)
    {name : String} {bytes : Bytes} {access : Access}
    (hheld : start.disk.tree.get? (loc ++ [name]) = some (.file bytes access))
    (hscript : Scan.isScript engine.rules (dir.child name) start.disk = .ok true)
    (hfits : engine.Fits start.disk (dir.child name)) (hprogress : engine.Progress root start done w)
    (hnew : ∀ spot ∈ done, ¬loc ++ [name] <+: spot.loc) :
    ∃ w', engine.Went root start (loc ++ [name]) (done.map Spot.file ++ [dir.child name]) done
      [⟨dir.child name, loc⟩]
      (engine.visit (done.map fun spot => engine.outcomeAlone start spot.file) (dir.child name))
      w w' := by
  have hname := hground.sound.named hheld
  have hstart := opens_start hground hopens
  have hparent : (dir.child name).parent = dir := Path.parent_child dir name
  have hlast : (dir.child name).name = name := Path.name_child dir name
  have htakes : dir.Takes name := by
    obtain ⟨_, _, _, hfind⟩ := isFile_eq_true_iff.mp (Scan.isFile_of_isScript hscript)
    exact hstart.takes_of_find hname hfind
  let spot : Spot := ⟨dir.child name, loc⟩
  have hspot : spot.loc = loc ++ [name] := congrArg (fun last => loc ++ [last]) hlast
  have hstands : spot.Stands root engine.settings.outputDirName start.disk := by
    refine ⟨?_, hroot, ⟨bytes, access, hspot ▸ hheld⟩, ?_⟩
    · exact hparent.symm ▸ hopens
    · change (dir.child name).parent.Takes (dir.child name).name
      rwa [hparent, hlast]
  have halone : spot.Alone engine.settings.outputDirName start.disk :=
    hfits.2.alone (hparent.symm ▸ hstart.found)
  obtain ⟨w', hvisit, hprogress'⟩ := hprogress.visit hreplies hout hscope hground hknown hfits.1
    hstands halone (fun other hother heq => hnew other hother (hspot ▸ heq ▸ List.prefix_rfl))
    (done.map fun spot => engine.outcomeAlone start spot.file)
  refine ⟨w', ?run, by simp, hprogress', ?below⟩
  case run => rw [hvisit, List.map_append, List.map_singleton]
  case below =>
    intro other hother
    obtain rfl := List.mem_singleton.mp hother
    rw [hspot]

/-- An entry of an open directory is gone through as the scan has gone through it. -/
theorem Progress.went_entry (hdeeper : engine.WalksBelow root start depth) (hroot : root <+: loc)
    (hopens : (start.disk.unstaged root engine.settings.outputDirName).Opens dir loc)
    {held : Entry} (hheld : start.disk.tree.get? (loc ++ [entry.1]) = some held)
    (hkind : entry.2 = held.kind)
    (hgather : Scan.gatherEntry engine.rules start.disk depth dir (done.map Spot.file) entry =
      .ok found)
    (hfits : ∀ file ∈ found, engine.Fits start.disk file)
    (hprogress : engine.Progress root start done w)
    (hnew : ∀ spot ∈ done, ¬loc ++ [entry.1] <+: spot.loc) :
    ∃ more w', engine.Went root start (loc ++ [entry.1]) found done more
      (Scan.entryM Act.look engine.rules engine.visit depth dir
        (done.map fun spot => engine.outcomeAlone start spot.file) entry) w w' := by
  obtain ⟨name, kind⟩ := entry
  have hother : ∀ spot ∈ done, loc ++ [name] ≠ spot.loc := fun spot hspot heq =>
    hnew spot hspot (heq ▸ List.prefix_rfl)
  have hfile (hkind' : kind ≠ .directory) : ∃ bytes access, held = .file bytes access := by
    cases held with
    | file bytes access => exact ⟨bytes, access, rfl⟩
    | directory => exact absurd hkind hkind'
    | link target =>
      exact absurd hheld (hground.linkless _ _ (hroot.trans (List.prefix_append _ _)))
  rcases Scan.gatherEntry_cases hgather with ⟨hdirectory, hskipped, rfl⟩ |
    ⟨hdirectory, hentered, hgather'⟩ | ⟨hkind', hscript, rfl⟩ | ⟨hkind', hscript, rfl⟩
  · refine ⟨[], w, .idle hprogress ?_⟩
    rw [Scan.entryM, if_pos hdirectory, if_pos hskipped]
    rfl
  · have hname : name ≠ engine.settings.outputDirName := by
      rintro rfl
      exact hentered engine.settings.outputDirName_mem_skipped
    obtain rfl : held = .directory := by
      cases held <;> simp_all [Entry.kind]
    have hstart := opens_start hground hopens
    -- the scan has listed the directory, so the system takes its path
    have htakes : dir.Takes name := by
      obtain ⟨_, entries, -, hlist, -⟩ := Scan.list_of_gather hgather'
      cases hfind : start.disk.find .followed (dir.child name) with
      | error why =>
        rw [Disk.list, hfind] at hlist
        cases hlist
      | ok found => exact hstart.takes_of_find (hground.sound.named hheld) hfind
    have hthere : (start.disk.unstaged root engine.settings.outputDirName).tree.get?
        (loc ++ [name]) = some .directory := by
      have huncovered := not_covered_child (hground.sound.of_unstaged hopens.directory).2 hname
      rw [hground.sound.get?_unstaged, if_neg huncovered, hheld]
    rw [Scan.entryM, if_pos hdirectory, if_neg hentered]
    exact hdeeper _ _ done w found (hroot.trans (List.prefix_append _ _))
      (hopens.child hground.sound.unstaged hthere (hground.slashless _ _ _ hheld) htakes.1 htakes.2)
      hgather' hfits hprogress hnew
  · obtain ⟨bytes, access, rfl⟩ := hfile hkind'
    have hfits' := hfits (dir.child name) (by simp)
    have hscript' := hprogress.isScript_eq hground hopens hother hheld hscript fun _ heq =>
      hfits'.2.other (by rw [Path.name_child, heq])
    obtain ⟨w', hwent⟩ := hprogress.went_script hreplies hout hscope hground hknown hroot hopens
      hheld hscript hfits' hnew
    refine ⟨_, w', ?_, hwent.found, hwent.progress, hwent.below⟩
    rw [Scan.entryM, if_neg hkind', Act.bind_of_ok (Act.look_of_ok hscript'), if_pos rfl]
    exact hwent.run
  · obtain ⟨bytes, access, rfl⟩ := hfile hkind'
    have hscript' := hprogress.isScript_eq hground hopens hother hheld hscript (by simp)
    refine ⟨[], w, .idle hprogress ?_⟩
    rw [Scan.entryM, if_neg hkind', Act.bind_of_ok (Act.look_of_ok hscript')]
    rfl

/-- The entries that are still there are gone through as the scan has gone through them all. -/
theorem Progress.went_entries (hdeeper : engine.WalksBelow root start depth) (hroot : root <+: loc)
    (hopens : (start.disk.unstaged root engine.settings.outputDirName).Opens dir loc)
    (there : String × Kind → Bool) {entries : List (String × Kind)}
    (hentries : ∀ entry ∈ entries, ∃ held,
      start.disk.tree.get? (loc ++ [entry.1]) = some held ∧ entry.2 = held.kind)
    (hordered : entries.Pairwise fun left right => left.1 < right.1)
    (hthere : ∀ entry ∈ entries, there entry = false →
      entry.1 = engine.settings.outputDirName)
    (hgather : entries.foldlM (Scan.gatherEntry engine.rules start.disk depth dir)
      (done.map Spot.file) = .ok found)
    (hfits : ∀ file ∈ found, engine.Fits start.disk file)
    (hprogress : engine.Progress root start done w)
    (hnew : ∀ spot ∈ done, ∀ entry ∈ entries, ¬loc ++ [entry.1] <+: spot.loc) :
    ∃ more w', engine.Went root start loc found done more
      ((entries.filter there).foldlM (Scan.entryM Act.look engine.rules engine.visit depth dir)
        (done.map fun spot => engine.outcomeAlone start spot.file)) w w' := by
  induction entries generalizing done w with
  | nil =>
    cases hgather
    exact ⟨[], w, .idle hprogress rfl⟩
  | cons entry rest ih =>
    obtain ⟨hfirst, hrest⟩ := List.pairwise_cons.mp hordered
    obtain ⟨⟨held, hheld, hkind⟩, hothers⟩ := List.forall_mem_cons.mp hentries
    obtain ⟨hentry, hmore⟩ := List.forall_mem_cons.mp hthere
    rw [List.foldlM_cons] at hgather
    obtain ⟨next, hnext, hgather⟩ := Except.ok_of_bind hgather
    have hkept : next <+: found := Scan.prefix_of_entries Scan.prefix_of_gather hgather
    have hsoon (spot : Spot) (hspot : spot ∈ done) (other : String × Kind) (hother : other ∈ rest) :
        ¬loc ++ [other.1] <+: spot.loc := hnew spot hspot other (List.mem_cons_of_mem _ hother)
    cases hcase : there entry with
    | false =>
      have hname := hentry hcase
      obtain rfl : next = done.map Spot.file := by
        rcases Scan.gatherEntry_cases hnext with ⟨-, -, rfl⟩ | ⟨-, hentered, -⟩ | ⟨-, -, rfl⟩ |
          ⟨-, -, rfl⟩
        · rfl
        · exact absurd (hname ▸ engine.settings.outputDirName_mem_skipped) hentered
        · have hfits' := hfits (dir.child entry.1) (hkept.subset (by simp))
          exact absurd (by rw [Path.name_child, hname]) hfits'.2.other
        · rfl
      rw [List.filter_cons_of_neg (by simp [hcase])]
      exact ih hothers hrest hmore hgather hprogress hsoon
    | true =>
      obtain ⟨first, w₁, hwent⟩ := hprogress.went_entry hreplies hout hscope hground hknown hdeeper
        hroot hopens hheld hkind hnext (fun file hfile => hfits file (hkept.subset hfile))
        fun spot hspot => hnew spot hspot entry List.mem_cons_self
      rw [hwent.found] at hgather
      -- what has just been processed lies below this entry, and not below a later one
      have hlater (spot : Spot) (hspot : spot ∈ done ++ first) (other : String × Kind)
          (hother : other ∈ rest) : ¬loc ++ [other.1] <+: spot.loc := by
        intro hpre
        rcases List.mem_append.mp hspot with hspot | hspot
        · exact hsoon spot hspot other hother hpre
        · have hsame := List.prefix_of_prefix_length_le (hwent.below spot hspot) hpre (by simp)
          have heq := List.append_cancel_left (hsame.eq_of_length (by simp))
          have hlt := hfirst other hother
          rw [List.singleton_inj.mp heq] at hlt
          exact lt_irrefl _ hlt
      obtain ⟨more, w', hwent'⟩ := ih hothers hrest hmore hgather hwent.progress hlater
      refine ⟨first ++ more, w', ?run, ?found, ?progress, ?below⟩
      case run =>
        rw [List.filter_cons_of_pos hcase, List.foldlM_cons, Act.bind_of_ok hwent.run, hwent'.run,
          List.append_assoc]
      case found => rw [hwent'.found, List.append_assoc]
      case progress => simpa [List.append_assoc] using hwent'.progress
      case below =>
        intro spot hspot
        rcases List.mem_append.mp hspot with hspot | hspot
        · exact (List.prefix_append _ _).trans (hwent.below spot hspot)
        · exact hwent'.below spot hspot

/-- A walk processes what a scan at the start finds.  The induction is on how far down a path
can still be named; below it goes the one over the entries of a listing. -/
theorem walksBelow (depth : Nat) : engine.WalksBelow root start depth := by
  induction depth with
  | zero =>
    intro dir loc done w found _ _ hgather
    obtain ⟨less, _, heq, -⟩ := Scan.list_of_gather hgather
    cases heq
  | succ depth ih =>
    intro dir loc done w found hroot hopens hgather hfits hprogress hnew
    obtain ⟨less, entries, heq, hlist, hfold⟩ := Scan.list_of_gather hgather
    cases heq
    have hlisted {disk : Disk} (hdir : disk.Opens dir loc) :
        disk.list dir = .ok (disk.tree.listing loc) := by
      rw [Disk.list, hdir.found]
      rfl
    rw [hlisted (opens_start hground hopens)] at hlist
    cases hlist
    have hoff (name : String) (spot : Spot) (hspot : spot ∈ done) : loc ++ [name] ≠ spot.loc :=
      fun heq => hnew spot hspot (heq ▸ List.prefix_append _ _)
    have hlisting := hground.sound.listing_eq_filter hprogress.course.sound fun name =>
      (hprogress.course.shape _ (hprogress.outside hground hopens (hoff name))).imp_right And.right
    have hentries (entry : String × Kind) (hentry : entry ∈ start.disk.tree.listing loc) :
        ∃ held, start.disk.tree.get? (loc ++ [entry.1]) = some held ∧ entry.2 = held.kind :=
      hground.sound.mem_listing_iff.mp hentry
    have hnow : w.disk.query Disk.list dir = .ok (w.disk.tree.listing loc) := by
      rw [Disk.query, hlisted (hprogress.opens hground hopens)]
    obtain ⟨more, w', hwent⟩ := hprogress.went_entries hreplies hout hscope hground hknown ih hroot
      hopens (fun entry => (w.disk.tree.get? (loc ++ [entry.1])).isSome) hentries
      (start.disk.tree.listing_pairwise loc)
      (fun entry hentry hgone => by
        obtain ⟨held, hheld, -⟩ := hentries entry hentry
        exact hprogress.name_eq_of_gone hground hopens (hoff entry.1) hheld (by simpa using hgone))
      hfold hfits
      (fun spot hspot entry _ hpre => hnew spot hspot ((List.prefix_append _ _).trans hpre))
    refine ⟨more, w', ?_, hwent.found, hwent.progress, hwent.below⟩
    rw [Scan.foldM_succ, Act.bind_of_ok (Act.look_of_ok hnow), hlisting]
    exact hwent.run

/-- What is left at a file is what is left at it if it is the only one. -/
theorem Progress.content?_eq (hprogress : engine.Progress root start done w) {spot : Spot}
    (hspot : spot ∈ done) (hkeeps : engine.KeepsTo spot.file) : w.disk.content? spot.file =
      ((engine.processFile spot.file).final start).disk.content? spot.file := by
  have hstands := hprogress.stands spot hspot
  have halone := hprogress.alone spot hspot
  have hname := hstands.named hground.sound
  have hchild := hstands.child hground.sound
  have hnul : spot.file.hasNul = false := by
    rw [← hchild]
    exact hstands.takes.1.1
  have hready := hstands.ready hground halone
  have hhandled := (processFile_agreesAt hkeeps hreplies hout halone.other hscope hname hnul
    hstands.below hready hready (fun _ _ => rfl) hknown hknown).2.left
  have hopens := hstands.opens.retained (hhandled.retains hground.sound hground.linkless (by
    intro source hsource
    obtain rfl := List.mem_singleton.mp hsource
    exact ⟨hstands.below.trans (List.prefix_append _ _), hstands.ne_directory⟩))
    hground.sound.unstaged hhandled.sound
  have hplain (target : String) := hprogress.course.plain spot.loc target
    ⟨spot.loc, List.mem_map_of_mem hspot, List.prefix_rfl⟩
  have hplain' (target : String) := hhandled.plain spot.loc target
    ⟨spot.loc, List.mem_cons_self, List.prefix_rfl⟩
  have hleft := (hprogress.opens hground hstands.opens).content?_child hname hplain hstands.takes
  have hright := hopens.content?_child hname hplain' hstands.takes
  rw [hchild] at hleft hright
  rw [hleft, hright]
  exact Tree.bytes?_congr (hprogress.settled spot hspot)

end Walk

/-- A report changes nothing of what has been processed. -/
theorem Progress.said (hprogress : engine.Progress root start done w) (level : Level)
    (message : String) : engine.Progress root start done (w.said engine.reporter level message) where
  provided := hprogress.provided
  stands := hprogress.stands
  alone := hprogress.alone
  course := by
    have hcourse := hprogress.course.trans
      (.swept List.prefix_rfl (swept_logged hprogress.course.sound (logLine w.now level message)))
    rw [List.append_nil] at hcourse
    exact hcourse
  settled spot hspot := by
    rw [← hprogress.settled spot hspot]
    exact get?_logged _ (hprogress.course.unlogged ((hprogress.alone spot hspot).unlogged _
      ⟨spot.loc, List.mem_cons_self, List.prefix_rfl⟩))

/-- A walk over a directory that stays open, with tools that keep to their files, has one outcome
for each script that a scan finds at the start, in the order of the scan.  Each outcome, and what
is left at each file, is as if that file had been the only one to be processed. -/
theorem processDirectory_fileByFile {files : List Path} (hreplies : engine.Replies reply)
    (hout : Path.Component engine.settings.outputDirName)
    (hscope : engine.settings.cleanupScope = .file) (hknown : engine.Provided start)
    (hground : start.disk.Ground root)
    (hopens : (start.disk.unstaged root engine.settings.outputDirName).Opens dir root)
    (hscripts : Scan.scripts engine.rules start.disk dir = .ok files)
    (hfits : ∀ file ∈ files, engine.Fits start.disk file) :
    ∃ w', engine.processDirectory dir start = .ok (files.map (engine.outcomeAlone start)) w' ∧
      ∀ file ∈ files, w'.disk.content? file =
        ((engine.processFile file).final start).disk.content? file := by
  have hcount : Scan.count engine.rules start.disk dir = .ok files.length := by
    rw [Scan.count, hscripts]
    rfl
  have hbegun : engine.Progress root start [] _ := (Progress.refl hknown hground.sound).said .info
    ("Processing directory: " ++ dir.toString ++ " (" ++ toString files.length ++ " files)")
  obtain ⟨more, w₁, hwent⟩ := walksBelow hreplies hout hscope hground hknown pathMax dir root []
    _ files List.prefix_rfl hopens hscripts hfits hbegun (by simp)
  have hend := hwent.progress.said .success ("All files processed in " ++ dir.toString ++ ".")
  have hfound := hwent.found
  rw [List.nil_append] at hend hfound
  subst hfound
  let w' := w₁.said engine.reporter .success ("All files processed in " ++ dir.toString ++ ".")
  refine ⟨w', ?outcomes, fun file hfile => ?content⟩
  case outcomes =>
    have hrun : engine.processDirectory dir start =
        .ok ((([] : List Spot) ++ more).map fun spot => engine.outcomeAlone start spot.file) w' :=
      (Act.bind_of_ok (Act.look_of_ok hcount)).trans
        ((Act.bind_of_ok (engine.reporter.info_eq _ start)).trans
          ((Act.bind_of_ok hwent.run).trans (Act.bind_of_ok (engine.reporter.success_eq _ w₁))))
    rw [hrun, List.nil_append, List.map_map]
    rfl
  case content =>
    obtain ⟨spot, hspot, rfl⟩ := List.mem_map.mp hfile
    exact hend.content?_eq hreplies hout hscope hground hknown hspot (hfits _ hfile).1

end Engine

section Samples

namespace Sample

variable {edit : Disk → Loc → Disk} {command : Command} {file : Path} {outputName : String}
  {dir : Loc} {disk : Disk}

/-- A text is called obfuscated unless it is empty. -/
def finding (text : String) : Except Fault Completed :=
  .ok { args := [], stdout := some (if text = "" then "\x7b\"type\": null\x7d" else verdict) }

/-- The detector gives its finding.  A tool edits the file that is its last argument, and fails
where there is none. -/
def editing (edit : Disk → Loc → Disk) : Runner Unit := fun command disk tools =>
  match command.input with
  | some text => (finding text, disk, tools)
  | none =>
    match disk.find .followed (.ofString (command.argv.getLast?.getD "")) with
    | .ok (.present loc (.file _ _)) => (.ok { args := command.argv }, edit disk loc, tools)
    | _ => (.error (.command command.argv "no file" (some 1)), disk, tools)

def editor (edit : Disk → Loc → Disk) : Engine Unit := engine (editing edit) [Step.custom ["tidy"]]

theorem editor_replies (edit : Disk → Loc → Disk) : (editor edit).Replies finding where
  answer _ _ _ := rfl
  unchanged _ _ _ := rfl
  minor _ _ hfault := by cases hfault

/-- The command has the path of the file as its last argument. -/
structure Names (command : Command) (file : Path) : Prop where
  silent : command.input = none
  last : Path.ofString (command.argv.getLast?.getD "") = file
  ordinary : Path.Ordinary file.name
  child : file.parent.child file.name = file
  takes : file.parent.Takes file.name

theorem editing_eq (hnames : Names command file) (hplain : Plain file outputName dir disk)
    (tools : Unit) : editing edit command disk tools =
      if (disk.tree.bytes? (dir ++ [file.name])).isSome then
        (.ok { args := command.argv }, edit disk (dir ++ [file.name]), tools)
      else (.error (.command command.argv "no file" (some 1)), disk, tools) := by
  have hfind := find_child_of_reached hnames.ordinary hnames.takes.2 hnames.takes.1 hplain.reached
  rw [hnames.child] at hfind
  have hlink (target : String) := hplain.linkless (dir ++ [file.name]) target
    ⟨_, List.mem_cons_self, List.prefix_rfl⟩
  simp only [editing, hnames.silent, hnames.last]
  cases hheld : disk.tree.get? (dir ++ [file.name]) with
  | none =>
    rw [hheld] at hfind
    rw [find_followed_of_ne_link hfind (by simp), Tree.bytes?, hheld]
    rfl
  | some entry =>
    rw [hheld] at hfind
    rw [find_followed_of_ne_link hfind fun _ target heq => hlink target (by cases heq; exact hheld),
      Tree.bytes?, hheld]
    cases entry with
    | directory => rfl
    | file bytes access => rfl
    | link target => exact absurd hheld (hlink target)

/-- The edit is at one location. -/
def Spotted (edit : Disk → Loc → Disk) : Prop :=
  ∀ disk loc, loc ≠ [] → AgreeBeyond [loc] (edit disk loc) disk

theorem Spotted.agree (hedit : Spotted edit) (hnames : Names command file)
    (hplain : Plain file outputName dir disk) (tools : Unit) :
    AgreeBeyond (fileLocs file outputName dir) (editing edit command disk tools).2.1 disk := by
  rw [editing_eq hnames hplain]
  split
  · have hagree := hedit disk (dir ++ [file.name]) (by simp)
    refine ⟨fun loc hloc => hagree.tree loc ?_, hagree.cwd, hagree.waiting, hagree.log⟩
    simpa using hloc _ List.mem_cons_self
  · exact ⟨fun _ _ => rfl, rfl, rfl, rfl⟩

/-- Take away what a file holds. -/
def emptied (disk : Disk) (loc : Loc) : Disk := disk.alter loc fun _ => []

theorem emptied_spotted : Spotted emptied := by
  intro disk loc _
  have hplaces := disk.alter_places loc fun _ => []
  refine ⟨fun other hother => ?_, hplaces.1, hplaces.2.1, hplaces.2.2⟩
  rw [emptied, get?_alter, if_neg]
  rintro rfl
  exact hother other List.mem_cons_self List.prefix_rfl

theorem emptying_local (hnames : Names command file) :
    (editing emptied).Local file outputName command where
  changes disk tools dir hplain := by
    have hagree := emptied_spotted.agree hnames hplain tools
    rw [editing_eq hnames hplain] at hagree ⊢
    by_cases hfile : (disk.tree.bytes? (dir ++ [file.name])).isSome
    · rw [if_pos hfile] at hagree ⊢
      have hsound := hplain.sound.alter (dir ++ [file.name]) fun _ => []
      refine ⟨hsound, hagree.without_eq hsound hplain.sound fun loc => ne_nil_of_mem_fileLocs,
        fun loc target hlink => ?_⟩
      change (disk.alter _ _).tree.get? loc = _ at hlink
      rw [get?_alter] at hlink
      split at hlink
      · next heq =>
        subst heq
        rcases hheld : disk.tree.get? (dir ++ [file.name]) with _ | _ | _ | _ <;>
          rw [hheld] at hlink <;> cases hlink
        rfl
      · exact hlink
    · rw [if_neg hfile]
      exact ⟨hplain.sound, rfl, fun _ _ => id⟩
  log disk tools dir hplain loc hlog := by
    rwa [← (emptied_spotted.agree hnames hplain tools).log]
  alike disk disk' tools tools' dir hplain hplain' hsame := by
    have heq := hsame (dir ++ [file.name]) ⟨_, List.mem_cons_self, List.prefix_rfl⟩
    rw [editing_eq hnames hplain, editing_eq hnames hplain', Tree.bytes?_congr heq]
    split
    · refine ⟨rfl, fun loc hloc => ?_⟩
      change (disk.alter _ _).tree.get? loc = (disk'.alter _ _).tree.get? loc
      rw [get?_alter, get?_alter, heq, hsame loc hloc]
    · exact ⟨rfl, hsame⟩
  minor disk tools fault hfault := by
    simp only [editing, hnames.silent] at hfault
    split at hfault
    · cases hfault
    · cases hfault
      rfl

/-- A world in which the detector is at hand. -/
def provided (disk : Disk) : World Unit :=
  { world disk with ensured := [(.project, Settings.detectorPackage {})] }

/-- Two files next to a staging directory. -/
def pair (first second : Bytes) : Disk := Sample.disk
  [(["d"], .directory), (["d", "a.js"], .file first {}), (["d", "b.js"], .file second {}),
    (["d", "output_dir"], .directory)]

/-- A directory and a path to it by way of its staging directory. -/
def ways : List Path := [⟨.here, ["d"]⟩, ⟨.here, ["d", "output_dir", ".."]⟩]

section Ways

variable {way : Path} (hway : way ∈ ways) (hfile : file ∈ [way.child "a.js", way.child "b.js"])

include hway hfile

theorem names_of_isFor (hfor : (editor edit).IsFor file command) : Names command file := by
  have hpaths : ∀ way ∈ ways, ∀ file ∈ [way.child "a.js", way.child "b.js"],
      Path.ofString file.toString = file ∧ Path.Ordinary file.name ∧
        file.parent.child file.name = file ∧ file.parent.Takes file.name := by
    decide +kernel
  obtain ⟨hlast, hname, hchild, htakes⟩ := hpaths way hway file hfile
  obtain ⟨step, hstep, argv, hargv, rfl⟩ := hfor
  rw [List.mem_singleton.mp hstep] at hargv
  cases hargv
  exact ⟨rfl, hlast, hname, hchild, htakes⟩

theorem pair_apart {first second : Bytes}
    (hfacts : ∀ way ∈ ways, ∀ file ∈ [way.child "a.js", way.child "b.js"],
      "output_dir" ≠ file.name ∧
        (pair first second).find .followed file.parent = .ok (.present ["d"] .directory) ∧
          ∀ ending ∈ [".temp", ".deobfuscated.js"],
            (pair first second).tree.get? (["d"] ++ [file.name ++ ending]) = none) :
    (pair first second).Apart file "output_dir" := by
  obtain ⟨hother, hfound, hfresh⟩ := hfacts way hway file hfile
  refine ⟨hother, fun dir hdir => ?_, fun _ _ _ _ => by simp [pair, Sample.disk]⟩
  rw [hfound] at hdir
  cases hdir
  exact hfresh

theorem emptying_fits : (editor emptied).Fits (pair [120] []) file := by
  refine ⟨⟨fun command hfor => emptying_local (names_of_isFor hway hfile hfor), ?_⟩,
    pair_apart hway hfile (by decide +kernel)⟩
  intro step hstep fault hfault
  rw [List.mem_singleton.mp hstep] at hfault
  cases hfault

end Ways

theorem pair_ground : (pair [120] []).Ground ["d"] where
  sound := by decide
  slashless := by decide
  linkless loc target _ := (by decide : (pair [120] []).tree.Linkless) loc target

end Sample

theorem pair_processed_fileByFile :
    ∃ w', (Sample.editor Sample.emptied).processDirectory ⟨.here, ["d"]⟩
        (Sample.provided (Sample.pair [120] [])) =
          .ok ([⟨.here, ["d", "a.js"]⟩, ⟨.here, ["d", "b.js"]⟩].map
            ((Sample.editor Sample.emptied).outcomeAlone
              (Sample.provided (Sample.pair [120] [])))) w' ∧
      ∀ file ∈ [(⟨.here, ["d", "a.js"]⟩ : Path), ⟨.here, ["d", "b.js"]⟩], w'.disk.content? file =
        (((Sample.editor Sample.emptied).processFile file).final
          (Sample.provided (Sample.pair [120] []))).disk.content? file :=
  Engine.processDirectory_fileByFile (Sample.editor_replies Sample.emptied) (by decide) rfl
    List.mem_cons_self Sample.pair_ground (by decide +kernel)
    (Except.eq_ok_of_toOption (by decide +kernel))
    fun file hfile => Sample.emptying_fits List.mem_cons_self hfile

/-- A tool that leaves a link to the second file in the place of the first. -/
def Sample.relinked (disk : Disk) (loc : Loc) : Disk :=
  if loc = ["d", "a.js"] then disk.insert loc (.link "b.js") else emptied disk loc

theorem Sample.relinked_spotted : Spotted relinked := by
  intro disk loc hloc
  unfold relinked
  split
  · refine ⟨fun other hother => ?_, rfl, rfl, rfl⟩
    rw [get?_insert _ hloc, if_neg]
    rintro rfl
    exact hother other List.mem_cons_self List.prefix_rfl
  · exact emptied_spotted disk loc hloc

/-- The first of two files is the log. -/
def Sample.loggedPair : Disk := { pair [120] [] with log := some ["d", "a.js"] }

/-- A file does not fare as if it were the only one if the path to the directory goes through a
staging directory, which is gone after the first file; if a tool leaves a link to another file; or
if the file is the log. -/
theorem files_interfere :
    (∀ edit, (Sample.editor edit).Replies Sample.finding) ∧
      (∀ disk, (Sample.editor Sample.emptied).Provided (Sample.provided disk)) ∧
      (∀ way ∈ Sample.ways, ∀ file ∈ [way.child "a.js", way.child "b.js"],
        (Sample.editor Sample.emptied).Fits (Sample.pair [120] []) file) ∧
      ((Sample.pair [120] []).Ground ["d"] ∧
        (Sample.pair [120] []).find .followed ⟨.here, ["d", "output_dir", ".."]⟩ =
          .ok (.present ["d"] .directory) ∧
        Scan.scripts Sample.tidying.rules (Sample.pair [120] [])
            ⟨.here, ["d", "output_dir", ".."]⟩ =
          .ok [⟨.here, ["d", "output_dir", "..", "a.js"]⟩,
            ⟨.here, ["d", "output_dir", "..", "b.js"]⟩] ∧
        (((Sample.editor Sample.emptied).processDirectory
          ⟨.here, ["d", "output_dir", ".."]⟩).result
            (Sample.provided (Sample.pair [120] []))).toOption.map List.length = some 1) ∧
      ((∀ file ∈ [(⟨.here, ["d", "a.js"]⟩ : Path), ⟨.here, ["d", "b.js"]⟩],
          (Sample.pair [120] [120]).Apart file "output_dir" ∧
            ∀ command, (Sample.editor Sample.relinked).IsFor file command →
              ∀ disk tools dir, Plain file "output_dir" dir disk →
                AgreeBeyond (fileLocs file "output_dir" dir)
                  (Sample.editing Sample.relinked command disk tools).2.1 disk) ∧
        (((Sample.editor Sample.relinked).processDirectory ⟨.here, ["d"]⟩).final
          (Sample.provided (Sample.pair [120] [120]))).disk.content? ⟨.here, ["d", "a.js"]⟩ =
            some [] ∧
        (((Sample.editor Sample.relinked).processFile ⟨.here, ["d", "a.js"]⟩).final
          (Sample.provided (Sample.pair [120] [120]))).disk.content? ⟨.here, ["d", "a.js"]⟩ =
            some [120]) ∧
      (Sample.loggedPair.Ground ["d"] ∧
        (((Sample.editor Sample.emptied).processDirectory ⟨.here, ["d"]⟩).final
          (Sample.provided Sample.loggedPair)).disk.content? ⟨.here, ["d", "a.js"]⟩ ≠
            (((Sample.editor Sample.emptied).processFile ⟨.here, ["d", "a.js"]⟩).final
              (Sample.provided Sample.loggedPair)).disk.content? ⟨.here, ["d", "a.js"]⟩) := by
  refine ⟨Sample.editor_replies, fun disk => List.mem_cons_self,
    fun way hway file hfile => Sample.emptying_fits hway hfile, ?detour, ?link, ?log⟩
  case detour =>
    exact ⟨Sample.pair_ground, by decide +kernel, Except.eq_ok_of_toOption (by decide +kernel),
      by decide +kernel⟩
  case link =>
    refine ⟨fun file hfile => ⟨?_, fun command hfor disk tools dir hplain => ?_⟩,
      by decide +kernel, by decide +kernel⟩
    · exact Sample.pair_apart List.mem_cons_self hfile (by decide +kernel)
    · have hnames := Sample.names_of_isFor List.mem_cons_self hfile hfor
      exact Sample.relinked_spotted.agree hnames hplain tools
  case log =>
    have hlinkless : Sample.loggedPair.tree.Linkless := by decide
    exact ⟨⟨by decide, by decide, fun loc target _ => hlinkless loc target⟩, by decide +kernel⟩

end Samples

end Unscramble
