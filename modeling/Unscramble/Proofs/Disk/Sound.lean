import Mathlib
import Unscramble.Proofs.Disk.Find

/-!
# Sound disks

On a sound disk every entry lies in a directory, working directories are
directories and the log is a file.  Every change the program makes keeps a disk
sound, and two trees without an entry of their own for the root are equal once
they hold the same entries.
-/

namespace Unscramble

namespace Tree

variable {tree tree' : Tree}

@[simp]
theorem get?_nil (tree : Tree) : tree.get? [] = some .directory := if_pos rfl

theorem ne_nil_of_get? {loc : Loc} {entry : Entry} (hloc : tree.get? loc = some entry)
    (hentry : entry ≠ .directory) : loc ≠ [] := by
  rintro rfl
  rw [get?_nil] at hloc
  exact hentry (Option.some.inj hloc).symm

theorem find_eq_some_iff {loc : Loc} {entry : Entry} {entries : List (Loc × Entry)}
    (hsorted : entries.Pairwise (fun left right => left.1 < right.1)) :
    find loc entries = some entry ↔ (loc, entry) ∈ entries := by
  induction entries with
  | nil => simp [find]
  | cons head rest ih =>
      obtain ⟨other, held⟩ := head
      obtain ⟨hhead, hrest⟩ := List.pairwise_cons.mp hsorted
      by_cases hloc : other = loc
      · subst hloc
        have hfresh : (other, entry) ∉ rest := fun hmem => lt_irrefl other (hhead (other, entry) hmem)
        simp [find, hfresh, eq_comm]
      · simp [find, hloc, ih hrest, Ne.symm hloc]

/-- No entry stands for the root, which is always there. -/
def Rooted (tree : Tree) : Prop := ∀ x ∈ tree.entries, x.1 ≠ []

theorem mem_entries_iff (hrooted : tree.Rooted) {loc : Loc} {entry : Entry} :
    (loc, entry) ∈ tree.entries ↔ loc ≠ [] ∧ tree.get? loc = some entry := by
  by_cases hloc : loc = []
  · subst hloc
    simpa using fun hmem => hrooted _ hmem rfl
  · simp [get?, hloc, find_eq_some_iff tree.sorted]

/-- Two trees that hold the same entries are equal. -/
theorem ext_get? (hrooted : tree.Rooted) (hrooted' : tree'.Rooted)
    (hget : ∀ loc, tree.get? loc = tree'.get? loc) : tree = tree' := by
  have hentries : tree.entries = tree'.entries := by
    refine List.Pairwise.eq_of_mem_iff
      (r := fun left right : Loc × Entry => left.1 < right.1) tree.sorted tree'.sorted ?_
    rintro ⟨loc, entry⟩
    rw [mem_entries_iff hrooted, mem_entries_iff hrooted', hget]
  cases tree
  cases tree'
  cases hentries
  rfl

end Tree

namespace Disk

structure Sound (disk : Disk) : Prop where
  rooted : disk.tree.Rooted
  /-- What holds an entry is a directory. -/
  closed : ∀ {dir name entry}, disk.tree.get? (dir ++ [name]) = some entry →
    disk.tree.get? dir = some .directory
  named : ∀ {dir name entry}, disk.tree.get? (dir ++ [name]) = some entry → Path.Ordinary name
  working : disk.tree.get? disk.cwd.above = some .directory
  waiting : ∀ place ∈ disk.waiting, disk.tree.get? place.above = some .directory
  logging : ∀ {loc}, disk.log = some loc → ∃ bytes access,
    disk.tree.get? loc = some (.file bytes access)

theorem workingLoc?_eq_some_iff {disk : Disk} {start : Loc} :
    disk.workingLoc? = some start ↔ disk.cwd = ⟨start, 0⟩ := by
  rcases hcwd : disk.cwd with ⟨above, lost⟩
  rw [workingLoc?, hcwd]
  by_cases hlost : lost = 0 <;> simp [hlost]

theorem Sound.directory_of_workingLoc? {disk : Disk} (hsound : disk.Sound) {start : Loc}
    (hstart : disk.workingLoc? = some start) : disk.tree.get? start = some .directory := by
  have hworking := hsound.working
  rwa [workingLoc?_eq_some_iff.mp hstart] at hworking

theorem get?_insert (disk : Disk) {loc : Loc} (hloc : loc ≠ []) (entry : Entry) (q : Loc) :
    (disk.insert loc entry).tree.get? q = if q = loc then some entry else disk.tree.get? q :=
  Tree.get?_insert _ _ _ hloc

theorem get?_within (disk : Disk) {loc : Loc} (hloc : loc ≠ []) (q : Loc) :
    (disk.eraseWithin loc).tree.get? q = if loc <+: q then none else disk.tree.get? q :=
  Tree.get?_eraseWithin _ _ hloc

theorem get?_below (disk : Disk) (loc q : Loc) :
    (disk.eraseBelow loc).tree.get? q =
      if loc <+: q ∧ loc ≠ q then none else disk.tree.get? q :=
  Tree.get?_eraseBelow _ _ _

variable {disk : Disk}

theorem Sound.directory_of_prefix (hsound : disk.Sound) {p q : Loc} {entry : Entry}
    (hpq : p <+: q) (hne : p ≠ q) (hq : disk.tree.get? q = some entry) :
    disk.tree.get? p = some .directory := by
  induction q using List.reverseRecOn generalizing entry with
  | nil => exact absurd (List.prefix_nil.mp hpq) hne
  | append_singleton dir name ih =>
      have hdir := hsound.closed hq
      rcases List.prefix_concat_iff.mp hpq with heq | hpre
      · exact absurd heq hne
      · by_cases hp : p = dir
        · rw [hp, hdir]
        · exact ih hpre hp hdir

/-- The names on the way to an entry are names of entries. -/
theorem Sound.ordinary_of_mem (hsound : disk.Sound) {loc : Loc} {entry : Entry}
    (hloc : disk.tree.get? loc = some entry) : ∀ name ∈ loc, Path.Ordinary name := by
  induction loc using List.reverseRecOn generalizing entry with
  | nil => exact fun _ hname => absurd hname (by simp)
  | append_singleton loc last ih =>
      intro name hname
      rcases List.mem_append.mp hname with hname | hname
      · exact ih (hsound.closed hloc) name hname
      · rw [List.mem_singleton.mp hname]
        exact hsound.named hloc

theorem Sound.up_closed (hsound : disk.Sound) {loc : Loc}
    (hloc : disk.tree.get? loc = some .directory) :
    disk.tree.get? loc.dropLast = some .directory := by
  rcases List.eq_nil_or_concat' loc with rfl | ⟨init, last, rfl⟩
  · exact hloc
  · rw [List.dropLast_concat]
    exact hsound.closed hloc

/-- Nothing lies below what is not a directory. -/
theorem Sound.missing_below (hsound : disk.Sound) {p q : Loc}
    (hp : disk.tree.get? p ≠ some .directory) (hpq : p <+: q) (hne : p ≠ q) :
    disk.tree.get? q = none := by
  by_contra hq
  obtain ⟨entry, hentry⟩ := Option.ne_none_iff_exists'.mp hq
  exact hp (hsound.directory_of_prefix hpq hne hentry)

/-- Erasing what is not a directory takes away one entry. -/
theorem Sound.get?_eraseWithin (hsound : disk.Sound) {loc : Loc}
    (hloc : disk.tree.get? loc ≠ some .directory) (q : Loc) :
    (disk.tree.eraseWithin loc).get? q = if q = loc then none else disk.tree.get? q := by
  have hne : loc ≠ [] := by
    rintro rfl
    exact hloc disk.tree.get?_nil
  rw [Tree.get?_eraseWithin _ _ hne]
  by_cases hq : q = loc
  · simp [hq]
  · by_cases hpre : loc <+: q
    · simp [hpre, hq, hsound.missing_below hloc hpre (Ne.symm hq)]
    · simp [hpre, hq]

/-- A new entry in a directory, in the place of nothing or of what is no directory. -/
theorem Sound.insert (hsound : disk.Sound) {dir : Loc} {name : String} {entry : Entry}
    (hdir : disk.tree.get? dir = some .directory) (hname : Path.Ordinary name)
    (hold : disk.tree.get? (dir ++ [name]) ≠ some .directory)
    (hlog : disk.log = some (dir ++ [name]) → ∃ bytes access, entry = .file bytes access) :
    (disk.insert (dir ++ [name]) entry).Sound := by
  have hget := disk.get?_insert (by simp : dir ++ [name] ≠ []) entry
  have hkeep {q : Loc} (hq : disk.tree.get? q = some .directory) :
      (disk.insert (dir ++ [name]) entry).tree.get? q = some .directory := by
    rw [hget, if_neg, hq]
    rintro rfl
    exact hold hq
  constructor
  case rooted =>
    intro x hx
    rcases Tree.mem_place hx with rfl | hx
    · simp
    · exact hsound.rooted x hx
  case closed =>
    intro p n held hheld
    rw [hget] at hheld
    split at hheld
    · next heq =>
        rw [(List.append_inj' heq rfl).1]
        exact hkeep hdir
    · exact hkeep (hsound.closed hheld)
  case named =>
    intro p n held hheld
    rw [hget] at hheld
    split at hheld
    · next heq =>
        have hn : n = name := List.singleton_injective (List.append_inj' heq rfl).2
        rwa [hn]
    · exact hsound.named hheld
  case working => exact hkeep hsound.working
  case waiting => exact fun place hplace => hkeep (hsound.waiting place hplace)
  case logging =>
    intro loc hloc
    rw [hget]
    split
    · next heq =>
        obtain ⟨bytes, access, rfl⟩ := hlog (heq ▸ hloc)
        exact ⟨bytes, access, rfl⟩
    · exact hsound.logging hloc

theorem alter_eq (disk : Disk) (loc : Loc) (change : Bytes → Bytes) :
    (∃ bytes access, disk.tree.get? loc = some (.file bytes access) ∧
      disk.alter loc change = disk.insert loc (.file (change bytes) access)) ∨
    disk.alter loc change = disk := by
  unfold alter
  split
  · next bytes access hfile => exact .inl ⟨bytes, access, hfile, rfl⟩
  · exact .inr rfl

theorem Sound.alter (hsound : disk.Sound) (loc : Loc) (change : Bytes → Bytes) :
    (disk.alter loc change).Sound := by
  rcases disk.alter_eq loc change with ⟨bytes, access, hfile, halter⟩ | halter
  · rcases List.eq_nil_or_concat' loc with rfl | ⟨dir, name, rfl⟩
    · simp at hfile
    · rw [halter]
      exact hsound.insert (hsound.closed hfile) (hsound.named hfile) (by simp [hfile])
        fun _ => ⟨_, _, rfl⟩
  · rw [halter]
    exact hsound

theorem Sound.eraseWithin (hsound : disk.Sound) {loc : Loc} (hloc : loc ≠ []) :
    (disk.eraseWithin loc).Sound := by
  have hget := disk.get?_within hloc
  have hplace {place : Standpoint} (hplace : disk.tree.get? place.above = some .directory) :
      (disk.eraseWithin loc).tree.get? (place.within loc).above = some .directory := by
    unfold Standpoint.within
    split
    · next hpre =>
        obtain ⟨dir, name, rfl⟩ := (List.eq_nil_or_concat' loc).resolve_left hloc
        have hdir : dir <+: place.above := (List.prefix_append dir [name]).trans hpre
        have hne : dir ≠ place.above := by
          rintro rfl
          simpa using hpre.length_le
        rw [hget, List.dropLast_concat, if_neg fun h => by simpa using h.length_le]
        exact hsound.directory_of_prefix hdir hne hplace
    · next hpre => rw [hget, if_neg hpre, hplace]
  constructor
  case rooted => exact fun x hx => hsound.rooted x (List.mem_filter.mp hx).1
  case closed =>
    intro p n held hheld
    rw [hget] at hheld ⊢
    split at hheld
    · cases hheld
    · next hpre =>
        rw [if_neg fun h => hpre (h.trans (List.prefix_append p [n])), hsound.closed hheld]
  case named =>
    intro p n held hheld
    rw [hget] at hheld
    split at hheld
    · cases hheld
    · exact hsound.named hheld
  case working => exact hplace hsound.working
  case waiting =>
    intro place hmem
    obtain ⟨old, hold, rfl⟩ := List.mem_map.mp hmem
    exact hplace (hsound.waiting old hold)
  case logging =>
    intro q hq
    obtain ⟨hlog, hkeep⟩ := Option.filter_eq_some_iff.mp hq
    rw [hget, if_neg (by simpa using hkeep)]
    exact hsound.logging hlog

theorem Sound.eraseBelow (hsound : disk.Sound) {loc : Loc}
    (hloc : disk.tree.get? loc = some .directory) : (disk.eraseBelow loc).Sound := by
  have hget := disk.get?_below loc
  have hplace {place : Standpoint} (hplace : disk.tree.get? place.above = some .directory) :
      (disk.eraseBelow loc).tree.get? (place.below loc).above = some .directory := by
    unfold Standpoint.below
    split
    · rw [hget, if_neg fun h => h.2 rfl, hloc]
    · next hpre => rw [hget, if_neg fun h => hpre h.1, hplace]
  constructor
  case rooted => exact fun x hx => hsound.rooted x (List.mem_filter.mp hx).1
  case closed =>
    intro p n held hheld
    rw [hget] at hheld ⊢
    split at hheld
    · cases hheld
    · next hbelow =>
        rw [if_neg, hsound.closed hheld]
        rintro ⟨hpre, -⟩
        refine hbelow ⟨hpre.trans (List.prefix_append p [n]), ?_⟩
        rintro rfl
        simpa using hpre.length_le
  case named =>
    intro p n held hheld
    rw [hget] at hheld
    split at hheld
    · cases hheld
    · exact hsound.named hheld
  case working => exact hplace hsound.working
  case waiting =>
    intro place hmem
    obtain ⟨old, hold, rfl⟩ := List.mem_map.mp hmem
    exact hplace (hsound.waiting old hold)
  case logging =>
    intro q hq
    obtain ⟨hlog, hkeep⟩ := Option.filter_eq_some_iff.mp hq
    rw [hget, if_neg (by simpa [or_iff_not_imp_left] using hkeep)]
    exact hsound.logging hlog

/-- Only an entry that holds others is a place to work in. -/
theorem Sound.not_prefix_above (hsound : disk.Sound) {loc : Loc} {place : Standpoint}
    (hloc : disk.tree.get? loc ≠ some .directory)
    (hplace : disk.tree.get? place.above = some .directory) : ¬loc <+: place.above := by
  intro hpre
  by_cases heq : loc = place.above
  · exact hloc (heq ▸ hplace)
  · exact hloc (hsound.directory_of_prefix hpre heq hplace)

theorem Sound.cwd_within (hsound : disk.Sound) {loc : Loc}
    (hloc : disk.tree.get? loc ≠ some .directory) : disk.cwd.within loc = disk.cwd :=
  if_neg (hsound.not_prefix_above hloc hsound.working)

theorem Sound.waiting_within (hsound : disk.Sound) {loc : Loc}
    (hloc : disk.tree.get? loc ≠ some .directory) :
    disk.waiting.map (·.within loc) = disk.waiting := by
  conv_rhs => rw [← List.map_id disk.waiting]
  exact List.map_congr_left fun place hplace =>
    if_neg (hsound.not_prefix_above hloc (hsound.waiting place hplace))

/-- Nothing changes where nothing is. -/
theorem Sound.eraseWithin_of_missing (hsound : disk.Sound) {loc : Loc}
    (hloc : disk.tree.get? loc = none) : disk.eraseWithin loc = disk := by
  have hleaf : disk.tree.get? loc ≠ some .directory := by simp [hloc]
  have htree : disk.tree.eraseWithin loc = disk.tree := by
    refine Tree.ext_get? (fun x hx => hsound.rooted x (List.mem_filter.mp hx).1) hsound.rooted
      fun q => ?_
    rw [hsound.get?_eraseWithin hleaf]
    split
    · next heq => rw [heq, hloc]
    · rfl
  have hlog : (disk.log.filter fun p => !decide (loc <+: p)) = disk.log := by
    cases hopen : disk.log with
    | none => rfl
    | some p =>
        obtain ⟨bytes, access, hfile⟩ := hsound.logging hopen
        have hnot : ¬loc <+: p := fun hpre => by
          by_cases heq : loc = p
          · simp [heq, hfile] at hloc
          · simp [hsound.missing_below hleaf hpre heq] at hfile
        simp [Option.filter, hnot]
  rw [Disk.eraseWithin, htree, hsound.cwd_within hleaf, hsound.waiting_within hleaf, hlog]

theorem Sound.withLog (hsound : disk.Sound) {log : Option Loc}
    (hlog : ∀ loc, log = some loc → ∃ bytes access,
      disk.tree.get? loc = some (.file bytes access)) : ({ disk with log } : Disk).Sound where
  rooted := hsound.rooted
  closed := hsound.closed
  named := hsound.named
  working := hsound.working
  waiting := hsound.waiting
  logging := hlog _

section Move

variable {a b : Loc} {entry : Entry}

/-- Moving an entry that holds nothing moves that entry only. -/
theorem Sound.move_eq (hsound : disk.Sound) (ha : disk.tree.get? a = some entry)
    (hentry : entry ≠ .directory) (hb : disk.tree.get? b ≠ some .directory) :
    disk.move a b entry =
      { disk with
        tree := ((disk.tree.eraseWithin b).eraseWithin a).insert b entry
        log := (disk.log.filter fun p => !decide (b <+: p)).map fun p =>
          if a = p then b else p } := by
  have hleaf : disk.tree.get? a ≠ some .directory := by
    rw [ha]
    exact fun h => hentry (Option.some.inj h)
  have hbelow : (disk.tree.eraseWithin b).below a = [] := by
    rw [Tree.below, List.filterMap_eq_nil_iff]
    rintro ⟨q, held⟩ hmem
    refine if_neg fun ⟨hpre, hne⟩ => ?_
    have hq := (Tree.mem_entries_iff hsound.rooted).mp (List.mem_filter.mp hmem).1
    rw [hsound.missing_below hleaf hpre hne] at hq
    cases hq.2
  have hcwd : ¬a <+: disk.cwd.above := hsound.not_prefix_above hleaf hsound.working
  have hwaiting : disk.waiting.map (fun place : Standpoint =>
      { place with above := if a <+: place.above then b ++ place.above.drop a.length
                            else place.above }) = disk.waiting := by
    conv_rhs => rw [← List.map_id disk.waiting]
    refine List.map_congr_left fun place hplace => ?_
    simp [hsound.not_prefix_above hleaf (hsound.waiting place hplace)]
  have hlog : ∀ p, (disk.log.filter fun p => !decide (b <+: p)) = some p →
      (if a <+: p then b ++ p.drop a.length else p) = if a = p then b else p := by
    intro p hp
    obtain ⟨bytes, access, hfile⟩ := hsound.logging (Option.filter_eq_some_iff.mp hp).1
    by_cases heq : a = p
    · simp [heq]
    · have hnot : ¬a <+: p := fun hpre => by
        rw [hsound.missing_below hleaf hpre heq] at hfile
        cases hfile
      simp [heq, hnot]
  have hfollow : (disk.log.filter fun p => !decide (b <+: p)).map
        (fun p => if a <+: p then b ++ p.drop a.length else p) =
      (disk.log.filter fun p => !decide (b <+: p)).map fun p => if a = p then b else p :=
    Option.map_congr hlog
  simp only [Disk.move, Disk.eraseWithin, hbelow, List.foldl_nil, hsound.cwd_within hb,
    hsound.waiting_within hb, if_neg hcwd, hwaiting, hfollow]

theorem Sound.get?_move (hsound : disk.Sound) (ha : disk.tree.get? a = some entry)
    (hentry : entry ≠ .directory) (hb : disk.tree.get? b ≠ some .directory) (q : Loc) :
    (disk.move a b entry).tree.get? q =
      if q = b then some entry else if q = a then none else disk.tree.get? q := by
  have hleaf : disk.tree.get? a ≠ some .directory := by
    rw [ha]
    exact fun h => hentry (Option.some.inj h)
  have hbnil : b ≠ [] := by
    rintro rfl
    exact hb disk.tree.get?_nil
  rw [hsound.move_eq ha hentry hb, Tree.get?_insert _ _ _ hbnil,
    Tree.get?_eraseWithin _ _ (Tree.ne_nil_of_get? ha hentry), hsound.get?_eraseWithin hb]
  by_cases hqb : q = b
  · simp [hqb]
  · by_cases hqa : q = a
    · simp [hqa]
    · by_cases hpre : a <+: q
      · simp [hqb, hqa, hpre, hsound.missing_below hleaf hpre (Ne.symm hqa)]
      · simp [hqb, hqa, hpre]

theorem Sound.move (hsound : disk.Sound) {dir : Loc} {name : String}
    (ha : disk.tree.get? a = some entry) (hentry : entry ≠ .directory)
    (hdir : disk.tree.get? dir = some .directory) (hname : Path.Ordinary name)
    (hb : disk.tree.get? (dir ++ [name]) ≠ some .directory) :
    (disk.move a (dir ++ [name]) entry).Sound := by
  have hget := hsound.get?_move ha hentry hb
  have hkeep {q : Loc} (hq : disk.tree.get? q = some .directory) :
      (disk.move a (dir ++ [name]) entry).tree.get? q = some .directory := by
    rw [hget, if_neg, if_neg, hq]
    · rintro rfl
      exact hentry (Option.some.inj (ha.symm.trans hq))
    · rintro rfl
      exact hb hq
  have hheld {q : Loc} {held : Entry}
      (hq : (disk.move a (dir ++ [name]) entry).tree.get? q = some held)
      (hne : q ≠ dir ++ [name]) : disk.tree.get? q = some held := by
    rw [hget, if_neg hne] at hq
    split at hq
    · cases hq
    · exact hq
  constructor
  case rooted =>
    rw [hsound.move_eq ha hentry hb]
    intro x hx
    rcases Tree.mem_place hx with rfl | hx
    · simp
    · exact hsound.rooted x (List.mem_filter.mp (List.mem_filter.mp hx).1).1
  case closed =>
    intro p n held hq
    by_cases heq : p ++ [n] = dir ++ [name]
    · rw [(List.append_inj' heq rfl).1]
      exact hkeep hdir
    · exact hkeep (hsound.closed (hheld hq heq))
  case named =>
    intro p n held hq
    by_cases heq : p ++ [n] = dir ++ [name]
    · have hn : n = name := List.singleton_injective (List.append_inj' heq rfl).2
      rwa [hn]
    · exact hsound.named (hheld hq heq)
  case working =>
    rw [hsound.move_eq ha hentry hb] at hkeep ⊢
    exact hkeep hsound.working
  case waiting =>
    rw [hsound.move_eq ha hentry hb] at hkeep ⊢
    exact fun place hplace => hkeep (hsound.waiting place hplace)
  case logging =>
    intro q hq
    rw [hsound.move_eq ha hentry hb] at hq
    obtain ⟨old, hold, rfl⟩ := Option.map_eq_some_iff.mp hq
    obtain ⟨hlog, hnot⟩ := Option.filter_eq_some_iff.mp hold
    obtain ⟨bytes, access, hfile⟩ := hsound.logging hlog
    rw [hget]
    by_cases hmoved : a = old
    · refine ⟨bytes, access, ?_⟩
      rw [if_pos hmoved, if_pos rfl, ← ha, hmoved, hfile]
    · refine ⟨bytes, access, ?_⟩
      have hne : old ≠ dir ++ [name] := by
        rintro rfl
        simp at hnot
      rw [if_neg hmoved, if_neg hne, if_neg (Ne.symm hmoved), hfile]

end Move

end Disk

end Unscramble
