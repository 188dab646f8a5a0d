import Unscramble.Proofs.Disk.Track
import Unscramble.Proofs.FileByFile
import Unscramble.Proofs.WellFormed

/-!
# What a scan finds

A scan finds the scripts below its root by way of real directories that are not to be skipped:
all of them, each of them once, and in the order of their names.  It ends early only where one
of its questions is refused.  A directory and the files next to it stand in one listing, so the
scripts below the directory come where its name stands.
-/

namespace Unscramble

open Disk

namespace Scan

/-- A scan goes down from a directory by these names: each is that of a real directory that is
not to be skipped. -/
inductive Enters (rules : Rules) (tree : Tree) : Loc → List String → Prop
  | stay (loc : Loc) : Enters rules tree loc []
  | down {loc : Loc} {name : String} {way : List String}
      (hheld : tree.get? (loc ++ [name]) = some .directory) (hentered : name ∉ rules.skipped)
      (hway : Enters rules tree (loc ++ [name]) way) : Enters rules tree loc (name :: way)

/-- A scan of `root` comes to an entry by this path. -/
def Meets (rules : Rules) (disk : Disk) (root path : Path) (held : Entry) : Prop :=
  ∃ base way name, disk.find .followed root = .ok (.present base .directory) ∧
    Enters rules disk.tree base way ∧ disk.tree.get? (base ++ way ++ [name]) = some held ∧
      path = (root.below way).child name

/-- An entry that a scan asks the disk about: a directory that is not to be skipped, or anything
else with the suffix of a script. -/
def Rules.Regards (rules : Rules) (path : Path) : Entry → Prop
  | .directory => path.name ∉ rules.skipped
  | _ => Text.lowerString path.suffix ∈ rules.extensions

variable {rules : Rules} {disk : Disk} {root dir path : Path} {loc base : Loc} {depth : Nat}
  {acc found : List Path} {name : String} {way names rest : List String} {held : Entry}

/-! ## The question about one path -/

theorem isScript_of_not_mem (hsuffix : Text.lowerString path.suffix ∉ rules.extensions) :
    isScript rules path disk = .ok false := by
  rw [isScript, if_pos hsuffix]
  rfl

theorem isScript_of_isFile_eq_false (hfile : disk.isFile path = .ok false) :
    isScript rules path disk = .ok false := by
  by_cases hsuffix : Text.lowerString path.suffix ∈ rules.extensions
  · simp [isScript, hsuffix, query, hfile, pure, Except.pure, bind, Except.bind]
  · exact isScript_of_not_mem hsuffix

theorem isScript_of_isFile (hsuffix : Text.lowerString path.suffix ∈ rules.extensions)
    (hfile : disk.isFile path = .ok true) : isScript rules path disk =
      (disk.canonicalPath path).map fun place => decide (place ∉ rules.own) := by
  cases hplace : disk.canonicalPath path <;>
    simp [isScript, hsuffix, query, hfile, hplace, pure, Except.pure, bind, Except.bind, Except.map]

theorem isScript_eq_true_iff : isScript rules path disk = .ok true ↔
    Text.lowerString path.suffix ∈ rules.extensions ∧ disk.isFile path = .ok true ∧
      ∃ place, disk.canonicalPath path = .ok place ∧ place ∉ rules.own := by
  constructor
  · intro hscript
    have hsuffix : Text.lowerString path.suffix ∈ rules.extensions := by
      by_contra hother
      rw [isScript_of_not_mem hother] at hscript
      cases hscript
    have hfile : disk.isFile path = .ok true := by
      rcases hasked : disk.isFile path with why | _ | _
      · simp [isScript, hsuffix, query, hasked, bind, Except.bind] at hscript
      · rw [isScript_of_isFile_eq_false hasked] at hscript
        cases hscript
      · rfl
    rw [isScript_of_isFile hsuffix hfile] at hscript
    cases hplace : disk.canonicalPath path with
    | error fault =>
      rw [hplace] at hscript
      cases hscript
    | ok place =>
      rw [hplace] at hscript
      exact ⟨hsuffix, hfile, place, rfl, of_decide_eq_true (Except.ok.inj hscript)⟩
  · rintro ⟨hsuffix, hfile, place, hplace, hother⟩
    rw [isScript_of_isFile hsuffix hfile, hplace]
    exact congrArg Except.ok (decide_eq_true hother)

/-- Where it can be told whether the path leads to a file, the question has an answer unless the
path of that file has no canonical form. -/
theorem isScript_answered (hpath : Text.lowerString path.suffix ∈ rules.extensions →
      disk.Resolvable path)
    (hcanonical : Text.lowerString path.suffix ∈ rules.extensions → disk.isFile path = .ok true →
      ∃ place, disk.canonicalPath path = .ok place) :
    ∃ script, isScript rules path disk = .ok script := by
  by_cases hsuffix : Text.lowerString path.suffix ∈ rules.extensions
  · obtain ⟨_ | _, hfile⟩ := (hpath hsuffix).ask (·.kind = .file)
    · exact ⟨false, isScript_of_isFile_eq_false hfile⟩
    · obtain ⟨place, hplace⟩ := hcanonical hsuffix hfile
      rw [isScript_of_isFile hsuffix hfile, hplace]
      exact ⟨_, rfl⟩
  · exact ⟨false, isScript_of_not_mem hsuffix⟩

/-! ## The ways of a scan -/

theorem Enters.directory (hway : Enters rules disk.tree loc way)
    (hloc : disk.tree.get? loc = some .directory) :
    disk.tree.get? (loc ++ way) = some .directory := by
  induction hway with
  | stay loc => rwa [List.append_nil]
  | down hheld hentered hway ih =>
    rw [List.append_cons]
    exact ih hheld

theorem Enters.concat (hway : Enters rules disk.tree loc (way ++ [name])) :
    Enters rules disk.tree loc way ∧ disk.tree.get? (loc ++ way ++ [name]) = some .directory ∧
      name ∉ rules.skipped := by
  induction way generalizing loc with
  | nil =>
    cases hway with
    | down hheld hentered hrest => exact ⟨.stay loc, by simpa using hheld, hentered⟩
  | cons first rest ih =>
    cases hway with
    | down hheld hentered hrest =>
      obtain ⟨hinit, hlast, hname⟩ := ih hrest
      exact ⟨.down hheld hentered hinit, by simpa using hlast, hname⟩

/-- By these names a scan comes to an entry that is no directory. -/
def Comes (rules : Rules) (tree : Tree) (loc : Loc) (names : List String) : Prop :=
  ∃ way name held, names = way ++ [name] ∧ Enters rules tree loc way ∧
    tree.get? (loc ++ way ++ [name]) = some held ∧ held ≠ .directory

theorem not_comes_nil (rules : Rules) (tree : Tree) (loc : Loc) : ¬Comes rules tree loc [] := by
  rintro ⟨way, name, held, hnames, -⟩
  simp at hnames

/-- A scan comes to what lies in a directory, and to what it comes to from a directory in it. -/
theorem comes_cons_iff {tree : Tree} : Comes rules tree loc (name :: rest) ↔
    (rest = [] ∧ ∃ held, tree.get? (loc ++ [name]) = some held ∧ held ≠ .directory) ∨
      tree.get? (loc ++ [name]) = some .directory ∧ name ∉ rules.skipped ∧
        Comes rules tree (loc ++ [name]) rest := by
  constructor
  · rintro ⟨way, last, held, hnames, hway, hheld, hother⟩
    cases hway with
    | stay =>
      cases hnames
      exact .inl ⟨rfl, held, by simpa using hheld, hother⟩
    | down hdirectory hentered hbelow =>
      cases hnames
      exact .inr ⟨hdirectory, hentered, _, last, held, rfl, hbelow, by simpa using hheld, hother⟩
  · rintro (⟨rfl, held, hheld, hother⟩ | ⟨hdirectory, hentered, hcomes⟩)
    · exact ⟨[], name, held, rfl, .stay loc, by simpa using hheld, hother⟩
    · obtain ⟨way, last, held, rfl, hway, hheld, hother⟩ := hcomes
      have hdown : Enters rules tree loc (name :: way) := .down hdirectory hentered hway
      exact ⟨name :: way, last, held, rfl, hdown, by simpa using hheld, hother⟩

/-! ## Inventories -/

/-- The scripts among the items below a directory, in their order; of each item it could be told
whether it is one. -/
structure Inventory (rules : Rules) (disk : Disk) (dir : Path) (items : List String → Prop)
    (found : List Path) : Prop where
  told : ∀ names, items names → ∃ script, isScript rules (dir.below names) disk = .ok script
  mem_iff : ∀ path, path ∈ found ↔
    ∃ names, items names ∧ path = dir.below names ∧ isScript rules path disk = .ok true
  sorted : found.Pairwise fun left right => left.parts < right.parts

namespace Inventory

variable {items items' : List String → Prop} {found' : List Path}

theorem nothing (hitems : ∀ names, ¬items names) : Inventory rules disk dir items [] where
  told names hnames := absurd hnames (hitems names)
  mem_iff path := by
    constructor
    · intro hpath
      cases hpath
    · rintro ⟨names, hnames, -⟩
      exact absurd hnames (hitems names)
  sorted := .nil

theorem single {script : Bool} (hitems : ∀ other, items other ↔ other = names)
    (hscript : isScript rules (dir.below names) disk = .ok script) :
    Inventory rules disk dir items (if script then [dir.below names] else []) where
  told other hother := by
    obtain rfl := (hitems other).mp hother
    exact ⟨script, hscript⟩
  mem_iff path := by
    constructor
    · intro hpath
      cases script with
      | false => cases hpath
      | true =>
        obtain rfl := List.mem_singleton.mp hpath
        exact ⟨names, (hitems names).mpr rfl, rfl, hscript⟩
    · rintro ⟨other, hother, rfl, hyes⟩
      obtain rfl := (hitems other).mp hother
      cases hscript.symm.trans hyes
      exact List.mem_cons_self
  sorted := by cases script <;> simp

theorem child (hinventory : Inventory rules disk (dir.child name) items found)
    (hitems : ∀ names, items' names ↔ ∃ rest, names = name :: rest ∧ items rest) :
    Inventory rules disk dir items' found where
  told names hnames := by
    obtain ⟨rest, rfl, hrest⟩ := (hitems names).mp hnames
    rw [Path.below_cons]
    exact hinventory.told rest hrest
  mem_iff path := by
    rw [hinventory.mem_iff]
    constructor
    · rintro ⟨rest, hrest, rfl, hscript⟩
      exact ⟨name :: rest, (hitems _).mpr ⟨rest, rfl, hrest⟩,
        (Path.below_cons dir name rest).symm, hscript⟩
    · rintro ⟨names, hnames, rfl, hscript⟩
      obtain ⟨rest, rfl, hrest⟩ := (hitems names).mp hnames
      exact ⟨rest, hrest, Path.below_cons dir name rest, hscript⟩
  sorted := hinventory.sorted

theorem append (hfirst : Inventory rules disk dir items found)
    (hsecond : Inventory rules disk dir items' found')
    (hlt : ∀ names names', items names → items' names' → names < names') :
    Inventory rules disk dir (fun names => items names ∨ items' names) (found ++ found') where
  told names hnames := hnames.elim (hfirst.told names) (hsecond.told names)
  mem_iff path := by
    rw [List.mem_append, hfirst.mem_iff, hsecond.mem_iff, ← exists_or]
    exact exists_congr fun names => by tauto
  sorted := by
    refine List.pairwise_append.mpr ⟨hfirst.sorted, hsecond.sorted, ?_⟩
    intro left hleft right hright
    obtain ⟨names, hnames, rfl, -⟩ := (hfirst.mem_iff left).mp hleft
    obtain ⟨names', hnames', rfl, -⟩ := (hsecond.mem_iff right).mp hright
    exact List.append_left_lt (hlt names names' hnames hnames')

end Inventory

/-! ## What is gathered -/

theorem kind_eq_directory_iff {entry : Entry} : entry.kind = .directory ↔ entry = .directory := by
  cases entry <;> simp [Entry.kind]

theorem find_of_list {entries : List (String × Kind)} (hname : Path.Ordinary name)
    (hleads : disk.Leads (dir.child name) loc) (hlist : disk.list (dir.child name) = .ok entries) :
    disk.find .followed (dir.child name) = .ok (.present loc .directory) := by
  rcases hfind : disk.find .followed (dir.child name) with why | ⟨place, held⟩ | place | _
  · rw [list, hfind] at hlist
    cases hlist
  · cases held with
    | directory => rw [hleads place hfind]
    | file bytes access =>
      rw [list, hfind] at hlist
      cases hlist
    | link target =>
      rw [list, hfind] at hlist
      cases hlist
  · rw [list, hfind] at hlist
    cases hlist
  · exact absurd hfind (find_child_ne_removed hname)

/-- What a scan has found below a directory once it has been through it. -/
def Gathers (rules : Rules) (disk : Disk) (depth : Nat) : Prop :=
  ∀ dir loc acc found, disk.find .followed dir = .ok (.present loc .directory) →
    gather rules disk depth dir acc = .ok found →
      ∃ more, found = acc ++ more ∧ Inventory rules disk dir (Comes rules disk.tree loc) more

variable {entry : String × Kind} {entries : List (String × Kind)}

/-- The items that one entry of a directory stands for. -/
def ComesBy (rules : Rules) (tree : Tree) (loc : Loc) (entries : List (String × Kind))
    (names : List String) : Prop :=
  Comes rules tree loc names ∧ ∃ entry ∈ entries, names.head? = some entry.1

theorem comesBy_singleton_iff {tree : Tree} : ComesBy rules tree loc [entry] names ↔
    ∃ rest, names = entry.1 :: rest ∧ Comes rules tree loc (entry.1 :: rest) := by
  cases names with
  | nil => simp [ComesBy]
  | cons first rest =>
    simp only [ComesBy, List.mem_singleton, exists_eq_left, List.head?_cons, Option.some.injEq,
      List.cons.injEq]
    constructor
    · rintro ⟨hcomes, rfl⟩
      exact ⟨rest, ⟨rfl, rfl⟩, hcomes⟩
    · rintro ⟨_, ⟨rfl, rfl⟩, hcomes⟩
      exact ⟨hcomes, rfl⟩

theorem comesBy_directory_iff {tree : Tree}
    (hheld : tree.get? (loc ++ [entry.1]) = some .directory) :
    ComesBy rules tree loc [entry] names ↔
      ∃ rest, names = entry.1 :: rest ∧ entry.1 ∉ rules.skipped ∧
        Comes rules tree (loc ++ [entry.1]) rest := by
  rw [comesBy_singleton_iff]
  refine exists_congr fun rest => and_congr_right fun _ => ?_
  simp [comes_cons_iff, hheld]

theorem comesBy_other_iff {tree : Tree} (hheld : tree.get? (loc ++ [entry.1]) = some held)
    (hother : held ≠ .directory) :
    ComesBy rules tree loc [entry] names ↔ names = [entry.1] := by
  rw [comesBy_singleton_iff]
  simp [comes_cons_iff, hheld, hother]

theorem inventory_of_entry (hsound : disk.Sound) (hgathers : Gathers rules disk depth)
    (hdir : disk.find .followed dir = .ok (.present loc .directory))
    (hheld : disk.tree.get? (loc ++ [entry.1]) = some held) (hkind : entry.2 = held.kind)
    (hentry : gatherEntry rules disk depth dir acc entry = .ok found) :
    ∃ more, found = acc ++ more ∧
      Inventory rules disk dir (ComesBy rules disk.tree loc [entry]) more := by
  have hdirectory : entry.2 = .directory ↔ held = .directory := by
    rw [hkind, kind_eq_directory_iff]
  rcases gatherEntry_cases hentry with ⟨hdown, hskipped, rfl⟩ | ⟨hdown, hentered, hgather⟩ |
    ⟨hother, hscript, rfl⟩ | ⟨hother, hscript, rfl⟩
  · rw [hdirectory.mp hdown] at hheld
    refine ⟨[], (List.append_nil _).symm, .nothing fun names hnames => ?_⟩
    obtain ⟨rest, -, hentered, -⟩ := (comesBy_directory_iff hheld).mp hnames
    exact hentered hskipped
  · rw [hdirectory.mp hdown] at hheld
    obtain ⟨less, listed, -, hlist, -⟩ := list_of_gather hgather
    have hbelow := find_of_list (hsound.named hheld) (leads_child hsound hdir hheld) hlist
    obtain ⟨more, hmore, hinventory⟩ := hgathers _ _ acc found hbelow hgather
    refine ⟨more, hmore, hinventory.child fun names => ?_⟩
    rw [comesBy_directory_iff hheld]
    exact exists_congr fun rest => and_congr_right fun _ => and_iff_right hentered
  · have hne : held ≠ .directory := mt hdirectory.mpr hother
    exact ⟨_, rfl, .single (fun names => comesBy_other_iff hheld hne) hscript⟩
  · have hne : held ≠ .directory := mt hdirectory.mpr hother
    exact ⟨_, (List.append_nil _).symm, .single (fun names => comesBy_other_iff hheld hne) hscript⟩

theorem inventory_of_entries (hsound : disk.Sound) (hgathers : Gathers rules disk depth)
    (hdir : disk.find .followed dir = .ok (.present loc .directory))
    (hheld : ∀ entry ∈ entries, ∃ held, disk.tree.get? (loc ++ [entry.1]) = some held ∧
      entry.2 = held.kind)
    (hsorted : entries.Pairwise fun left right => left.1 < right.1)
    (hfold : entries.foldlM (gatherEntry rules disk depth dir) acc = .ok found) :
    ∃ more, found = acc ++ more ∧
      Inventory rules disk dir (ComesBy rules disk.tree loc entries) more := by
  induction entries generalizing acc with
  | nil =>
    cases hfold
    exact ⟨[], (List.append_nil _).symm, .nothing fun names hnames => by simpa using hnames.2⟩
  | cons entry rest ih =>
    obtain ⟨hlt, hrest⟩ := List.pairwise_cons.mp hsorted
    obtain ⟨⟨held, hhere, hkind⟩, hothers⟩ := List.forall_mem_cons.mp hheld
    rw [List.foldlM_cons] at hfold
    obtain ⟨next, hentry, hfold⟩ := Except.ok_of_bind hfold
    obtain ⟨more, rfl, hfirst⟩ := inventory_of_entry hsound hgathers hdir hhere hkind hentry
    obtain ⟨more', rfl, hsecond⟩ := ih hothers hrest hfold
    refine ⟨more ++ more', List.append_assoc _ _ _, ?_⟩
    have hboth := hfirst.append hsecond ?before
    case before =>
      rintro names names' ⟨-, first, hfirst, hname⟩ ⟨-, other, hother, hname'⟩
      rw [List.mem_singleton.mp hfirst] at hname
      obtain ⟨tail, rfl⟩ := List.head?_eq_some_iff.mp hname
      obtain ⟨tail', rfl⟩ := List.head?_eq_some_iff.mp hname'
      exact List.cons_lt_cons_iff.mpr (.inl (hlt other hother))
    have hitems : ComesBy rules disk.tree loc (entry :: rest) = fun names =>
        ComesBy rules disk.tree loc [entry] names ∨ ComesBy rules disk.tree loc rest names := by
      funext names
      simp [ComesBy, ← and_or_left]
    rwa [hitems]

theorem gathers (hsound : disk.Sound) (depth : Nat) : Gathers rules disk depth := by
  induction depth with
  | zero =>
    intro dir loc acc found hdir hgather
    obtain ⟨less, -, heq, -⟩ := list_of_gather hgather
    cases heq
  | succ depth ih =>
    intro dir loc acc found hdir hgather
    obtain ⟨less, entries, heq, hlist, hfold⟩ := list_of_gather hgather
    cases heq
    obtain rfl : disk.tree.listing loc = entries := by
      rw [list, hdir] at hlist
      exact Except.ok.inj hlist
    obtain ⟨more, hmore, hinventory⟩ := inventory_of_entries hsound ih hdir
      (fun entry => hsound.mem_listing_iff.mp) (disk.tree.listing_pairwise loc) hfold
    refine ⟨more, hmore, ?_⟩
    -- the listing has an entry for the first name of every item
    have hitems : ComesBy rules disk.tree loc (disk.tree.listing loc) =
        Comes rules disk.tree loc := by
      funext names
      refine propext ⟨And.left, fun hcomes => ⟨hcomes, ?_⟩⟩
      cases names with
      | nil => exact absurd hcomes (not_comes_nil rules disk.tree loc)
      | cons name rest =>
        obtain ⟨held, hheld⟩ : ∃ held, disk.tree.get? (loc ++ [name]) = some held := by
          rcases comes_cons_iff.mp hcomes with ⟨-, held, hheld, -⟩ | ⟨hheld, -⟩
          · exact ⟨held, hheld⟩
          · exact ⟨.directory, hheld⟩
        exact ⟨(name, held.kind), hsound.mem_listing_iff.mpr ⟨held, hheld, rfl⟩, rfl⟩
    rwa [← hitems]

/-! ## When a scan comes to its end -/

theorem ok_of_foldlM {β ε ι : Type} {step : β → ι → Except ε β} {items : List ι}
    (hstep : ∀ item ∈ items, ∀ acc, ∃ next, step acc item = .ok next) (acc : β) :
    ∃ found, items.foldlM step acc = .ok found := by
  induction items generalizing acc with
  | nil => exact ⟨acc, rfl⟩
  | cons item rest ih =>
    obtain ⟨hhere, hrest⟩ := List.forall_mem_cons.mp hstep
    obtain ⟨next, hnext⟩ := hhere acc
    rw [List.foldlM_cons, hnext]
    exact ih hrest next

/-- Where all directories can be listed and all other entries can be told, nothing ends a scan
early. -/
theorem ok_of_gather (hsound : disk.Sound)
    (hways : ∀ way, Enters rules disk.tree loc way → way.length < depth ∧
      disk.find .followed (dir.below way) = .ok (.present (loc ++ way) .directory))
    (htold : ∀ names, Comes rules disk.tree loc names →
      ∃ script, isScript rules (dir.below names) disk = .ok script) (acc : List Path) :
    ∃ found, gather rules disk depth dir acc = .ok found := by
  induction depth generalizing dir loc acc with
  | zero => exact absurd (hways [] (.stay loc)).1 (Nat.not_lt_zero _)
  | succ depth ih =>
    have hlist : disk.query Disk.list dir = .ok (disk.tree.listing loc) := by
      have hfind := (hways [] (.stay loc)).2
      rw [Path.below_nil, List.append_nil] at hfind
      simp [query, list, hfind, bind, Except.bind]
    rw [gather, foldM_succ]
    beta_reduce
    rw [hlist]
    refine ok_of_foldlM (fun entry hentry acc => ?_) acc
    obtain ⟨held, hheld, hkind⟩ := hsound.mem_listing_iff.mp hentry
    rw [entryM]
    split
    · next hdirectory =>
      rw [kind_eq_directory_iff.mp (hkind.symm.trans hdirectory)] at hheld
      by_cases hskipped : entry.1 ∈ rules.skipped
      · exact ⟨acc, if_pos hskipped⟩
      rw [if_neg hskipped]
      apply ih
      case hways =>
        intro way hway
        obtain ⟨hdeep, hfind⟩ := hways _ (.down hheld hskipped hway)
        rw [← Path.below_cons, List.append_assoc]
        exact ⟨Nat.lt_of_succ_lt_succ hdeep, hfind⟩
      case htold =>
        intro names hnames
        rw [← Path.below_cons]
        exact htold _ (comes_cons_iff.mpr (.inr ⟨hheld, hskipped, hnames⟩))
    · next hother =>
      have hne : held ≠ .directory := fun hdown =>
        hother (hkind.trans (kind_eq_directory_iff.mpr hdown))
      obtain ⟨script, hscript⟩ := htold [entry.1] (comes_cons_iff.mpr (.inl ⟨rfl, held, hheld, hne⟩))
      rw [Path.below_cons, Path.below_nil] at hscript
      rw [hscript]
      cases script with
      | true => exact ⟨acc ++ [dir.child entry.1], rfl⟩
      | false => exact ⟨acc, rfl⟩

theorem hasNul_below (hformed : disk.WellFormed) (hroot : root.hasNul = false)
    (hheld : disk.tree.get? (base ++ names) = some held) : (root.below names).hasNul = false := by
  induction names using List.reverseRecOn generalizing held with
  | nil => rwa [Path.below_nil]
  | append_singleton init last ih =>
    rw [← List.append_assoc] at hheld
    rw [← Path.child_below, Path.hasNul_child, ih (hformed.sound.closed hheld), Bool.false_or]
    simpa using hformed.nulFree _ _ _ hheld

/-- The directories that a scan enters can be listed if their paths can be resolved. -/
theorem find_of_enters (hformed : disk.WellFormed)
    (hroot : disk.find .followed root = .ok (.present base .directory))
    (hresolvable : ∀ path held, Meets rules disk root path held → rules.Regards path held →
      disk.Resolvable path)
    (hway : Enters rules disk.tree base way) : way.length < pathMax ∧
      disk.find .followed (root.below way) = .ok (.present (base ++ way) .directory) := by
  have hdirectory := hway.directory (find_fits hroot)
  have hnames : ∀ name ∈ way, name ≠ "" := fun name hname =>
    Path.ordinary_ne_empty
      (hformed.sound.ordinary_of_mem hdirectory name (List.mem_append_right _ hname))
  have hpath : disk.Resolvable (root.below way) := by
    rcases List.eq_nil_or_concat' way with rfl | ⟨init, last, rfl⟩
    · rw [Path.below_nil]
      exact resolvable_of_found hroot
    · obtain ⟨hinit, hheld, hentered⟩ := hway.concat
      rw [← Path.child_below]
      refine hresolvable _ .directory ⟨base, init, last, hroot, hinit, hheld, rfl⟩ ?_
      rw [Rules.Regards, Path.name_child]
      exact hentered
  have hnul := hasNul_below hformed (nameable_of_find hroot).1 hdirectory
  have hnameable : (root.below way).Nameable := by
    by_contra hlong
    have hwhy := hpath _ (find_of_not_nameable hlong .followed)
    rw [hnul] at hwhy
    cases hwhy
  have hfind : disk.find .followed (root.below way) = .ok (.present (base ++ way) .directory) := by
    have hbelow := hformed.sound.find_below hroot hdirectory hnameable
    split at hbelow
    · exact hbelow
    · cases hpath _ hbelow
  exact ⟨(root.length_le_byteLength_below hnames).trans_lt hnameable.2, hfind⟩

/-! ## The whole scan -/

/-- A regular file that a scan comes to by this path and that has the suffix of a script. -/
def Candidate (rules : Rules) (disk : Disk) (root path : Path) : Prop :=
  (∃ held, Meets rules disk root path held ∧ held ≠ .directory) ∧
    Text.lowerString path.suffix ∈ rules.extensions ∧ disk.isFile path = .ok true

theorem meets_iff_of_root (hroot : disk.find .followed root = .ok (.present base .directory)) :
    (∃ held, Meets rules disk root path held ∧ held ≠ .directory) ↔
      ∃ names, Comes rules disk.tree base names ∧ path = root.below names := by
  constructor
  · rintro ⟨held, ⟨place, way, name, hplace, hway, hheld, rfl⟩, hother⟩
    rw [hroot] at hplace
    cases hplace
    exact ⟨way ++ [name], ⟨way, name, held, rfl, hway, hheld, hother⟩, Path.child_below _ _ _⟩
  · rintro ⟨_, ⟨way, name, held, rfl, hway, hheld, hother⟩, rfl⟩
    exact ⟨held, ⟨base, way, name, hroot, hway, hheld, (Path.child_below _ _ _).symm⟩, hother⟩

theorem Inventory.of_scripts (hsound : disk.Sound)
    (hroot : disk.find .followed root = .ok (.present base .directory))
    (hscripts : scripts rules disk root = .ok found) :
    Inventory rules disk root (Comes rules disk.tree base) found := by
  obtain ⟨more, rfl, hinventory⟩ := gathers hsound pathMax root base [] found hroot hscripts
  exact hinventory

/-- Of the scripts that a scan comes to it finds all but the program's own, each of them once and
in the order of their names. -/
theorem Inventory.exact (hroot : disk.find .followed root = .ok (.present base .directory))
    (hinventory : Inventory rules disk root (Comes rules disk.tree base) found) :
    path ∈ found ↔ Candidate rules disk root path ∧
      ∃ place, disk.canonicalPath path = .ok place ∧ place ∉ rules.own := by
  rw [Candidate, meets_iff_of_root hroot, hinventory.mem_iff]
  simp only [isScript_eq_true_iff]
  constructor
  · rintro ⟨names, hcomes, hpath, hsuffix, hfile, hplace⟩
    exact ⟨⟨⟨names, hcomes, hpath⟩, hsuffix, hfile⟩, hplace⟩
  · rintro ⟨⟨⟨names, hcomes, hpath⟩, hsuffix, hfile⟩, hplace⟩
    exact ⟨names, hcomes, hpath, hsuffix, hfile, hplace⟩

/-- A scan that has come to its end has resolved the path of every candidate. -/
theorem Inventory.canonical (hroot : disk.find .followed root = .ok (.present base .directory))
    (hinventory : Inventory rules disk root (Comes rules disk.tree base) found)
    (hpath : Candidate rules disk root path) : ∃ place, disk.canonicalPath path = .ok place := by
  obtain ⟨hmeets, hsuffix, hfile⟩ := hpath
  obtain ⟨names, hcomes, rfl⟩ := (meets_iff_of_root hroot).mp hmeets
  obtain ⟨script, hscript⟩ := hinventory.told names hcomes
  rw [isScript_of_isFile hsuffix hfile] at hscript
  cases hplace : disk.canonicalPath (root.below names) with
  | error fault =>
    rw [hplace] at hscript
    cases hscript
  | ok place => exact ⟨place, rfl⟩

theorem ok_of_scripts (hformed : disk.WellFormed)
    (hroot : disk.find .followed root = .ok (.present base .directory))
    (hresolvable : ∀ path held, Meets rules disk root path held → rules.Regards path held →
      disk.Resolvable path)
    (hcanonical : ∀ path, Candidate rules disk root path →
      ∃ place, disk.canonicalPath path = .ok place) :
    ∃ found, scripts rules disk root = .ok found := by
  refine ok_of_gather hformed.sound (fun way => find_of_enters hformed hroot hresolvable)
    (fun names hcomes => ?_) []
  obtain ⟨held, hmeets, hother⟩ := (meets_iff_of_root hroot).mpr ⟨names, hcomes, rfl⟩
  apply isScript_answered
  case hpath =>
    intro hsuffix
    refine hresolvable _ held hmeets ?_
    cases held with
    | directory => exact absurd rfl hother
    | file bytes access => exact hsuffix
    | link target => exact hsuffix
  case hcanonical =>
    exact fun hsuffix hfile => hcanonical _ ⟨⟨held, hmeets, hother⟩, hsuffix, hfile⟩

/-- Nothing is found in a directory that has been removed. -/
theorem scripts_of_removed (hroot : disk.find .followed root = .ok .removed) :
    scripts rules disk root = .ok [] := by
  rw [scripts, pathMax, foldM_succ]
  simp [query, list, hroot, bind, Except.bind, pure, Except.pure]

end Scan

/-- A scan of a directory comes to its end if, and only if, the path of every script can be
resolved.  Then it has found the scripts below the directory that are not the program's own: by
way of real directories that are neither ignored nor staging directories, each script once, and
in the order of their names. -/
theorem scripts_exact {settings : Settings} {own : List Path} {disk : Disk} {root : Path}
    (hformed : disk.WellFormed) (hroot : disk.isDirectory root = .ok true)
    (hresolvable : ∀ path held, Scan.Meets (.ofSettings settings own) disk root path held →
      (Scan.Rules.ofSettings settings own).Regards path held → disk.Resolvable path) :
    ((∃ found, Scan.scripts (.ofSettings settings own) disk root = .ok found) ↔
      ∀ path, Scan.Candidate (.ofSettings settings own) disk root path →
        ∃ place, disk.canonicalPath path = .ok place) ∧
    ∀ found, Scan.scripts (.ofSettings settings own) disk root = .ok found →
      (found.Pairwise fun left right => left.parts < right.parts) ∧ found.Nodup ∧
        ∀ path, path ∈ found ↔ Scan.Candidate (.ofSettings settings own) disk root path ∧
          ∃ place, disk.canonicalPath path = .ok place ∧ place ∉ own := by
  rcases ask_eq_true_iff.mp hroot with ⟨base, held, hfind, hkind⟩ | ⟨hfind, -⟩
  · cases held with
    | file bytes access => cases hkind
    | link target => cases hkind
    | directory =>
      refine ⟨⟨?_, Scan.ok_of_scripts hformed hfind hresolvable⟩, fun found hscripts => ?_⟩
      · rintro ⟨found, hscripts⟩ path
        exact (Scan.Inventory.of_scripts hformed.sound hfind hscripts).canonical hfind
      · have hinventory := Scan.Inventory.of_scripts hformed.sound hfind hscripts
        refine ⟨hinventory.sorted, hinventory.sorted.imp ?_, fun path => hinventory.exact hfind⟩
        rintro left _ hlt rfl
        exact lt_irrefl _ hlt
  · have hnone (path : Path) : ¬Scan.Candidate (.ofSettings settings own) disk root path := by
      rintro ⟨⟨held, ⟨base, way, name, hbase, -⟩, -⟩, -⟩
      rw [hfind] at hbase
      cases hbase
    rw [Scan.scripts_of_removed hfind]
    constructor
    · exact ⟨fun _ path hpath => absurd hpath (hnone path), fun _ => ⟨[], rfl⟩⟩
    · intro found hfound
      cases hfound
      exact ⟨.nil, .nil, fun path => iff_of_false List.not_mem_nil fun hpath => hnone path hpath.1⟩

section Samples

/-- From the path of a location a scan comes to entries by the paths of their locations. -/
theorem Scan.Meets.location {rules : Rules} {disk : Disk} {base : Loc} {path : Path} {held : Entry}
    (hsound : disk.Sound) (hbase : disk.tree.get? base = some .directory)
    (hmeets : Meets rules disk (locPath base) path held) :
    ∃ loc, path = locPath loc ∧ (loc, held) ∈ disk.tree.entries := by
  obtain ⟨place, way, name, hplace, -, hheld, rfl⟩ := hmeets
  cases hsound.loc_of_find_locPath hbase nofun hplace
  exact ⟨base ++ way ++ [name], rfl, (Tree.mem_entries_iff hsound.rooted).mpr ⟨by simp, hheld⟩⟩

/-- Scripts and links to them, in a directory and next to it; one of them is reached by way of a
staging directory only, and a link leads round in a circle. -/
def Sample.wooded : Disk := Sample.disk
  [(["d"], .directory), (["d", "a.js"], .file [97] {}), (["d", "output_dir"], .directory),
    (["d", "output_dir", "b.js"], .file [98] {}), (["d", "round.js"], .link "round.js"),
    (["d", "x"], .directory), (["d", "x", "C.JS"], .file [99] {}),
    (["d", "x", "up.js"], .link "../a.js"), (["d", "x.js"], .file [120] {})]

/-- A disk whose working directory has been removed. -/
def Sample.stranded : Disk := { Sample.disk [(["a.js"], .file [120] {})] with cwd := ⟨[], 1⟩ }

/-- A path that leads out of a working directory that has been removed has no canonical form: the
first script below it ends the scan. -/
theorem scan_ended_without_working_directory :
    Sample.stranded.WellFormed ∧ Sample.stranded.tree.Linkless ∧
      Sample.stranded.isDirectory ⟨.here, [".."]⟩ = .ok true ∧
      Scan.Candidate (.ofSettings {} []) Sample.stranded ⟨.here, [".."]⟩ ⟨.here, ["..", "a.js"]⟩ ∧
      Scan.scripts (.ofSettings {} []) Sample.stranded ⟨.here, [".."]⟩ =
        .error (.refused .notFound none none) := by
  have hroot : Sample.stranded.find .followed ⟨.here, [".."]⟩ = .ok (.present [] .directory) := by
    decide +kernel
  have hmeets : Scan.Meets (.ofSettings {} []) Sample.stranded ⟨.here, [".."]⟩
      ⟨.here, ["..", "a.js"]⟩ (.file [120] {}) :=
    ⟨[], [], "a.js", hroot, .stay [], by decide +kernel, rfl⟩
  refine ⟨⟨by decide, by decide⟩, by decide, by decide +kernel,
    ⟨⟨_, hmeets, nofun⟩, by decide +kernel, by decide +kernel⟩, ?_⟩
  decide +kernel

theorem wooded_scripts_exact :
    Sample.wooded.WellFormed ∧ Sample.wooded.isDirectory (locPath ["d"]) = .ok true ∧
      (∀ path held, Scan.Meets (.ofSettings {} []) Sample.wooded (locPath ["d"]) path held →
        Sample.wooded.Resolvable path) ∧
      ∃ found, Scan.scripts (.ofSettings {} []) Sample.wooded (locPath ["d"]) = .ok found ∧
        (found.Pairwise fun left right => left.parts < right.parts) ∧
        ∀ path, path ∈ found ↔
          Scan.Candidate (.ofSettings {} []) Sample.wooded (locPath ["d"]) path ∧
            ∃ place, Sample.wooded.canonicalPath path = .ok place ∧ place ∉ ([] : List Path) := by
  have hformed : Sample.wooded.WellFormed := ⟨by decide, by decide⟩
  have hroot : Sample.wooded.isDirectory (locPath ["d"]) = .ok true := by decide +kernel
  have hfollow : Sample.wooded.tree.Followable := by decide +kernel
  have hentries : ∀ x ∈ Sample.wooded.tree.entries,
      (locPath x.1).Fitting ∧ ∀ name ∈ x.1, '/' ∉ name.toList := by
    decide +kernel
  have hbase : Sample.wooded.tree.get? ["d"] = some .directory := by decide +kernel
  have hresolvable (path held)
      (hmeets : Scan.Meets (.ofSettings {} []) Sample.wooded (locPath ["d"]) path held) :
      Sample.wooded.Resolvable path := by
    obtain ⟨loc, rfl, hmem⟩ := hmeets.location hformed.sound hbase
    exact resolvable_of_followable hfollow (hentries _ hmem).1
  obtain ⟨hends, hexact⟩ := scripts_exact hformed hroot fun path held hmeets _ =>
    hresolvable path held hmeets
  obtain ⟨found, hscripts⟩ := hends.mpr fun path hpath => by
    obtain ⟨⟨held, hmeets, -⟩, -, hfile⟩ := hpath
    obtain ⟨loc, rfl, hmem⟩ := hmeets.location hformed.sound hbase
    obtain ⟨place, hplace⟩ :=
      hformed.sound.canonicalPath_of_isFile hfollow (hentries _ hmem).2 hfile
    exact ⟨locPath place, hplace⟩
  obtain ⟨hsorted, -, hmem⟩ := hexact found hscripts
  exact ⟨hformed, hroot, hresolvable, found, hscripts, hsorted, hmem⟩

example : Scan.scripts (.ofSettings {} []) Sample.wooded (locPath ["d"]) = .ok
    [locPath ["d", "a.js"], locPath ["d", "x", "C.JS"], locPath ["d", "x", "up.js"],
      locPath ["d", "x.js"]] := by
  decide +kernel

end Samples

end Unscramble
