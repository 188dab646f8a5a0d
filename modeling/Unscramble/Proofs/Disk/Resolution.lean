import Unscramble.Proofs.Disk.Passage

/-!
# Where a path leads as entries come and go

A directory is reached, and its path has the same canonical form, as long as the directories
and the links that were there stay and no link is added.  Links are replaced from left to
right, so the path that a search has come to has no link in it that the search could have
replaced; whether the next name stands for a link is then a matter of the tree alone, and two
disks with the same links are searched alike.
-/

namespace Unscramble

namespace Disk

variable {disk disk' : Disk} {path : Path} {loc : Loc} {name target : String}

/-- Every directory stays, the links are the same, and so is the working directory if there
is one. -/
structure Retains (disk disk' : Disk) : Prop where
  directory : ∀ loc, disk.tree.get? loc = some .directory → disk'.tree.get? loc = some .directory
  link : ∀ loc target, disk'.tree.get? loc = some (.link target) ↔
    disk.tree.get? loc = some (.link target)
  working : ∀ start, disk.workingLoc? = some start → disk'.workingLoc? = some start

theorem Retains.refl (disk : Disk) : disk.Retains disk where
  directory _ hloc := hloc
  link _ _ := .rfl
  working _ hstart := hstart

theorem Retains.start? (hretains : disk.Retains disk') {anchor : Anchor} {start : Loc}
    (hstart : disk.start? anchor = some start) : disk'.start? anchor = some start := by
  cases anchor with
  | here => exact hretains.working start hstart
  | root => exact hstart
  | doubleRoot => exact hstart

/-! ## Finding a directory -/

section Walk

variable {tree tree' : Tree} {jump jump' : Loc → String → List String → Except Refusal Found}
  {here : Loc} {names : List String}

variable (hdirectory : ∀ loc, tree.get? loc = some .directory → tree'.get? loc = some .directory)
  (hlink : ∀ loc target, tree.get? loc = some (.link target) →
    tree'.get? loc = some (.link target))

include hdirectory hlink

theorem walk_retained
    (hjump : ∀ dir target rest, jump dir target rest = .ok (.present loc .directory) →
      jump' dir target rest = .ok (.present loc .directory))
    (hwalk : walk jump tree .followed here names = .ok (.present loc .directory)) :
    walk jump' tree' .followed here names = .ok (.present loc .directory) := by
  have hhere := hdirectory here (start_of_walk hwalk)
  induction names generalizing here with
  | nil =>
    have hstart := start_of_walk hwalk
    rw [walk, hstart] at hwalk
    rw [walk, hhere]
    exact hwalk
  | cons name rest ih =>
    obtain ⟨-, ⟨hskip, hnext⟩ | ⟨rfl, hnext⟩ | ⟨hname, hshort, hnext⟩⟩ := walk_cons hwalk
    · simpa only [walk, hhere, if_pos hskip] using
        ih hnext (hdirectory _ (start_of_walk hnext))
    · simpa [walk, hhere] using ih hnext (hdirectory _ (start_of_walk hnext))
    · have hkept : ¬(name = "" ∨ name = ".") := not_or.mpr hname.1
      obtain ⟨target, hentry, hnext⟩ | ⟨held, -, -, hnext⟩ := hnext
      · simpa [walk, hhere, hkept, hname.2, Nat.not_lt.mpr hshort, hlink _ _ hentry] using
          hjump _ _ _ hnext
      · have hdown := hdirectory _ (start_of_walk hnext)
        simpa [walk, hhere, hkept, hname.2, Nat.not_lt.mpr hshort, hdown] using ih hnext hdown

theorem route_retained {links : Nat}
    (hroute : route tree .followed links here names = .ok (.present loc .directory)) :
    route tree' .followed links here names = .ok (.present loc .directory) := by
  induction links generalizing here names with
  | zero => exact walk_retained hdirectory hlink (fun _ _ _ hjump => by cases hjump) hroute
  | succ links ih => exact walk_retained hdirectory hlink (fun _ _ _ hjump => ih hjump) hroute

end Walk

/-- A directory that is reached stays reached. -/
theorem Retains.found (hretains : disk.Retains disk') {start : Loc}
    (hstart : disk.start? path.anchor = some start)
    (hfind : disk.find .followed path = .ok (.present loc .directory)) :
    disk'.find .followed path = .ok (.present loc .directory) := by
  have hpath := nameable_of_find hfind
  rw [find_of_start hpath hstart] at hfind
  rw [find_of_start hpath (hretains.start? hstart)]
  exact route_retained hretains.directory (fun loc target => (hretains.link loc target).mpr) hfind

/-! ## Paths without links -/

/-- The path leads to `loc` if anywhere: it goes up and then down, and none of the names that
it passes on the way down is found to be that of a link. -/
inductive Bare (disk : Disk) : Path → Loc → Prop
  | ups {anchor : Anchor} {start : Loc} (ups : Nat)
      (hstart : disk.start? anchor = some start) :
      Bare disk ⟨anchor, List.replicate ups ".."⟩ (start.take (start.length - ups))
  | child {path : Path} {loc : Loc} {name : String} (hpath : Bare disk path loc)
      (hname : Path.Ordinary name)
      (hlink : ∀ target, disk.stat .itself (path.child name) ≠ .ok (.link target)) :
      Bare disk (path.child name) (loc ++ [name])

namespace Bare

theorem starts (hbare : disk.Bare path loc) : ∃ start, disk.start? path.anchor = some start := by
  induction hbare with
  | ups _ hstart => exact ⟨_, hstart⟩
  | child _ _ _ ih => exact ih

theorem find_ups (hsound : disk.Sound) {anchor : Anchor} {start : Loc} {ups : Nat}
    (hstart : disk.start? anchor = some start)
    (hpath : Path.Nameable ⟨anchor, List.replicate ups ".."⟩) (manner : Manner) :
    disk.find manner ⟨anchor, List.replicate ups ".."⟩ =
      .ok (.present (start.take (start.length - ups)) .directory) := by
  obtain ⟨rfl, hlost⟩ := turn_of_start? hstart
  obtain ⟨jump, hwalk⟩ := hsound.find_eq_walk hpath (List.append_nil _).symm
    (fun hhere => (hlost hhere).trans_le (Nat.zero_le ups)) manner
  have hturn : disk.turn ups anchor =
      (disk.turn 0 anchor).take ((disk.turn 0 anchor).length - ups) := by
    cases anchor with
    | here => simp [turn, hlost rfl]
    | root => simp [turn]
    | doubleRoot => simp [turn]
  have hdirectory : disk.tree.get? (disk.turn ups anchor) = some .directory := by
    cases anchor with
    | here =>
      by_cases hall : disk.turn ups .here = disk.cwd.above
      · rw [hall, hsound.working]
      · exact hsound.directory_of_prefix (List.take_prefix _ _) hall hsound.working
    | root => exact disk.tree.get?_nil
    | doubleRoot => exact disk.tree.get?_nil
  rw [hwalk, walk, hdirectory, hturn]

theorem find_child_itself (hlink : ∀ target, disk.stat .itself (path.child name) ≠ .ok (.link target)) :
    disk.find .followed (path.child name) = disk.find .itself (path.child name) := by
  refine find_followed_of_ne_link rfl fun loc text hfind => hlink text ?_
  rw [stat, hfind]
  rfl

/-- What is found lies where the path leads, and then all its names are within the limits. -/
theorem of_find (hbare : disk.Bare path loc) (hsound : disk.Sound) {other : Loc} {entry : Entry}
    (hfind : disk.find .followed path = .ok (.present other entry)) :
    other = loc ∧ path.Fitting := by
  induction hbare generalizing other entry with
  | ups ups hstart =>
    have hpath := nameable_of_find hfind
    rw [find_ups hsound hstart hpath] at hfind
    cases hfind
    refine ⟨rfl, hpath, fun name hname => ?_⟩
    obtain rfl := List.eq_of_mem_replicate hname
    decide
  | @child path loc name hpath hname hlink ih =>
    have hnameable := nameable_of_find hfind
    rw [find_child_itself hlink] at hfind
    obtain ⟨p, hp, hshort, ⟨h, -⟩ | ⟨_, h, -⟩⟩ := reached_of_find_child hname hfind
    · cases h
    · cases h
      obtain ⟨rfl, hfits⟩ := ih hp
      refine ⟨rfl, hnameable, fun next hnext => ?_⟩
      rcases List.mem_append.mp hnext with hnext | hnext
      · exact hfits.2 next hnext
      · rwa [List.mem_singleton.mp hnext]

theorem found (hbare : disk.Bare path loc) (hsound : disk.Sound) (hfits : path.Fitting)
    (hdirectory : disk.tree.get? loc = some .directory) :
    disk.find .followed path = .ok (.present loc .directory) := by
  induction hbare with
  | ups ups hstart => exact find_ups hsound hstart hfits.1 _
  | @child path loc name hpath hname hlink ih =>
    have hreached := ih (hfits.parent (Path.ordinary_ne_empty hname)) (hsound.closed hdirectory)
    rw [find_child_itself hlink,
      find_child_of_reached hname (hfits.2 name (by simp [Path.child])) hfits.1 hreached,
      hdirectory]

/-- Whether the next name is that of a link is told by the tree. -/
theorem stat_child_eq_link_iff (hbare : disk.Bare path loc) (hsound : disk.Sound)
    (hname : Path.Ordinary name) :
    disk.stat .itself (path.child name) = .ok (.link target) ↔
      (path.child name).Fitting ∧ disk.tree.get? (loc ++ [name]) = some (.link target) := by
  constructor
  · intro hstat
    cases hfind : disk.find .itself (path.child name) with
    | error why =>
      rw [stat, hfind] at hstat
      cases hstat
    | ok found =>
      rw [stat, hfind] at hstat
      obtain ⟨p, hp, hshort, ⟨rfl, -⟩ | ⟨entry, rfl, hentry⟩⟩ := reached_of_find_child hname hfind
      · cases hstat
      · cases hstat
        obtain ⟨rfl, hfits⟩ := hbare.of_find hsound hp
        refine ⟨⟨nameable_of_find hfind, fun next hnext => ?_⟩, hentry⟩
        rcases List.mem_append.mp hnext with hnext | hnext
        · exact hfits.2 next hnext
        · rwa [List.mem_singleton.mp hnext]
  · rintro ⟨hfits, hentry⟩
    have hreached := hbare.found hsound (hfits.parent (Path.ordinary_ne_empty hname))
      (hsound.closed hentry)
    rw [stat, find_child_of_reached hname (hfits.2 name (by simp [Path.child])) hfits.1 hreached,
      hentry]
    rfl

theorem lexicalParent (hbare : disk.Bare path loc) :
    disk.Bare (lexicalParent path) loc.dropLast := by
  cases hbare with
  | child hpath hname hlink =>
    rename_i path loc name
    have hparent : Disk.lexicalParent (path.child name) = path := by
      obtain ⟨anchor, parts⟩ := path
      cases anchor <;> simp [Disk.lexicalParent, Path.child, Path.parent, hname.2]
    rwa [hparent, List.dropLast_concat]
  | @ups anchor start ups hstart =>
    have htake (more : Nat) : (start.take (start.length - ups)).dropLast =
        start.take (start.length - (ups + 1)) := by
      rw [List.dropLast_eq_take, List.take_take, List.length_take]
      congr 1
      omega
    cases anchor with
    | here =>
      have hone : Disk.lexicalParent ⟨.here, List.replicate ups ".."⟩ =
          ⟨.here, List.replicate (ups + 1) ".."⟩ := by
        rw [List.replicate_succ']
        cases ups with
        | zero => rfl
        | succ ups => simp [Disk.lexicalParent, List.getLast?_replicate]
      rw [hone, htake 0]
      exact .ups (ups + 1) hstart
    | root =>
      cases hstart
      have hone : Disk.lexicalParent ⟨.root, List.replicate ups ".."⟩ =
          ⟨.root, List.replicate (ups - 1) ".."⟩ := by simp [Disk.lexicalParent, Path.parent]
      rw [hone]
      have hups : disk.Bare ⟨.root, List.replicate (ups - 1) ".."⟩ _ := .ups (ups - 1) rfl
      simpa using hups
    | doubleRoot =>
      cases hstart
      have hone : Disk.lexicalParent ⟨.doubleRoot, List.replicate ups ".."⟩ =
          ⟨.doubleRoot, List.replicate (ups - 1) ".."⟩ := by
        simp [Disk.lexicalParent, Path.parent]
      rw [hone]
      have hups : disk.Bare ⟨.doubleRoot, List.replicate (ups - 1) ".."⟩ _ := .ups (ups - 1) rfl
      simpa using hups

/-- The location is what is left of the path without a look at the disk. -/
theorem collapse_eq (hbare : disk.Bare path loc) (hsound : disk.Sound) {start : Loc}
    (hstart : disk.start? path.anchor = some start) : collapse (start ++ path.parts) = loc := by
  induction hbare with
  | ups ups hstart' =>
    cases hstart.symm.trans hstart'
    refine collapse_ups (fun name hname => ?_) ups
    obtain ⟨rfl, -⟩ := turn_of_start? hstart
    rename_i anchor
    cases anchor with
    | here => exact hsound.ordinary_of_mem hsound.working name (List.mem_of_mem_take hname)
    | root => cases hname
    | doubleRoot => cases hname
  | @child path loc name _ hname _ ih =>
    rw [Path.child, ← List.append_assoc, collapse_append (by simpa using hname), ih hstart]

/-- A path without links has none on a disk with the same links. -/
theorem retained (hbare : disk.Bare path loc) (hretains : disk.Retains disk')
    (hsound : disk.Sound) (hsound' : disk'.Sound) : disk'.Bare path loc := by
  induction hbare with
  | ups ups hstart => exact .ups ups (hretains.start? hstart)
  | child hpath hname hlink ih =>
    refine .child ih hname fun target hstat => hlink target ?_
    obtain ⟨hfits, hentry⟩ := (ih.stat_child_eq_link_iff hsound' hname).mp hstat
    exact (hpath.stat_child_eq_link_iff hsound hname).mpr ⟨hfits, (hretains.link _ _).mp hentry⟩

end Bare

/-! ## Searches -/

/-- What links already met stand for is known by a path without links. -/
def Settled (disk : Disk) (met : Met) : Prop :=
  ∀ here known, met.lookup here = some (some known) → ∃ loc, disk.Bare known loc

/-- A search that has come to its end has come to a path without links. -/
structure Arrived (disk : Disk) (unlinked : Unlinked) : Prop where
  bare : unlinked.complete = true → ∃ loc, disk.Bare unlinked.path loc
  settled : disk.Settled unlinked.met

/-- From a path without links a link is opened alike on two disks. -/
def EntersAlike (disk : Disk) (enter enter' : Path → String → Met → Unlinked) : Prop :=
  ∀ base loc target met, disk.Bare base loc → disk.Settled met →
    enter base target met = enter' base target met ∧ disk.Arrived (enter base target met)

section Search

variable {enter enter' : Path → String → Met → Unlinked} {met : Met} {base : Path}
  {names rest : List String}

theorem Settled.cons (hmet : disk.Settled met) {here : Path} {known : Option Path}
    (hknown : ∀ path, known = some path → ∃ loc, disk.Bare path loc) :
    disk.Settled ((here, known) :: met) := by
  intro other found hlookup
  rw [List.lookup_cons] at hlookup
  split at hlookup
  · exact hknown found (Option.some.inj hlookup)
  · exact hmet other found hlookup

theorem unlinkNames_of_ne_link (hname : Path.Ordinary name)
    (hlink : ∀ target, disk.stat .itself (base.child name) ≠ .ok (.link target)) :
    unlinkNames enter disk met base (name :: rest) =
      unlinkNames enter disk met (base.child name) rest := by
  rw [unlinkNames, if_neg (not_or.mpr hname.1), if_neg hname.2]
  dsimp only
  split
  · next target hstat => exact absurd hstat (hlink target)
  · rfl

theorem unlinkNames_of_idle (hidle : ∀ name ∈ names, name = "" ∨ name = ".") :
    unlinkNames enter disk met base (names ++ rest) = unlinkNames enter disk met base rest := by
  induction names with
  | nil => rfl
  | cons name more ih =>
    obtain ⟨hname, hmore⟩ := List.forall_mem_cons.mp hidle
    rw [List.cons_append, unlinkNames, if_pos hname]
    exact ih hmore

variable (hretains : disk.Retains disk') (hsound : disk.Sound) (hsound' : disk'.Sound)

include hretains hsound hsound'

/-- Names are searched alike on disks with the same links. -/
theorem unlinkNames_retained (henter : disk.EntersAlike enter enter') (hbase : disk.Bare base loc)
    (hmet : disk.Settled met) :
    unlinkNames enter disk met base names = unlinkNames enter' disk' met base names ∧
      disk.Arrived (unlinkNames enter disk met base names) := by
  induction names generalizing met base loc with
  | nil => exact ⟨rfl, fun _ => ⟨loc, hbase⟩, hmet⟩
  | cons name rest ih =>
    by_cases hskip : name = "" ∨ name = "."
    · rw [unlinkNames, unlinkNames, if_pos hskip, if_pos hskip]
      exact ih hbase hmet
    by_cases hup : name = ".."
    · rw [unlinkNames, unlinkNames, if_neg hskip, if_neg hskip, if_pos hup, if_pos hup]
      exact ih hbase.lexicalParent hmet
    have hname : Path.Ordinary name := ordinary_of hskip hup
    have hstat {target : String} : disk'.stat .itself (base.child name) = .ok (.link target) ↔
        disk.stat .itself (base.child name) = .ok (.link target) := by
      rw [hbase.stat_child_eq_link_iff hsound hname, hretains.link _ _ |>.symm,
        (hbase.retained hretains hsound hsound').stat_child_eq_link_iff hsound' hname]
    by_cases hlink : ∃ target, disk.stat .itself (base.child name) = .ok (.link target)
    · obtain ⟨target, hlink⟩ := hlink
      rw [unlinkNames, unlinkNames, if_neg hskip, if_neg hskip, if_neg hup, if_neg hup]
      simp only [hlink, hstat.mpr hlink]
      rcases hlookup : met.lookup (base.child name) with _ | _ | known
      · have hopened : disk.Settled ((base.child name, none) :: met) := hmet.cons (by simp)
        obtain ⟨heq, harrived⟩ := henter base loc target _ hbase hopened
        simp only [← heq]
        split
        · next hcomplete =>
          obtain ⟨inside, hinside⟩ := harrived.bare hcomplete
          refine ih hinside (harrived.settled.cons fun path hpath => ?_)
          cases hpath
          exact ⟨inside, hinside⟩
        · exact ⟨rfl, by simp, harrived.settled⟩
      · exact ⟨rfl, by simp, hmet⟩
      · obtain ⟨inside, hinside⟩ := hmet _ _ hlookup
        exact ih hinside hmet
    · have hother (target : String) := not_exists.mp hlink target
      rw [unlinkNames_of_ne_link hname hother,
        unlinkNames_of_ne_link hname fun target => mt hstat.mp (hother target)]
      exact ih (hbase.child hname hother) hmet

theorem unlinkFrom_retained (depth : Nat) :
    disk.EntersAlike (unlinkFrom disk depth) (unlinkFrom disk' depth) := by
  induction depth with
  | zero =>
    intro base loc target met hbase hmet
    exact ⟨rfl, by simp [unlinkFrom], hmet⟩
  | succ depth ih =>
    intro base loc target met hbase hmet
    simp only [unlinkFrom]
    split
    · have hroot : disk.Bare ⟨.root, List.replicate 0 ".."⟩ _ := .ups 0 rfl
      exact unlinkNames_retained hretains hsound hsound' ih hroot hmet
    · exact unlinkNames_retained hretains hsound hsound' ih hbase hmet

end Search

end Disk

/-! ## The texts of paths -/

namespace Path

variable {path : Path} {name : String}

theorem components_append_slash (text : String) (hslash : '/' ∉ name.toList) :
    components (text ++ "/" ++ name) = components text ++ [name] := by
  have hsplit : name.toList.splitOn '/' = [name.toList] := by
    refine List.splitOnP_eq_singleton fun c hc => ?_
    simpa using fun heq : c = '/' => hslash (heq ▸ hc)
  have hlist : (text ++ "/" ++ name).toList = text.toList ++ '/' :: name.toList := by simp
  rw [components, hlist, List.splitOn, List.splitOnP_append_cons _ _ (by simp), ← List.splitOn,
    ← List.splitOn, hsplit, List.map_append, components]
  simp

/-- Beside the name, nothing is read from the text of an entry's path but what is read from
that of its directory. -/
theorem components_child (path : Path) (hslash : '/' ∉ name.toList) :
    ∃ front, components (path.child name).toString = front ++ [name] ∧
      (front = components path.toString ∨ (∀ next ∈ front, next = "" ∨ next = ".") ∧
        ∀ next ∈ components path.toString, next = "" ∨ next = ".") := by
  by_cases hparts : path.parts = []
  · obtain ⟨anchor, parts⟩ := path
    obtain rfl : parts = [] := hparts
    rw [toString_child_of_parts_eq_nil rfl]
    have hempty (text : String) : components ("" ++ "/" ++ text) = "" :: components text := by
      have hlist : ("" ++ "/" ++ text).toList = [] ++ '/' :: text.toList := by simp
      rw [components, hlist, List.splitOn, List.splitOnP_append_cons _ _ (by simp)]
      rfl
    have halone : components name = [name] := by
      have hsplit : name.toList.splitOn '/' = [name.toList] := by
        refine List.splitOnP_eq_singleton fun c hc => ?_
        simpa using fun heq : c = '/' => hslash (heq ▸ hc)
      simp [components, hsplit]
    cases anchor with
    | here => exact ⟨[], by simpa [Anchor.text] using halone, .inr ⟨by simp, by decide⟩⟩
    | root =>
      refine ⟨[""], ?_, .inr ⟨by simp, by decide⟩⟩
      exact (hempty name).trans (by rw [halone]; rfl)
    | doubleRoot =>
      refine ⟨["", ""], ?_, .inr ⟨by simp, by decide⟩⟩
      have htext : Anchor.text .doubleRoot ++ name = "" ++ "/" ++ ("" ++ "/" ++ name) := by
        simp [Anchor.text, ← String.append_assoc]
      rw [htext, hempty, hempty, halone]
      rfl
  · exact ⟨_, by rw [toString_child_of_parts_ne_nil hparts, components_append_slash _ hslash],
      .inl rfl⟩

theorem isAbsolute_ofString_iff (text : String) :
    (ofString text).isAbsolute = true ↔ text.toList.head? = some '/' := by
  rw [isAbsolute, bne_iff_ne, ofString]
  rcases text.toList with _ | ⟨c, rest⟩
  · simp [anchorOf]
  · by_cases hc : c = '/'
    · subst hc
      simp only [List.head?_cons, iff_true]
      unfold anchorOf
      split <;> simp_all
    · simp only [List.head?_cons, Option.some.injEq, hc, iff_false, not_not]
      unfold anchorOf
      split <;> simp_all

theorem isAbsolute_ofString_of_anchor (hanchor : path.anchor ≠ .here) :
    (ofString path.toString).isAbsolute = true := by
  obtain ⟨anchor, parts⟩ := path
  rw [isAbsolute_ofString_iff]
  cases anchor with
  | here => exact absurd rfl hanchor
  | root => simp [Path.toString, Anchor.text]
  | doubleRoot => simp [Path.toString, Anchor.text]

/-- A path to an entry is absolute if the path to its directory is. -/
theorem isAbsolute_ofString_child (hnames : ∀ next ∈ path.parts, next ≠ "")
    (hslash : '/' ∉ name.toList) :
    (ofString (path.child name).toString).isAbsolute = (ofString path.toString).isAbsolute := by
  rw [Bool.eq_iff_iff, isAbsolute_ofString_iff, isAbsolute_ofString_iff]
  by_cases hparts : path.parts = []
  · rw [toString_child_of_parts_eq_nil hparts]
    obtain ⟨anchor, parts⟩ := path
    obtain rfl : parts = [] := hparts
    cases anchor with
    | here =>
      have hhead : name.toList.head? ≠ some '/' := fun h => hslash (List.mem_of_mem_head? h)
      simp [Anchor.text, Path.toString, hhead]
    | root => simp [Anchor.text, Path.toString]
    | doubleRoot => simp [Anchor.text, Path.toString]
  · have htext : path.toString ≠ "" := by
      rw [toString_of_parts_ne_nil hparts]
      obtain ⟨first, rest, hcons⟩ := List.exists_cons_of_ne_nil hparts
      have hfirst := hnames first (by simp [hcons])
      rw [hcons]
      cases rest with
      | nil => simp [hfirst]
      | cons next more =>
        rw [String.intercalate_cons_of_ne_nil (by simp)]
        simp [hfirst]
    obtain ⟨c, rest, hchars⟩ := List.exists_cons_of_ne_nil
      (show path.toString.toList ≠ [] by simpa using htext)
    rw [toString_child_of_parts_ne_nil hparts]
    simp [hchars]

end Path

namespace Disk

variable {disk disk' : Disk} {path : Path} {loc : Loc} {name target : String}

/-! ## Canonical forms -/

theorem Retains.links_eq (hretains : disk.Retains disk') (hsound : disk.Sound)
    (hsound' : disk'.Sound) : disk'.tree.links = disk.tree.links := by
  have hmem {tree : Tree} (hrooted : tree.Rooted) (item : Loc × Entry) :
      item ∈ tree.entries.filter (fun x => x.2.kind = .link) ↔
        ∃ target, item.2 = .link target ∧ tree.get? item.1 = some (.link target) := by
    obtain ⟨loc, entry⟩ := item
    rw [List.mem_filter, Tree.mem_entries_iff hrooted]
    constructor
    · rintro ⟨⟨-, hentry⟩, hkind⟩
      cases entry with
      | link target => exact ⟨target, rfl, hentry⟩
      | directory => simp [Entry.kind] at hkind
      | file bytes access => simp [Entry.kind] at hkind
    · rintro ⟨target, rfl, hentry⟩
      exact ⟨⟨Tree.ne_nil_of_get? hentry (by simp), hentry⟩, by simp [Entry.kind]⟩
  have hentries : disk'.tree.entries.filter (fun x => x.2.kind = .link) =
      disk.tree.entries.filter (fun x => x.2.kind = .link) := by
    refine List.Pairwise.eq_of_mem_iff
      (r := fun left right : Loc × Entry => left.1 < right.1) (disk'.tree.sorted.filter _)
      (disk.tree.sorted.filter _) fun item => ?_
    rw [hmem hsound.rooted, hmem hsound'.rooted]
    exact exists_congr fun target => and_congr_right fun _ => hretains.link _ _
  rw [Tree.links, hentries, Tree.links]

/-- What a path comes to when its links are replaced. -/
def unlinked (disk : Disk) (path : Path) : Unlinked :=
  unlinkFrom disk (2 * disk.tree.links + 1) ⟨.here, []⟩ path.toString []

theorem of_canonicalPath {result : Path} (hcanonical : disk.canonicalPath path = .ok result) :
    path.hasNul = false ∧ ∃ start, disk.start? (disk.unlinked path).path.anchor = some start ∧
      result = locPath (collapse (start ++ (disk.unlinked path).path.parts)) := by
  unfold canonicalPath at hcanonical
  split at hcanonical <;> cases hcanonical
  next hresult =>
  unfold canonical at hresult
  by_cases hnul : path.hasNul = true
  · rw [if_pos hnul] at hresult
    cases hresult
  · refine ⟨by simpa using hnul, ?_⟩
    rw [if_neg hnul] at hresult
    rw [unlinked]
    generalize (unlinkFrom disk _ _ _ _).path = found at hresult ⊢
    obtain ⟨anchor, parts⟩ := found
    cases anchor with
    | here =>
      cases hstart : disk.workingLoc? with
      | none =>
        simp only [hstart] at hresult
        cases hresult
      | some start =>
        simp only [hstart, pure_bind] at hresult
        split at hresult <;> cases hresult
        exact ⟨start, hstart, rfl⟩
    | root =>
      simp only [pure_bind] at hresult
      split at hresult <;> cases hresult
      exact ⟨[], rfl, rfl⟩
    | doubleRoot =>
      simp only [pure_bind] at hresult
      split at hresult <;> cases hresult
      exact ⟨[], rfl, rfl⟩

theorem canonicalPath_eq {start : Loc} (hnul : path.hasNul = false)
    (hstart : disk.start? (disk.unlinked path).path.anchor = some start)
    (hcollapse : collapse (start ++ (disk.unlinked path).path.parts) = loc)
    (hloop : disk.stat .followed (locPath loc) ≠ .error .loop) :
    disk.canonicalPath path = .ok (locPath loc) := by
  have hcanonical : disk.canonical path = .ok (locPath loc) := by
    rw [canonical, if_neg (by simp [hnul])]
    change (pure PUnit.unit >>= fun _ => _ : Except Uncanonical Path) = _
    rw [unlinked] at hstart hcollapse
    simp only [pure_bind]
    generalize (unlinkFrom disk _ _ _ _).path = found at hstart hcollapse ⊢
    obtain ⟨anchor, parts⟩ := found
    cases anchor with
    | here =>
      rw [Disk.start?] at hstart
      simp only [hstart, hcollapse]
      rfl
    | root =>
      cases hstart
      rw [List.nil_append] at hcollapse
      simp only [hcollapse]
      rfl
    | doubleRoot =>
      cases hstart
      rw [List.nil_append] at hcollapse
      simp only [hcollapse]
      rfl
  rw [canonicalPath, hcanonical]

section Unlinked

variable (hretains : disk.Retains disk') (hsound : disk.Sound) (hsound' : disk'.Sound)

include hretains hsound hsound'

/-- The links of a path are replaced alike on disks with the same links. -/
theorem Retains.unlinked_eq {start : Loc} (hstart : disk.start? path.anchor = some start) :
    disk'.unlinked path = disk.unlinked path ∧ disk.Arrived (disk.unlinked path) := by
  have henter := unlinkFrom_retained hretains hsound hsound' (2 * disk.tree.links)
  have hmet : disk.Settled [] := by simp [Settled]
  simp only [unlinked, hretains.links_eq hsound hsound', unlinkFrom]
  split
  · have hroot : disk.Bare ⟨.root, List.replicate 0 ".."⟩ _ := .ups 0 rfl
    exact (unlinkNames_retained hretains hsound hsound' henter hroot hmet).imp_left Eq.symm
  · next habsolute =>
    have hhere : path.anchor = .here := by
      by_contra hanchor
      exact habsolute (Path.isAbsolute_ofString_of_anchor hanchor)
    rw [hhere] at hstart
    have hbase : disk.Bare ⟨.here, List.replicate 0 ".."⟩ _ := .ups 0 hstart
    exact (unlinkNames_retained hretains hsound hsound' henter hbase hmet).imp_left Eq.symm

end Unlinked

theorem unlinkNames_append {enter : Path → String → Met → Unlinked} {met : Met} {base : Path}
    (names more : List String) : unlinkNames enter disk met base (names ++ more) =
      if (unlinkNames enter disk met base names).complete then
        unlinkNames enter disk (unlinkNames enter disk met base names).met
          (unlinkNames enter disk met base names).path more
      else ⟨(unlinkNames enter disk met base names).path.join ⟨.here, more⟩, false,
        (unlinkNames enter disk met base names).met⟩ := by
  induction names generalizing met base with
  | nil => rfl
  | cons name rest ih =>
    have hjoin (path : Path) : path.join ⟨.here, rest ++ more⟩ =
        (path.join ⟨.here, rest⟩).join ⟨.here, more⟩ := by simp [Path.join]
    rw [List.cons_append]
    simp only [unlinkNames]
    split
    · exact ih
    split
    · exact ih
    split
    · rcases met.lookup (base.child name) with _ | _ | known
      · dsimp only
        split
        · exact ih
        · simp [hjoin]
      · simp [hjoin]
      · exact ih
    · exact ih

/-- The path is read from text, is followed to the directory at `loc` and has the path of that
location as canonical form. -/
structure Opens (disk : Disk) (path : Path) (loc : Loc) : Prop where
  significant : ∀ name ∈ path.parts, Path.Significant name
  starts : (disk.start? path.anchor).isSome = true
  found : disk.find .followed path = .ok (.present loc .directory)
  canonical : disk.canonicalPath path = .ok (locPath loc)

instance (disk : Disk) (path : Path) (loc : Loc) : Decidable (disk.Opens path loc) :=
  decidable_of_iff ((∀ name ∈ path.parts, Path.Significant name) ∧
      (disk.start? path.anchor).isSome = true ∧
      disk.find .followed path = .ok (.present loc .directory) ∧
      (disk.canonicalPath path).toOption = some (locPath loc))
    ⟨fun h => ⟨h.1, h.2.1, h.2.2.1, by
        cases hresult : disk.canonicalPath path <;> simp_all [Except.toOption]⟩,
      fun h => ⟨h.significant, h.starts, h.found, by rw [h.canonical]; rfl⟩⟩

namespace Opens

variable (hopens : disk.Opens path loc)

include hopens

theorem directory : disk.tree.get? loc = some .directory := find_fits hopens.found

/-- A directory stays open as long as directories and links stay. -/
theorem retained (hretains : disk.Retains disk') (hsound : disk.Sound) (hsound' : disk'.Sound) :
    disk'.Opens path loc := by
  obtain ⟨start, hstart⟩ := Option.isSome_iff_exists.mp hopens.starts
  obtain ⟨hnul, first, hfirst, hresult⟩ := of_canonicalPath hopens.canonical
  obtain ⟨hunlinked, -⟩ := hretains.unlinked_eq hsound hsound' hstart
  refine ⟨hopens.significant, by rw [hretains.start? hstart]; rfl,
    hretains.found hstart hopens.found, ?_⟩
  have hfirst' : disk'.start? (disk'.unlinked path).path.anchor = some first := by
    rw [hunlinked]
    exact hretains.start? hfirst
  have hcollapse : collapse (first ++ (disk'.unlinked path).path.parts) = loc := by
    rw [hunlinked]
    exact (locPath_injective hresult).symm
  exact canonicalPath_eq hnul hfirst' hcollapse
    (hsound'.stat_locPath_ne_loop (hretains.directory _ hopens.directory) (by simp))

section Child

variable (hsound : disk.Sound) {entry : Entry}
  (hentry : disk.tree.get? (loc ++ [name]) = some entry) (hlink : ∀ target, entry ≠ .link target)
  (hslash : '/' ∉ name.toList)

include hsound hentry hlink hslash

/-- Where the directory is found without its links, so is an entry that is none. -/
theorem unlinked_child :
    (disk.unlinked (path.child name)).path = (disk.unlinked path).path.child name := by
  have hname := hsound.named hentry
  obtain ⟨start, hstart⟩ := Option.isSome_iff_exists.mp hopens.starts
  obtain ⟨-, first, hfirst, hresult⟩ := of_canonicalPath hopens.canonical
  obtain ⟨-, harrived⟩ := (Retains.refl disk).unlinked_eq hsound hsound hstart
  obtain ⟨front, hcomponents, hfront⟩ := Path.components_child path hslash
  have habsolute := Path.isAbsolute_ofString_child
    (fun next hnext => (hopens.significant next hnext).1) hslash
  have hread : ∀ enter base, unlinkNames enter disk [] base front =
      unlinkNames enter disk [] base (Path.components path.toString) := by
    intro enter base
    rcases hfront with rfl | ⟨hidle, hidle'⟩
    · rfl
    · rw [← List.append_nil front, ← List.append_nil (Path.components path.toString),
        unlinkNames_of_idle hidle, unlinkNames_of_idle hidle']
  -- the search goes on with the name from where it has come to with the directory
  have hsearch : disk.unlinked (path.child name) =
      if (disk.unlinked path).complete then
        unlinkNames (unlinkFrom disk (2 * disk.tree.links)) disk (disk.unlinked path).met
          (disk.unlinked path).path [name]
      else ⟨(disk.unlinked path).path.join ⟨.here, [name]⟩, false, (disk.unlinked path).met⟩ := by
    simp only [unlinked, unlinkFrom, habsolute, hcomponents, unlinkNames_append, hread]
    rfl
  rw [hsearch]
  split
  · next hcomplete =>
    obtain ⟨place, hbare⟩ := harrived.bare hcomplete
    have hplace : place = loc :=
      (hbare.collapse_eq hsound hfirst).symm.trans (locPath_injective hresult).symm
    rw [unlinkNames_of_ne_link hname fun target hstat => ?_]
    · rfl
    · have hheld := ((hbare.stat_child_eq_link_iff hsound hname).mp hstat).2
      rw [hplace, hentry] at hheld
      exact hlink target (Option.some.inj hheld)
  · rfl

/-- An entry that is no link has the path of its location as canonical form. -/
theorem canonicalPath_child (hnul : (path.child name).hasNul = false) :
    disk.canonicalPath (path.child name) = .ok (locPath (loc ++ [name])) := by
  have hname := hsound.named hentry
  have hunlinked := hopens.unlinked_child hsound hentry hlink hslash
  obtain ⟨-, start, hstart, hresult⟩ := of_canonicalPath hopens.canonical
  have hstart' : disk.start? (disk.unlinked (path.child name)).path.anchor = some start := by
    rw [hunlinked]
    exact hstart
  have hcollapse : collapse (start ++ (disk.unlinked (path.child name)).path.parts) =
      loc ++ [name] := by
    rw [hunlinked, Path.child, ← List.append_assoc, collapse_append (by simpa using hname),
      ← locPath_injective hresult]
  exact canonicalPath_eq hnul hstart' hcollapse (hsound.stat_locPath_ne_loop hentry hlink)

end Child

/-- A directory in it is opened by its name. -/
theorem child (hsound : disk.Sound) (hdirectory : disk.tree.get? (loc ++ [name]) = some .directory)
    (hslash : '/' ∉ name.toList) (hpath : (path.child name).Nameable)
    (hshort : name.utf8ByteSize ≤ nameMax) : disk.Opens (path.child name) (loc ++ [name]) where
  significant := by
    simp only [Path.child, List.forall_mem_append, List.forall_mem_singleton]
    exact ⟨hopens.significant, (hsound.named hdirectory).1⟩
  starts := hopens.starts
  found := by
    refine find_followed_of_ne_link ?_ (by simp)
    rw [find_child_of_reached (hsound.named hdirectory) hshort hpath hopens.found, hdirectory]
  canonical := hopens.canonicalPath_child hsound hdirectory (by simp) hslash hpath.1

end Opens

end Disk

end Unscramble
