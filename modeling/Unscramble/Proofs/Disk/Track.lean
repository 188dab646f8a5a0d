import Unscramble.Proofs.Disk.Resolution

/-!
# From one name to the next

A search for the canonical form of a path follows the same names as the system does, but it knows
each directory that it comes to by a path without links.  As long as that path is within the limits
of the system the search reads every link on the way.  Opening a link leaves fewer links to be
followed than before, because no more are followed inside than what it stands for needs, so the
search comes to its end where the system does.
-/

namespace Unscramble

namespace Disk

/-- A directory that has been come to, and the path by which it is known. -/
structure Track where
  path : Path
  loc : Loc

namespace Track

variable (here : Track)

def up : Track := ⟨lexicalParent here.path, here.loc.dropLast⟩

def down (name : String) : Track := ⟨here.path.child name, here.loc ++ [name]⟩

/-- Where the target of a link is followed from. -/
def jump (target : String) : Track :=
  if (Path.ofString target).isAbsolute then ⟨⟨.root, []⟩, []⟩ else here

@[simp]
theorem loc_jump (target : String) : (here.jump target).loc = linkStart here.loc target := by
  unfold jump linkStart
  split <;> rfl

end Track

/-- Following names goes on from one directory to another, with the names that are still to come. -/
inductive Follows (tree : Tree) : Track → List String → Track → List String → Prop
  | refl (here : Track) (names : List String) : Follows tree here names here names
  | skip {here there : Track} {name : String} {rest names : List String}
      (hname : name = "" ∨ name = ".") (hrest : Follows tree here rest there names) :
      Follows tree here (name :: rest) there names
  | up {here there : Track} {rest names : List String}
      (hrest : Follows tree here.up rest there names) :
      Follows tree here (".." :: rest) there names
  | down {here there : Track} {name : String} {rest names : List String} {held : Entry}
      (hname : Path.Ordinary name) (hheld : tree.get? (here.loc ++ [name]) = some held)
      (hother : ∀ target, held ≠ .link target)
      (hrest : Follows tree (here.down name) rest there names) :
      Follows tree here (name :: rest) there names
  | jump {here there : Track} {name target : String} {rest names : List String}
      (hname : Path.Ordinary name) (hlink : tree.get? (here.loc ++ [name]) = some (.link target))
      (hrest : Follows tree (here.jump target) (Path.components target ++ rest) there names) :
      Follows tree here (name :: rest) there names

namespace Follows

variable {tree : Tree} {here there beyond : Track} {names more rest : List String}

theorem trans (hfirst : Follows tree here names there rest)
    (hsecond : Follows tree there rest beyond more) : Follows tree here names beyond more := by
  induction hfirst with
  | refl => exact hsecond
  | skip hname _ ih => exact .skip hname (ih hsecond)
  | up _ ih => exact .up (ih hsecond)
  | down hname hheld hother _ ih => exact .down hname hheld hother (ih hsecond)
  | jump hname hlink _ ih => exact .jump hname hlink (ih hsecond)

/-- Names that come after do not matter before. -/
theorem append (hfollows : Follows tree here names there rest) (more : List String) :
    Follows tree here (names ++ more) there (rest ++ more) := by
  induction hfollows with
  | refl => exact .refl _ _
  | skip hname _ ih => exact .skip hname ih
  | up _ ih => exact .up ih
  | down hname hheld hother _ ih => exact .down hname hheld hother ih
  | jump hname hlink _ ih => exact .jump hname hlink ((List.append_assoc _ _ more) ▸ ih)

/-- On the way of more names one is still among the first, or has come to their end. -/
theorem of_append (hfollows : Follows tree here (names ++ more) there rest) :
    (∃ front, rest = front ++ more ∧ Follows tree here names there front) ∨
      ∃ mid, Follows tree here names mid [] ∧ Follows tree mid more there rest := by
  generalize hall : names ++ more = all at hfollows
  induction hfollows generalizing names with
  | refl here all => exact .inl ⟨names, hall.symm, .refl _ _⟩
  | skip hname hrest ih =>
    rcases names with _ | ⟨first, names⟩
    · subst hall
      exact .inr ⟨_, .refl _ _, .skip hname hrest⟩
    · cases hall
      rcases ih rfl with ⟨front, heq, hfront⟩ | ⟨mid, hmid, hmore⟩
      · exact .inl ⟨front, heq, .skip hname hfront⟩
      · exact .inr ⟨mid, .skip hname hmid, hmore⟩
  | up hrest ih =>
    rcases names with _ | ⟨first, names⟩
    · subst hall
      exact .inr ⟨_, .refl _ _, .up hrest⟩
    · cases hall
      rcases ih rfl with ⟨front, heq, hfront⟩ | ⟨mid, hmid, hmore⟩
      · exact .inl ⟨front, heq, .up hfront⟩
      · exact .inr ⟨mid, .up hmid, hmore⟩
  | down hname hheld hother hrest ih =>
    rcases names with _ | ⟨first, names⟩
    · subst hall
      exact .inr ⟨_, .refl _ _, .down hname hheld hother hrest⟩
    · cases hall
      rcases ih rfl with ⟨front, heq, hfront⟩ | ⟨mid, hmid, hmore⟩
      · exact .inl ⟨front, heq, .down hname hheld hother hfront⟩
      · exact .inr ⟨mid, .down hname hheld hother hmid, hmore⟩
  | jump hname hlink hrest ih =>
    rcases names with _ | ⟨first, names⟩
    · subst hall
      exact .inr ⟨_, .refl _ _, .jump hname hlink hrest⟩
    · cases hall
      rcases ih (List.append_assoc _ _ _) with ⟨front, heq, hfront⟩ | ⟨mid, hmid, hmore⟩
      · exact .inl ⟨front, heq, .jump hname hlink hfront⟩
      · exact .inr ⟨mid, .jump hname hlink hmid, hmore⟩

variable {links : Nat} {loc : Loc} {entry : Entry}

/-- Names that lead to an entry are followed to their end. -/
theorem of_route (hroute : route tree .followed links here.loc names = .ok (.present loc entry)) :
    ∃ there, Follows tree here names there [] ∧ there.loc = loc := by
  induction links using Nat.strong_induction_on generalizing here names with
  | _ links ih =>
    induction names generalizing here with
    | nil => exact ⟨here, .refl here [], eq_of_route_nil hroute⟩
    | cons name rest ihrest =>
      obtain ⟨hskip, hnext⟩ | ⟨rfl, hnext⟩ | ⟨hname, target, fewer, hlink, hfewer, hnext⟩ |
        ⟨hname, held, hheld, hother, hnext⟩ := route_step hroute
      · obtain ⟨there, hrest, hloc⟩ := ihrest hnext
        exact ⟨there, .skip hskip hrest, hloc⟩
      · obtain ⟨there, hrest, hloc⟩ := @ihrest here.up hnext
        exact ⟨there, .up hrest, hloc⟩
      · rw [← here.loc_jump] at hnext
        obtain ⟨there, hrest, hloc⟩ := ih fewer hfewer hnext
        exact ⟨there, .jump hname hlink hrest, hloc⟩
      · obtain ⟨there, hrest, hloc⟩ := @ihrest (here.down name) hnext
        exact ⟨there, .down hname hheld hother hrest, hloc⟩

/-- Whatever names have been followed on the way to an entry, the others lead on to it. -/
theorem route (hfollows : Follows tree here names there rest)
    (hroute : Disk.route tree .followed links here.loc names = .ok (.present loc entry)) :
    ∃ fewer, Disk.route tree .followed fewer there.loc rest = .ok (.present loc entry) := by
  induction hfollows generalizing links with
  | refl => exact ⟨links, hroute⟩
  | skip hskip _ ih =>
    obtain ⟨-, hnext⟩ | ⟨rfl, -⟩ | ⟨hname, -⟩ | ⟨hname, -⟩ := route_step hroute
    · exact ih hnext
    · simp at hskip
    · exact absurd hskip (not_or.mpr hname.1)
    · exact absurd hskip (not_or.mpr hname.1)
  | up _ ih =>
    obtain ⟨hskip, -⟩ | ⟨-, hnext⟩ | ⟨hname, -⟩ | ⟨hname, -⟩ := route_step hroute
    · simp at hskip
    · exact ih hnext
    · exact absurd rfl hname.2
    · exact absurd rfl hname.2
  | down hname hheld hother _ ih =>
    obtain ⟨hskip, -⟩ | ⟨rfl, -⟩ | ⟨-, target, fewer, hlink, -⟩ | ⟨-, held, -, -, hnext⟩ :=
      route_step hroute
    · exact absurd hskip (not_or.mpr hname.1)
    · exact absurd rfl hname.2
    · exact absurd (Option.some.inj (hheld.symm.trans hlink)) (hother target)
    · exact ih hnext
  | jump hname hlink _ ih =>
    obtain ⟨hskip, -⟩ | ⟨rfl, -⟩ | ⟨-, target, fewer, hheld, -, hnext⟩ | ⟨-, held, hheld, hother, -⟩ :=
      route_step hroute
    · exact absurd hskip (not_or.mpr hname.1)
    · exact absurd rfl hname.2
    · cases hlink.symm.trans hheld
      rw [← Track.loc_jump] at hnext
      exact ih hnext
    · exact absurd (Option.some.inj (hheld.symm.trans hlink)) (hother _)

end Follows

/-- The links on the way of these names are met by paths within the limits of the system. -/
def LinksFit (tree : Tree) (here : Track) (names : List String) : Prop :=
  ∀ there name rest target, Follows tree here names there (name :: rest) →
    tree.get? (there.loc ++ [name]) = some (.link target) → (there.path.child name).Fitting

theorem LinksFit.along {tree : Tree} {here there : Track} {names rest : List String}
    (hfit : LinksFit tree here names) (hfollows : Follows tree here names there rest) :
    LinksFit tree there rest :=
  fun _ _ _ _ hbeyond => hfit _ _ _ _ (hfollows.trans hbeyond)

variable {disk : Disk} {here : Track} {path : Path} {loc mid : Loc} {name target : String}

theorem Bare.unique (hbare : disk.Bare path loc) (hsound : disk.Sound) (hother : disk.Bare path mid) :
    loc = mid := by
  obtain ⟨start, hstart⟩ := hbare.starts
  rw [← hbare.collapse_eq hsound hstart, hother.collapse_eq hsound hstart]

theorem Bare.jump (hbare : disk.Bare here.path here.loc) (target : String) :
    disk.Bare (here.jump target).path (here.jump target).loc := by
  rw [Track.jump]
  split
  · have hroot : disk.Bare ⟨.root, List.replicate 0 ".."⟩ _ := .ups 0 rfl
    exact hroot
  · exact hbare

/-! ## What is noted about links -/

/-- What is noted about the links already met is right.  Those that are still open are
among `opens`. -/
structure Noted (disk : Disk) (opens : List Track) (met : Met) : Prop where
  known : ∀ {here : Track} {name target known}, disk.Bare here.path here.loc →
    disk.tree.get? (here.loc ++ [name]) = some (.link target) →
      met.lookup (here.path.child name) = some (some known) →
        ∃ links mid, disk.Bare known mid ∧ Stands disk.tree links here.loc target mid ∧
          Follows disk.tree (here.jump target) (Path.components target) ⟨known, mid⟩ []
  opened : ∀ {here : Track} {name}, disk.Bare here.path here.loc →
    met.lookup (here.path.child name) = some none → here.down name ∈ opens

theorem Track.of_child_eq {other : Track} {next : String} (hsound : disk.Sound)
    (hhere : disk.Bare here.path here.loc) (hother : disk.Bare other.path other.loc)
    (heq : other.path.child next = here.path.child name) : other = here ∧ next = name := by
  obtain ⟨path, loc⟩ := here
  obtain ⟨path', loc'⟩ := other
  obtain ⟨anchor, parts⟩ := path
  obtain ⟨anchor', parts'⟩ := path'
  simp only [Path.child, Path.mk.injEq] at heq
  obtain ⟨rfl, hparts⟩ := heq
  obtain ⟨rfl, hname⟩ := List.append_inj' hparts rfl
  cases hname
  obtain rfl : loc' = loc := hother.unique hsound hhere
  exact ⟨rfl, rfl⟩

namespace Noted

variable {opens : List Track} {met : Met} {known : Path} {links : Nat}

theorem nil (disk : Disk) : Noted disk [] [] := ⟨by simp, by simp⟩

theorem cons_open (hmet : Noted disk opens met) (hsound : disk.Sound)
    (hhere : disk.Bare here.path here.loc) :
    Noted disk (here.down name :: opens) ((here.path.child name, none) :: met) where
  known hother hlink hlookup := by
    rw [List.lookup_cons] at hlookup
    split at hlookup
    · cases hlookup
    · exact hmet.known hother hlink hlookup
  opened hother hlookup := by
    rw [List.lookup_cons] at hlookup
    split at hlookup
    · next heq =>
      obtain ⟨rfl, rfl⟩ := Track.of_child_eq hsound hhere hother (eq_of_beq heq)
      exact List.mem_cons_self
    · exact List.mem_cons_of_mem _ (hmet.opened hother hlookup)

theorem cons_known (hmet : Noted disk (here.down name :: opens) met) (hsound : disk.Sound)
    (hhere : disk.Bare here.path here.loc)
    (hlink : disk.tree.get? (here.loc ++ [name]) = some (.link target))
    (hknown : disk.Bare known mid) (hstands : Stands disk.tree links here.loc target mid)
    (hfollows : Follows disk.tree (here.jump target) (Path.components target) ⟨known, mid⟩ []) :
    Noted disk opens ((here.path.child name, some known) :: met) where
  known hother hlink' hlookup := by
    rw [List.lookup_cons] at hlookup
    split at hlookup
    · next heq =>
      obtain ⟨rfl, rfl⟩ := Track.of_child_eq hsound hhere hother (eq_of_beq heq)
      cases hlink.symm.trans hlink'
      cases hlookup
      exact ⟨links, mid, hknown, hstands, hfollows⟩
    · exact hmet.known hother hlink' hlookup
  opened := by
    intro other next hother hlookup
    rw [List.lookup_cons] at hlookup
    split at hlookup
    · cases hlookup
    · next hne =>
      rcases List.mem_cons.mp (hmet.opened hother hlookup) with heq | hopen
      · exact absurd (congrArg Track.path heq) (by simpa [Track.down] using hne)
      · exact hopen

end Noted

/-! ## The search -/

/-- Where names lead to an entry, with so many links to follow, they lead a search to a path of its
location, whatever has been noted before. -/
def Unlinks (disk : Disk) (links : Nat) : Prop :=
  ∀ (names : List String) (here : Track) (loc : Loc) (entry : Entry) (met : Met)
    (opens : List Track) (depth : Nat), disk.Bare here.path here.loc →
    LinksFit disk.tree here names →
    route disk.tree .followed links here.loc names = .ok (.present loc entry) →
    Noted disk opens met → Pending disk.tree links (opens.map Track.loc) →
    disk.tree.links ≤ depth + opens.length →
    ∃ path met', unlinkNames (unlinkFrom disk depth) disk met here.path names =
        ⟨path, true, met'⟩ ∧
      disk.Bare path loc ∧ Follows disk.tree here names ⟨path, loc⟩ [] ∧ Noted disk opens met'

/-- A link that has not been noted is opened with no more links to follow than what it stands for
needs. -/
theorem Sound.unlinkFrom_eq (hsound : disk.Sound) {links fewer depth : Nat} {rest : List String}
    {met : Met} {opens : List Track} (hbefore : ∀ least < links, disk.Unlinks least)
    (hhere : disk.Bare here.path here.loc) (hname : Path.Ordinary name)
    (hfit : LinksFit disk.tree here (name :: rest))
    (hlink : disk.tree.get? (here.loc ++ [name]) = some (.link target)) (hfewer : fewer < links)
    (hstands : Stands disk.tree fewer here.loc target mid) (hmet : Noted disk opens met)
    (hopens : Pending disk.tree links (opens.map Track.loc))
    (hdepth : disk.tree.links ≤ depth + opens.length) :
    ∃ path met', unlinkFrom disk depth here.path target ((here.path.child name, none) :: met) =
        ⟨path, true, met'⟩ ∧
      disk.Bare path mid ∧
      Follows disk.tree (here.jump target) (Path.components target) ⟨path, mid⟩ [] ∧
      Noted disk (here.down name :: opens) met' := by
  obtain ⟨least, hleast, ⟨held, hinner⟩, hhard⟩ := hstands.exists_least
  have hopens' := (hopens.fewer (show least ≤ links by omega)).cons
    (hopens.not_mem hfewer hlink hstands) hlink hhard
  -- the link is one more of the links of the tree that are open
  have hroom := hopens'.length_le hsound.rooted
  rw [List.length_cons, List.length_map] at hroom
  obtain ⟨depth, rfl⟩ : ∃ less, depth = less + 1 := ⟨depth - 1, by omega⟩
  have hfit' : LinksFit disk.tree (here.jump target) (Path.components target) :=
    fun there next more _ hfollows =>
      hfit there next (more ++ rest) _ (.jump hname hlink (hfollows.append rest))
  rw [← here.loc_jump] at hinner
  obtain ⟨path, met', henter, hpath, hfollows, hmet'⟩ := hbefore least (by omega) _ _ _ _ _ _ depth
    (hhere.jump target) hfit' hinner (hmet.cons_open hsound hhere) hopens'
    (by rw [List.length_cons]; omega)
  refine ⟨path, met', ?_, hpath, hfollows, hmet'⟩
  rw [unlinkFrom, ← henter, Track.jump]
  split <;> rfl

/-- Names that lead to an entry lead a search to a path of its location.  The induction is on how
many links may be followed. -/
theorem Sound.unlinks (hsound : disk.Sound) (links : Nat) : disk.Unlinks links := by
  induction links using Nat.strong_induction_on with
  | _ links hbefore =>
    intro names
    induction names with
    | nil =>
      intro here loc entry met opens depth hhere hfit hroute hmet hopens hdepth
      obtain rfl := eq_of_route_nil hroute
      exact ⟨here.path, met, rfl, hhere, .refl here [], hmet⟩
    | cons name rest ih =>
      intro here loc entry met opens depth hhere hfit hroute hmet hopens hdepth
      -- from where the first name leads to, the others are followed
      have hstep (there : Track) {met₁ : Met} (hthere : disk.Bare there.path there.loc)
          (hfirst : Follows disk.tree here (name :: rest) there rest)
          (hnext : route disk.tree .followed links there.loc rest = .ok (.present loc entry))
          (hmet₁ : Noted disk opens met₁)
          (hunlink : unlinkNames (unlinkFrom disk depth) disk met here.path (name :: rest) =
            unlinkNames (unlinkFrom disk depth) disk met₁ there.path rest) :
          ∃ path met', unlinkNames (unlinkFrom disk depth) disk met here.path (name :: rest) =
              ⟨path, true, met'⟩ ∧
            disk.Bare path loc ∧ Follows disk.tree here (name :: rest) ⟨path, loc⟩ [] ∧
              Noted disk opens met' := by
        obtain ⟨path, met', hrest, hpath, hfollows, hmet'⟩ :=
          ih there _ _ _ _ _ hthere (hfit.along hfirst) hnext hmet₁ hopens hdepth
        exact ⟨path, met', hunlink.trans hrest, hpath, hfirst.trans hfollows, hmet'⟩
      obtain ⟨hskip, hnext⟩ | ⟨rfl, hnext⟩ |
        ⟨hname, target, fewer, mid, hlink, hfewer, hstands, hnext⟩ |
        ⟨hname, held, hheld, hother, hnext⟩ := route_cons hroute
      · exact hstep here hhere (.skip hskip (.refl _ _)) hnext hmet
          (by rw [unlinkNames, if_pos hskip])
      · exact hstep here.up hhere.lexicalParent (.up (.refl _ _)) hnext hmet rfl
      · have hread := (hhere.stat_child_eq_link_iff hsound hname).mpr
          ⟨hfit here name rest target (.refl _ _) hlink, hlink⟩
        have hkept : ¬(name = "" ∨ name = ".") := not_or.mpr hname.1
        cases hlookup : met.lookup (here.path.child name) with
        | some known =>
          cases known with
          | none =>
            exact absurd (List.mem_map_of_mem (hmet.opened hhere hlookup))
              (hopens.not_mem hfewer hlink hstands)
          | some known =>
            obtain ⟨links', mid', hknown, hstands', hfollows⟩ := hmet.known hhere hlink hlookup
            obtain rfl := hstands'.unique hstands
            refine hstep ⟨known, mid'⟩ hknown
              (.jump hname hlink (hfollows.append rest)) hnext hmet ?_
            simp only [unlinkNames, if_neg hkept, if_neg hname.2, hread, hlookup]
        | none =>
          obtain ⟨path, inner, henter, hpath, hfollows, hinner⟩ := hsound.unlinkFrom_eq hbefore
            hhere hname hfit hlink hfewer hstands hmet hopens hdepth
          refine hstep ⟨path, mid⟩ hpath (.jump hname hlink (hfollows.append rest)) hnext
            (hinner.cons_known hsound hhere hlink hpath hstands hfollows) ?_
          simp only [unlinkNames, if_neg hkept, if_neg hname.2, hread, hlookup, henter, if_true]
      · have hlink (target : String) :
            disk.stat .itself (here.path.child name) ≠ .ok (.link target) := by
          intro hstat
          have hentry := ((hhere.stat_child_eq_link_iff hsound hname).mp hstat).2
          rw [hheld] at hentry
          exact hother target (Option.some.inj hentry)
        exact hstep (here.down name) (hhere.child hname hlink)
          (.down hname hheld hother (.refl _ _)) hnext hmet (unlinkNames_of_ne_link hname hlink)

end Disk

/-! ## Canonical forms -/

namespace Path

variable {path : Path}

/-- The names of a path are read back from its text, after names without meaning. -/
theorem components_toString (hslash : ∀ name ∈ path.parts, '/' ∉ name.toList) :
    ∃ idle, (∀ name ∈ idle, name = "" ∨ name = ".") ∧
      components path.toString = idle ++ path.parts := by
  by_cases hparts : path.parts = []
  · refine ⟨components path.toString, ?_, by rw [hparts, List.append_nil]⟩
    obtain ⟨anchor, parts⟩ := path
    obtain rfl : parts = [] := hparts
    cases anchor <;> decide
  · have hread (idle : List String) (hidle : ∀ name ∈ idle, name = "") :
        components ("/".intercalate (idle ++ path.parts)) = idle ++ path.parts := by
      refine components_intercalate (fun name hname => ?_) (by simp [hparts])
      rcases List.mem_append.mp hname with hname | hname
      · rw [hidle name hname]
        simp
      · exact hslash name hname
    have hslashed (text : List String) (htext : text ≠ []) :
        "/" ++ "/".intercalate text = "/".intercalate ("" :: text) := by
      rw [String.intercalate_cons_of_ne_nil htext]
      rfl
    rw [toString_of_parts_ne_nil hparts]
    cases path.anchor with
    | here => exact ⟨[], by simp, by simpa [Anchor.text] using hread [] (by simp)⟩
    | root =>
      refine ⟨[""], by simp, ?_⟩
      rw [Anchor.text, hslashed _ hparts]
      exact hread [""] (by simp)
    | doubleRoot =>
      refine ⟨["", ""], by simp, ?_⟩
      have htwo : Anchor.text .doubleRoot = "/" ++ "/" := rfl
      rw [htwo, String.append_assoc, hslashed _ hparts, hslashed _ (by simp)]
      exact hread ["", ""] (by simp)

theorem isAbsolute_ofString_toString (hnames : path.anchor = .here → ∀ name ∈ path.parts, name ≠ "")
    (hslash : ∀ name ∈ path.parts, '/' ∉ name.toList) :
    (ofString path.toString).isAbsolute = decide (path.anchor ≠ .here) := by
  by_cases hanchor : path.anchor = .here
  · rw [decide_eq_false (by simpa using hanchor), Bool.eq_false_iff, ne_eq,
      isAbsolute_ofString_iff]
    obtain ⟨anchor, parts⟩ := path
    obtain rfl : anchor = .here := hanchor
    rcases parts with _ | ⟨first, rest⟩
    · decide
    · have hfirst : first.toList ≠ [] := by
        simpa using hnames rfl first List.mem_cons_self
      obtain ⟨c, chars, hchars⟩ := List.exists_cons_of_ne_nil hfirst
      have hc : c ≠ '/' := by
        rintro rfl
        exact hslash first List.mem_cons_self (by simp [hchars])
      have hhead : (Path.toString ⟨.here, first :: rest⟩).toList.head? = some c := by
        rw [toString_of_parts_ne_nil (by simp)]
        cases rest with
        | nil => simp [Anchor.text, hchars]
        | cons next more =>
          rw [String.intercalate_cons_of_ne_nil (by simp)]
          simp [Anchor.text, hchars]
      simpa [hhead] using hc
  · rw [isAbsolute_ofString_of_anchor hanchor, decide_eq_true hanchor]

end Path

namespace Disk

variable {disk : Disk} {path : Path} {start place : Loc} {entry : Entry}

/-- Where the text of a path is followed from; after two slashes a search starts as after one. -/
def Track.origin (path : Path) (start : Loc) : Track :=
  ⟨⟨if path.anchor = .here then .here else .root, []⟩, start⟩

theorem Track.bare_origin (hstart : disk.start? path.anchor = some start) :
    disk.Bare (origin path start).path (origin path start).loc := by
  have hups {anchor : Anchor} (hanchor : disk.start? anchor = some start) :
      disk.Bare ⟨anchor, []⟩ start := by
    have hbare : disk.Bare ⟨anchor, List.replicate 0 ".."⟩ _ := .ups 0 hanchor
    simpa using hbare
  refine hups ?_
  split
  · next hanchor => rwa [hanchor] at hstart
  · next hanchor =>
    cases hpath : path.anchor with
    | here => exact absurd hpath hanchor
    | root => rwa [hpath] at hstart
    | doubleRoot => rwa [hpath] at hstart

/-- All links on the way of the path are met by paths within the limits of the system. -/
def Searchable (disk : Disk) (path : Path) : Prop :=
  ∀ start, disk.start? path.anchor = some start →
    LinksFit disk.tree (.origin path start) path.parts

/-- A path that leads to an entry has the path of its location as canonical form, if all links are
met by paths within the limits of the system. -/
theorem Sound.canonicalPath_of_found (hsound : disk.Sound)
    (hstart : disk.start? path.anchor = some start)
    (hnames : path.anchor = .here → ∀ name ∈ path.parts, name ≠ "")
    (hslash : ∀ name ∈ path.parts, '/' ∉ name.toList) (hsearch : disk.Searchable path)
    (hfind : disk.find .followed path = .ok (.present place entry))
    (hlink : ∀ target, entry ≠ .link target) : disk.canonicalPath path = .ok (locPath place) := by
  have hpath := nameable_of_find hfind
  rw [find_of_start hpath hstart] at hfind
  obtain ⟨found, met, hunlink, hbare, -, -⟩ := hsound.unlinks linkMax _ _ _ _ _ _
    (2 * disk.tree.links) (Track.bare_origin hstart) (hsearch start hstart) hfind (.nil disk)
    ⟨List.nodup_nil, by simp⟩ (by omega)
  have hunlinked : disk.unlinked path = ⟨found, true, met⟩ := by
    obtain ⟨idle, hidle, hcomponents⟩ := Path.components_toString hslash
    rw [unlinked, unlinkFrom, hcomponents, unlinkNames_of_idle hidle,
      Path.isAbsolute_ofString_toString hnames hslash, ← hunlink, Track.origin]
    by_cases hanchor : path.anchor = .here <;> simp [hanchor]
  obtain ⟨first, hfirst⟩ := hbare.starts
  have hend : (disk.unlinked path).path = found := by rw [hunlinked]
  rw [← hend] at hfirst hbare
  exact canonicalPath_eq hpath.1 hfirst (hbare.collapse_eq hsound hfirst)
    (hsound.stat_locPath_ne_loop (route_fits hfind) hlink)

/-- From the root every directory is known by the path of its location. -/
theorem Follows.locPath {tree : Tree} {here there : Track} {names rest : List String}
    (hfollows : Follows tree here names there rest) (hhere : here.path = Disk.locPath here.loc) :
    there.path = Disk.locPath there.loc := by
  induction hfollows with
  | refl => exact hhere
  | skip _ _ ih => exact ih hhere
  | up _ ih => exact ih (congrArg lexicalParent hhere)
  | down _ _ _ _ ih => exact ih (congrArg (Path.child · _) hhere)
  | @jump here _ _ target _ _ _ _ _ ih =>
    refine ih ?_
    rw [Track.jump]
    split
    · rfl
    · exact hhere

/-- From the root every link is met by the path of its location. -/
theorem searchable_of_root (hanchor : path.anchor = .root)
    (hfit : ∀ loc target, disk.tree.get? loc = some (.link target) → (locPath loc).Fitting) :
    disk.Searchable path := by
  intro start hstart there name rest target hfollows hlink
  rw [hanchor] at hstart
  cases hstart
  rw [hfollows.locPath (by simp [Track.origin, hanchor, locPath]), locPath_child]
  exact hfit _ _ hlink

/-- A file has a canonical form: the path of its location. -/
theorem Sound.canonicalPath_of_isFile (hsound : disk.Sound) (hfollow : disk.tree.Followable)
    {loc : Loc} (hslash : ∀ name ∈ loc, '/' ∉ name.toList)
    (hfile : disk.isFile (locPath loc) = .ok true) :
    ∃ place, disk.canonicalPath (locPath loc) = .ok (locPath place) := by
  obtain ⟨place, bytes, access, hfind⟩ := isFile_eq_true_iff.mp hfile
  have hsearch : disk.Searchable (locPath loc) :=
    searchable_of_root rfl fun _ _ hlink => (hfollow _ _ hlink).1
  have hstart : disk.start? (locPath loc).anchor = some [] := rfl
  exact ⟨place, hsound.canonicalPath_of_found hstart (by simp [locPath]) hslash hsearch hfind
    (by simp)⟩

end Disk

end Unscramble
