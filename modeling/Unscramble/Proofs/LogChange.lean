import Unscramble.Proofs.Disk.Shape
import Unscramble.Proofs.Journal

/-!
# A change of log that fails

The open log is closed before the next one is opened.  So where that fails, no log is open, and
lines go to no file until a log is opened again; all else is as if the attempt had not been made.
-/

namespace Unscramble

open Disk

variable {σ : Type}

namespace Journal

variable {old : Option Loc} {access : Access} {held missed later : Bytes} {w w' : World σ}
  {now : Moment} {path : Option Path}

/-- One event after the other, whatever becomes of each. -/
def tried (events : List (Moment × Event)) (w : World σ) : World σ :=
  events.foldl (fun w x => (x.2.perform x.1).final w) w

def Event.isLine : Event → Bool
  | .install _ => false
  | .line _ _ _ => true

/-- The lines of the log that are reported before the log is changed again. -/
def beforeChange : List (Moment × Event) → List String
  | (now, .line _ level message) :: rest => logLine now level message :: beforeChange rest
  | _ => []

/-! ## One event -/

/-- Where a log is opened by its path. -/
def logPath (now : Moment) (path : Option Path) : Path :=
  path.getD (.ofString ("decryptex_debug_" ++ now.compact ++ ".log"))

/-- The disk after an attempt to open a log. -/
def reopened (disk : Disk) (target : Option Path) : Disk :=
  match target with
  | none => { disk with log := none }
  | some target =>
    match ({ disk with log := none } : Disk).create target with
    | .ok (loc, disk) => { disk with log := some loc }
    | .error _ => { disk with log := none }

theorem openLog_eq (path : Option Path) (w : World σ) : openLog path w =
    match w.disk.absolute (logPath w.now path) with
    | none => .error (.refused .notFound none none) { w with disk := { w.disk with log := none } }
    | some target =>
      match ({ w.disk with log := none } : Disk).create target with
      | .ok (loc, disk) =>
        .ok (logPath w.now path) { w with disk := { disk with log := some loc } }
      | .error why => .error (.refused why (some target.toString) none)
          { w with disk := { w.disk with log := none } } := by
  unfold openLog
  rw [Act.bind_of_ok (rfl : (get : Act σ (World σ)) w = .ok w w)]
  dsimp only
  rw [Act.bind_of_ok (rfl : (modify fun w => { w with disk := { w.disk with log := none } } :
    Act σ Unit) w = .ok () { w with disk := { w.disk with log := none } })]
  rw [Act.bind_of_ok (rfl : (get : Act σ (World σ)) _ = .ok _ _)]
  have habsolute : ({ w.disk with log := none } : Disk).absolute
      (path.getD (.ofString ("decryptex_debug_" ++ w.now.compact ++ ".log"))) =
        w.disk.absolute (logPath w.now path) := rfl
  dsimp only
  rw [habsolute]
  cases w.disk.absolute (logPath w.now path) with
  | none => rfl
  | some target =>
    dsimp only
    rw [Act.bind_of_ok (rfl : (get : Act σ (World σ)) _ = .ok _ _)]
    dsimp only
    cases ({ w.disk with log := none } : Disk).create target <;> rfl

/-- A log is opened at its place, or the log that was open is closed. -/
theorem perform_install_cases (now : Moment) (path : Option Path) (w : World σ) :
    (∃ loc disk target, w.disk.absolute (logPath now path) = some target ∧
      ({ w.disk with log := none } : Disk).create target = .ok (loc, disk) ∧
      (Event.install path).perform now w =
        .ok () { w with now, disk := { disk with log := some loc } }) ∨
    reopened w.disk (w.disk.absolute (logPath now path)) = { w.disk with log := none } ∧
      ∃ fault, (Event.install path).perform now w =
        .error fault { w with now, disk := { w.disk with log := none } } := by
  have hopen := openLog_eq path { w with now }
  cases htarget : w.disk.absolute (logPath now path) with
  | none =>
    rw [htarget] at hopen
    exact .inr ⟨rfl, _, Act.discard_of_error hopen⟩
  | some target =>
    rw [htarget] at hopen
    dsimp only at hopen
    cases hcreate : ({ w.disk with log := none } : Disk).create target with
    | error why =>
      rw [hcreate] at hopen
      exact .inr ⟨by rw [reopened, hcreate], _, Act.discard_of_error hopen⟩
    | ok made =>
      rw [hcreate] at hopen
      exact .inl ⟨made.1, made.2, target, rfl, hcreate, Act.discard_of_ok hopen⟩

theorem final_install (now : Moment) (path : Option Path) (w : World σ) :
    ((Event.install path).perform now).final w =
      { w with now, disk := reopened w.disk (w.disk.absolute (logPath now path)) } := by
  rcases perform_install_cases now path w with
    ⟨loc, disk, target, htarget, hcreate, hrun⟩ | ⟨hclosed, fault, hrun⟩
  · rw [Act.final_of_ok hrun, htarget, reopened, hcreate]
  · rw [Act.final_of_error hrun, hclosed]

theorem final_line (now : Moment) (reporter : Reporter) (level : Level) (message : String)
    (w : World σ) : ((Event.line reporter level message).perform now).final w =
      ({ w with now } : World σ).said reporter level message :=
  Act.final_of_ok (reporter.say_eq level message { w with now })

/-- On disks of one shape, where files have the same modes, a log is opened at the same place, or at
none. -/
theorem create_alike {disk disk' : Disk} (hsame : disk.SameShape disk')
    (haccess : ∀ loc bytes access, disk.tree.get? loc = some (.file bytes access) →
      ∃ bytes', disk'.tree.get? loc = some (.file bytes' access)) (target : Path) :
    (∃ why, disk.create target = .error why ∧ disk'.create target = .error why) ∨
    (∃ loc, disk.create target = .ok (loc, disk) ∧ disk'.create target = .ok (loc, disk') ∧
      ∃ bytes access, disk.tree.get? loc = some (.file bytes access)) ∨
    ∃ loc, disk.create target = .ok (loc, disk.insert loc (.file [] {})) ∧
      disk'.create target = .ok (loc, disk'.insert loc (.file [] {})) ∧
      disk.tree.get? loc = none ∧ loc ≠ [] := by
  have hfinds : (disk'.find .making target).map Found.bare =
      (disk.find .making target).map Found.bare := hsame.find
  unfold create
  rcases Except.cases_of_map_eq hfinds with
    ⟨why, hfind', hfind⟩ | ⟨found', found, hfind', hfind, hbare⟩
  · rw [hfind, hfind']
    exact .inl ⟨why, rfl, rfl⟩
  · rw [hfind, hfind']
    have hfits := find_fits hfind
    cases found with
    | removed =>
      cases found' with
      | removed => exact .inl ⟨.isDirectory, rfl, rfl⟩
      | present loc' entry' => cases hbare
      | vacant loc' => cases hbare
    | vacant loc =>
      cases found' with
      | removed => cases hbare
      | present loc' entry' => cases hbare
      | vacant loc' =>
        cases hbare
        obtain ⟨hfree, dir, name, rfl, -⟩ := hfits
        exact .inr (.inr ⟨_, rfl, rfl, hfree, by simp⟩)
    | present loc entry =>
      cases found' with
      | removed => cases hbare
      | vacant loc' => cases hbare
      | present loc' entry' =>
        obtain ⟨rfl, hentry⟩ := Found.present.inj hbare
        cases entry with
        | directory =>
          rw [Entry.bare_eq_directory.mp hentry]
          exact .inl ⟨.isDirectory, rfl, rfl⟩
        | link text =>
          rw [Entry.bare_eq_link.mp hentry]
          exact .inl ⟨.isDirectory, rfl, rfl⟩
        | file bytes access =>
          obtain ⟨bytes', hheld⟩ := haccess _ _ _ hfits
          obtain rfl : entry' = .file bytes' access :=
            Option.some.inj (Eq.trans (find_fits hfind').symm hheld)
          cases hwrite : access.write with
          | true =>
            refine .inr (.inl ⟨_, ?_, ?_, bytes, access, hfits⟩) <;>
              simp [bind, Except.bind, hwrite]
          | false => refine .inl ⟨.denied, ?_, ?_⟩ <;> simp [bind, Except.bind, hwrite]

/-! ## Two disks -/

theorem get?_logged_eq (disk : Disk) (line : String) (q : Loc) : (disk.logged line).tree.get? q =
    if disk.log = some q then (disk.tree.get? q).map (Entry.altered (· ++ Text.encode line))
    else disk.tree.get? q := by
  split
  · next hlog => rw [logged, hlog]; simp [get?_alter]
  · next hlog => exact get?_logged line hlog

/-- The second disk is as the first one, but the file at `old` has got `missed` after `held` in the
first one only. -/
structure Lags (old : Option Loc) (access : Access) (held missed later : Bytes)
    (disk disk' : Disk) : Prop where
  sound : disk.Sound
  sound' : disk'.Sound
  cwd : disk'.cwd = disk.cwd
  elsewhere : ∀ q, old ≠ some q → disk'.tree.get? q = disk.tree.get? q
  here : ∀ q, old = some q →
    disk.tree.get? q = some (.file (held ++ missed ++ later) access) ∧
      disk'.tree.get? q = some (.file (held ++ later) access)

namespace Lags

variable {disk disk' : Disk} {line : String} (hlags : Lags old access held missed later disk disk')

include hlags

theorem sameShape : disk.SameShape disk' := by
  refine ⟨fun q => ?_, hlags.cwd⟩
  by_cases hq : old = some q
  · obtain ⟨hfirst, hsecond⟩ := hlags.here q hq
    simp [Tree.shape, hfirst, hsecond, Entry.bare]
  · rw [Tree.shape, Tree.shape, hlags.elsewhere q hq]

theorem sameAccess (loc : Loc) (bytes : Bytes) (mode : Access)
    (hheld : disk.tree.get? loc = some (.file bytes mode)) :
    ∃ bytes', disk'.tree.get? loc = some (.file bytes' mode) := by
  by_cases hloc : old = some loc
  · obtain ⟨hfirst, hsecond⟩ := hlags.here loc hloc
    cases hheld.symm.trans hfirst
    exact ⟨_, hsecond⟩
  · exact ⟨bytes, (hlags.elsewhere loc hloc).trans hheld⟩

/-- A line goes to the same file on both disks. -/
theorem logged (hlog : disk'.log = disk.log) (line : String) :
    Lags old access held missed (later ++ if disk.log = old then Text.encode line else [])
      (disk.logged line) (disk'.logged line) where
  sound := hlags.sound.logged line
  sound' := hlags.sound'.logged line
  cwd := by rw [(disk'.logged_places line).1, (disk.logged_places line).1, hlags.cwd]
  elsewhere q hq := by rw [get?_logged_eq, get?_logged_eq, hlog, hlags.elsewhere q hq]
  here q hq := by
    obtain ⟨hfirst, hsecond⟩ := hlags.here q hq
    constructor <;> rw [get?_logged_eq]
    · by_cases hopen : disk.log = some q <;> simp [hopen, hq, hfirst, Entry.altered]
    · by_cases hopen : disk.log = some q <;> simp [hlog, hopen, hq, hsecond, Entry.altered]

/-- A line goes to the log of the first disk only. -/
theorem logged_first (hlater : later = []) (hlog : disk.log = old) (hlog' : disk'.log = none)
    (line : String) : Lags old access held (missed ++ Text.encode line) []
      (disk.logged line) (disk'.logged line) where
  sound := hlags.sound.logged line
  sound' := hlags.sound'.logged line
  cwd := by rw [(disk'.logged_places line).1, (disk.logged_places line).1, hlags.cwd]
  elsewhere q hq := by
    rw [get?_logged_eq, get?_logged_eq, hlog, hlog', if_neg (by simp), if_neg hq,
      hlags.elsewhere q hq]
  here q hq := by
    subst hlater
    obtain ⟨hfirst, hsecond⟩ := hlags.here q hq
    constructor <;> rw [get?_logged_eq]
    · simp [hlog, hq, hfirst, Entry.altered]
    · simp [hlog', hsecond]

/-- A log is opened at the same place on both disks, or none is open any more. -/
theorem reopened (target : Option Path) :
    Lags old access held missed later (reopened disk target) (reopened disk' target) ∧
      (Journal.reopened disk' target).log = (Journal.reopened disk target).log := by
  have hclosed : Lags old access held missed later { disk with log := none }
      { disk' with log := none } :=
    ⟨hlags.sound.withLog (by simp), hlags.sound'.withLog (by simp), hlags.cwd, hlags.elsewhere,
      hlags.here⟩
  cases target with
  | none => exact ⟨hclosed, rfl⟩
  | some target =>
    have hopens {disk disk₁ : Disk} {loc : Loc} (hsound : disk.Sound)
        (hcreate : disk.create target = .ok (loc, disk₁)) :
        ({ disk₁ with log := some loc } : Disk).Sound := by
      obtain ⟨hsound₁, -, hfile⟩ := hsound.create hcreate
      exact hsound₁.withLog fun q hq => Option.some.inj hq ▸ hfile
    rcases create_alike hclosed.sameShape hclosed.sameAccess target with
      ⟨why, hfault, hfault'⟩ | ⟨loc, hcreate, hcreate', -⟩ | ⟨loc, hcreate, hcreate', hfree, hloc⟩
    · simp only [Journal.reopened, hfault, hfault']
      exact ⟨hclosed, trivial⟩
    · simp only [Journal.reopened, hcreate, hcreate']
      have hsound := hopens hclosed.sound hcreate
      have hsound' := hopens hclosed.sound' hcreate'
      exact ⟨⟨hsound, hsound', hlags.cwd, hlags.elsewhere, hlags.here⟩, trivial⟩
    · simp only [Journal.reopened, hcreate, hcreate']
      have hother : old ≠ some loc := by
        intro hold
        obtain ⟨hheld, -⟩ := hlags.here loc hold
        cases hfree.symm.trans hheld
      refine ⟨⟨hopens hclosed.sound hcreate, hopens hclosed.sound' hcreate', hlags.cwd,
        fun q hq => ?_, fun q hq => ?_⟩, trivial⟩
      · have hsame := hlags.elsewhere q hq
        exact (get?_insert _ hloc _ q).trans
          ((congrArg (if q = loc then _ else ·) hsame).trans (get?_insert _ hloc _ q).symm)
      · have hne : q ≠ loc := fun heq => hother (heq ▸ hq)
        obtain ⟨hfirst, hsecond⟩ := hlags.here q hq
        exact ⟨((get?_insert _ hloc _ q).trans (if_neg hne)).trans hfirst,
          ((get?_insert _ hloc _ q).trans (if_neg hne)).trans hsecond⟩

end Lags

/-! ## Two runs -/

theorem tried_install (now : Moment) (path : Option Path) (rest : List (Moment × Event))
    (w : World σ) : tried ((now, .install path) :: rest) w =
      tried rest { w with now, disk := reopened w.disk (w.disk.absolute (logPath now path)) } :=
  congrArg (tried rest) (final_install now path w)

theorem tried_line (now : Moment) (reporter : Reporter) (level : Level) (message : String)
    (rest : List (Moment × Event)) (w : World σ) :
    tried ((now, .line reporter level message) :: rest) w =
      tried rest (({ w with now } : World σ).said reporter level message) :=
  congrArg (tried rest) (final_line now reporter level message w)

theorem tried_append (events rest : List (Moment × Event)) (w : World σ) :
    tried (events ++ rest) w = tried rest (tried events w) := List.foldl_append

/-- What two worlds tell is the same. -/
structure Told (w w' : World σ) : Prop where
  lines : w'.lines = w.lines
  screen : w'.screen = w.screen

theorem Told.said (htold : Told w w') (now : Moment) (reporter : Reporter) (level : Level)
    (message : String) : Told (({ w with now } : World σ).said reporter level message)
      (({ w' with now } : World σ).said reporter level message) :=
  ⟨congrArg (· ++ [(level, message)]) htold.lines,
    congrArg (· ++ reporter.shown now level message) htold.screen⟩

/-- An attempt to open a log tells nothing. -/
theorem Told.reopened (htold : Told w w') (now : Moment) (target : Option Path) :
    Told ({ w with now, disk := Journal.reopened w.disk target } : World σ)
      { w' with now, disk := Journal.reopened w'.disk target } :=
  ⟨htold.lines, htold.screen⟩

/-- Where one log is open in both worlds, or none, events do the same in both. -/
theorem tried_alike (events : List (Moment × Event)) (htold : Told w w')
    (hlags : Lags old access held missed later w.disk w'.disk)
    (hlog : w'.disk.log = w.disk.log) : Told (tried events w) (tried events w') ∧
      (∃ later', Lags old access held missed later' (tried events w).disk (tried events w').disk) ∧
      (tried events w').disk.log = (tried events w).disk.log := by
  induction events generalizing w w' later with
  | nil => exact ⟨htold, ⟨later, hlags⟩, hlog⟩
  | cons x rest ih =>
    obtain ⟨now, path | ⟨reporter, level, message⟩⟩ := x
    · rw [tried_install, tried_install, absolute_congr hlags.cwd]
      obtain ⟨hlags', hlog'⟩ := hlags.reopened (w.disk.absolute (logPath now path))
      exact ih (htold.reopened now _) hlags' hlog'
    · rw [tried_line, tried_line]
      exact ih (htold.said now reporter level message) (hlags.logged hlog _)
        ((((w'.disk.logged_places _).2.2).trans hlog).trans (w.disk.logged_places _).2.2.symm)

theorem sound_tried (events : List (Moment × Event)) (hsound : w.disk.Sound) :
    (tried events w).disk.Sound := by
  have hself : Lags none {} [] [] [] w.disk w.disk := ⟨hsound, hsound, rfl, fun _ _ => rfl, nofun⟩
  obtain ⟨-, ⟨later, hlags⟩, -⟩ := tried_alike events ⟨rfl, rfl⟩ hself rfl
  exact hlags.sound

/-- Where the second world has no log open, it misses the lines until the log is changed. -/
theorem tried_unheard (events : List (Moment × Event)) (htold : Told w w')
    (hlags : Lags old access held missed [] w.disk w'.disk) (hlog : w.disk.log = old)
    (hlog' : w'.disk.log = none) :
    Told (tried events w) (tried events w') ∧
      (∃ later, Lags old access held (missed ++ (beforeChange events).flatMap Text.encode)
        later (tried events w).disk (tried events w').disk) ∧
      (tried events w').disk.log =
        if events.all (·.2.isLine) then none else (tried events w).disk.log := by
  induction events generalizing w w' missed with
  | nil =>
    have hnone : beforeChange [] = [] := rfl
    exact ⟨htold, ⟨[], by rwa [hnone, List.flatMap_nil, List.append_nil]⟩, hlog'⟩
  | cons x rest ih =>
    obtain ⟨now, path | ⟨reporter, level, message⟩⟩ := x
    · rw [tried_install, tried_install, absolute_congr hlags.cwd]
      obtain ⟨hlags', hsame⟩ := hlags.reopened (w.disk.absolute (logPath now path))
      obtain ⟨htold', hlags'', hlog''⟩ := tried_alike rest (htold.reopened now _) hlags' hsame
      have hnone : beforeChange ((now, .install path) :: rest) = [] := rfl
      rw [hnone, List.flatMap_nil, List.append_nil, List.all_cons]
      exact ⟨htold', hlags'', hlog''⟩
    · rw [tried_line, tried_line]
      obtain ⟨htold', ⟨later, hlags'⟩, hsame⟩ := ih (htold.said now reporter level message)
        (hlags.logged_first rfl hlog hlog' _) ((w.disk.logged_places _).2.2.trans hlog)
        ((w'.disk.logged_places _).2.2.trans hlog')
      refine ⟨htold', ⟨later, ?_⟩, ?_⟩
      · have hmore : beforeChange ((now, .line reporter level message) :: rest) =
            logLine now level message :: beforeChange rest := rfl
        rw [hmore, List.flatMap_cons, ← List.append_assoc]
        exact hlags'
      · rw [List.all_cons]
        exact hsame

/-- An attempt to open a log that fails leaves no log open, and changes nothing else.  The lines that
follow are told as they would have been without it; until the next attempt they are missing in the
log that had been open, and everything else, the logs that are opened later among it, is as it
would have been. -/
theorem change_failed {fault : Fault} (hsound : w.disk.Sound)
    (before after : List (Moment × Event))
    (hfails : (Event.install path).perform now (tried before w) = .error fault w') :
    w' = { tried before w with now, disk := { (tried before w).disk with log := none } } ∧
    let broken := tried (before ++ (now, .install path) :: after) w
    let whole := tried (before ++ after) w
    broken.lines = whole.lines ∧ broken.screen = whole.screen ∧
      broken.disk.log = (if after.all (·.2.isLine) then none else whole.disk.log) ∧
      (∀ q, (tried before w).disk.log ≠ some q →
        broken.disk.tree.get? q = whole.disk.tree.get? q) ∧
      ∀ q, (tried before w).disk.log = some q → ∃ held later access,
        (tried before w).disk.tree.get? q = some (.file held access) ∧
        whole.disk.tree.get? q = some (.file
          (held ++ (beforeChange after).flatMap Text.encode ++ later) access) ∧
        broken.disk.tree.get? q = some (.file (held ++ later) access) := by
  have hstart := sound_tried before hsound
  rw [tried_append, tried_append]
  generalize tried before w = start at *
  have hclosed : w' = { start with now, disk := { start.disk with log := none } } := by
    rcases perform_install_cases now path start with
      ⟨loc, disk, target, -, -, hrun⟩ | ⟨-, why, hrun⟩
    · cases hrun.symm.trans hfails
    · cases hrun.symm.trans hfails
      rfl
  refine ⟨hclosed, ?_⟩
  have hrest : tried ((now, .install path) :: after) start = tried after w' :=
    congrArg (tried after) (Act.final_of_error hfails)
  rw [hrest]
  obtain ⟨held, access, hlog⟩ : ∃ held access, ∀ q, start.disk.log = some q →
      start.disk.tree.get? q = some (.file held access) := by
    cases hopen : start.disk.log with
    | none => exact ⟨[], {}, nofun⟩
    | some loc =>
      obtain ⟨held, access, hfile⟩ := hstart.logging hopen
      exact ⟨held, access, fun q hq => Option.some.inj hq ▸ hfile⟩
  subst hclosed
  have hlags : Lags start.disk.log access held [] [] start.disk { start.disk with log := none } :=
    ⟨hstart, hstart.withLog (by simp), rfl, fun _ _ => rfl, fun q hq => by simpa using hlog q hq⟩
  have htold : Told start { start with now, disk := { start.disk with log := none } } := ⟨rfl, rfl⟩
  obtain ⟨htold', ⟨later, hlags'⟩, hsame⟩ := tried_unheard after htold hlags rfl rfl
  refine ⟨htold'.lines, htold'.screen, hsame, hlags'.elsewhere, fun q hq => ?_⟩
  exact ⟨held, later, access, hlog q hq, hlags'.here q hq⟩

section Samples

/-- Between a failed attempt and the next log lines are lost; the next log is complete. -/
theorem next_log_complete :
    let w := Sample.world (Sample.disk [(["d"], .directory)])
    let now := w.now
    let reporter := Sample.tidying.reporter
    let before : List (Moment × Event) :=
      [(now, .install (some ⟨.here, ["a.log"]⟩)), (now, .line reporter .info "1")]
    let after : List (Moment × Event) :=
      [(now, .line reporter .error "2"), (now, .install (some ⟨.here, ["b.log"]⟩)),
        (now, .line reporter .info "3")]
    w.disk.Sound ∧ ∃ fault w',
      (Event.install (some ⟨.here, ["d"]⟩)).perform now (tried before w) = .error fault w' ∧
      w'.disk.log = none ∧
      let broken := tried (before ++ (now, .install (some ⟨.here, ["d"]⟩)) :: after) w
      broken.lines = [(.info, "1"), (.error, "2"), (.info, "3")] ∧
      broken.disk.log = some ["b.log"] ∧
      broken.disk.tree.get? ["b.log"] =
        some (.file (Text.encode "2024-01-02 03:04:05 | INFO     | 3\n") {}) ∧
      broken.disk.tree.get? ["a.log"] =
        some (.file (Text.encode "2024-01-02 03:04:05 | INFO     | 1\n") {}) := by
  intro w now reporter before after
  have hsound : w.disk.Sound := by decide
  obtain ⟨fault, w', hfails⟩ : ∃ fault w',
      (Event.install (some ⟨.here, ["d"]⟩)).perform now (tried before w) = .error fault w' := by
    have hrefused : (((Event.install (some ⟨.here, ["d"]⟩)).perform now).result
        (tried before w)).isOk = false := by decide +kernel
    cases hrun : (Event.install (some ⟨.here, ["d"]⟩)).perform now (tried before w) with
    | error fault w' => exact ⟨fault, w', rfl⟩
    | ok _ w' =>
      rw [Act.result_of_ok hrun] at hrefused
      cases hrefused
  obtain ⟨hclosed, hlines, -, hlog, hothers, -⟩ := change_failed hsound before after hfails
  refine ⟨hsound, fault, w', hfails, by rw [hclosed], ?_, ?_, ?_, by decide +kernel⟩
  · rw [hlines]
    decide +kernel
  · rw [hlog]
    decide +kernel
  · rw [hothers ["b.log"] (by decide +kernel)]
    decide +kernel

/-- The log that was open is not continued after a failed attempt to open another one. -/
theorem log_not_continued :
    let w := Sample.world (Sample.disk [(["d"], .directory)])
    let first := (w.now, Event.install (some ⟨.here, ["a.log"]⟩))
    let line := (w.now, Event.line Sample.tidying.reporter .info "x")
    let change := Event.install (some ⟨.here, ["d"]⟩)
    ((change.perform w.now).result (tried [first] w)).isOk = false ∧
      (tried [first, line] w).disk.tree.get? ["a.log"] =
        some (.file (Text.encode "2024-01-02 03:04:05 | INFO     | x\n") {}) ∧
      (tried [first, (w.now, change), line] w).disk.tree.get? ["a.log"] = some (.file [] {}) := by
  decide +kernel

end Samples

end Journal

end Unscramble
