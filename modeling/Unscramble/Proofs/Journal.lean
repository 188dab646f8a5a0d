import Mathlib
import Unscramble.Proofs.Action
import Unscramble.Proofs.Disk.Alike
import Unscramble.Proofs.Disk.Check
import Unscramble.Proofs.Exchange
import Unscramble.Proofs.Sample

/-!
# What the debug log records

Logs are opened and lines are reported in any order.  A line goes to the file of the
log that was opened last, and to no other, so the file of each log grows by the lines
reported while it was the last.  Where a path leads does not change on the way, as
opening a log makes files only.
-/

namespace Unscramble

variable {σ : Type}

open Disk

namespace Journal

/-- What is done about the debug log. -/
inductive Event
  | install (path : Option Path)
  | line (reporter : Reporter) (level : Level) (message : String)

def Event.perform (now : Moment) (event : Event) : Act σ Unit := fun w =>
  match event with
  | .install path => (discard (openLog path) : Act σ Unit) { w with now }
  | .line reporter level message => reporter.say level message { w with now }

/-- One event after the other, each at its moment. -/
def perform (events : List (Moment × Event)) : Act σ Unit :=
  events.forM fun x => x.2.perform x.1

/-- Where the file of a log lies, or would lie, that is opened at a path. -/
def place (disk : Disk) (now : Moment) (path : Option Path) : Option Loc :=
  (disk.absolute (path.getD (.ofString ("decryptex_debug_" ++ now.compact ++ ".log")))).bind
    fun target =>
      match disk.find .making target with
      | .ok (.present loc _) | .ok (.vacant loc) => some loc
      | _ => none

/-- The log that is open in the end, if it is the one at `current` in the beginning. -/
def latest (disk : Disk) : (current : Option Loc) → List (Moment × Event) → Option Loc
  | current, [] => current
  | _, (now, .install path) :: rest => latest disk (place disk now path) rest
  | current, (_, .line _ _ _) :: rest => latest disk current rest

/-- The places of the logs that are open at some time. -/
def opened (disk : Disk) : (current : Option Loc) → List (Moment × Event) → List Loc
  | current, [] => current.toList
  | current, (now, .install path) :: rest =>
    current.toList ++ opened disk (place disk now path) rest
  | current, (_, .line _ _ _) :: rest => opened disk current rest

/-- The lines reported while the log at `loc` is the last that has been opened. -/
def written (disk : Disk) (loc : Loc) : (current : Option Loc) → List (Moment × Event) → List String
  | _, [] => []
  | _, (now, .install path) :: rest => written disk loc (place disk now path) rest
  | current, (now, .line _ level message) :: rest =>
    if current = some loc then logLine now level message :: written disk loc current rest
    else written disk loc current rest

/-- A file with more at its end; it is made if nothing is there. -/
def extended (bytes : Bytes) : Option Entry → Entry
  | some (.file old access) => .file (old ++ bytes) access
  | _ => .file bytes {}

/-- What the events leave on the disk. -/
structure Recorded (events : List (Moment × Event)) (disk disk' : Disk) : Prop where
  sound : disk'.Sound
  log : disk'.log = latest disk disk.log events
  grown : ∀ loc ∈ opened disk disk.log events, disk'.tree.get? loc =
    some (extended ((written disk loc disk.log events).flatMap Text.encode) (disk.tree.get? loc))
  kept : ∀ loc ∉ opened disk disk.log events, disk'.tree.get? loc = disk.tree.get? loc
  places : disk'.cwd = disk.cwd ∧ disk'.waiting = disk.waiting

section Place

variable {disk disk' : Disk}

theorem absolute_congr (hcwd : disk'.cwd = disk.cwd) (path : Path) :
    disk'.absolute path = disk.absolute path := by
  simp only [absolute, workingLoc?, hcwd]

/-- Making and altering files does not change where a log lies. -/
theorem place_alike (hsound : disk.Sound) (hsound' : disk'.Sound)
    (halike : disk.tree.Alike disk'.tree) (hcwd : disk'.cwd = disk.cwd) :
    place disk' = place disk := by
  have hloc {disk disk' : Disk} (hsound : disk.Sound) (halike : disk.tree.Alike disk'.tree)
      (hcwd : disk'.cwd = disk.cwd) {now : Moment} {path : Option Path} {loc : Loc}
      (hplace : place disk now path = some loc) : place disk' now path = some loc := by
    unfold place at hplace ⊢
    rw [absolute_congr hcwd]
    obtain ⟨target, htarget, hfound⟩ := Option.bind_eq_some_iff.mp hplace
    rw [htarget, Option.bind_some]
    rcases hfind : disk.find .making target with why | ⟨place, entry⟩ | place | _
    all_goals simp only [hfind] at hfound
    case ok.removed | error => cases hfound
    all_goals
      rw [hsound.find_alike halike hcwd hfind, Found.on]
      cases disk'.tree.get? place <;> exact hfound
  funext now path
  ext loc
  exact ⟨hloc hsound' halike.symm hcwd.symm, hloc hsound halike hcwd⟩

theorem latest_congr (hplace : place disk' = place disk) (current : Option Loc)
    (events : List (Moment × Event)) : latest disk' current events = latest disk current events := by
  fun_induction latest disk current events <;> simp_all [latest]

theorem opened_congr (hplace : place disk' = place disk) (current : Option Loc)
    (events : List (Moment × Event)) : opened disk' current events = opened disk current events := by
  fun_induction opened disk current events <;> simp_all [opened]

theorem written_congr (hplace : place disk' = place disk) (loc : Loc) (current : Option Loc)
    (events : List (Moment × Event)) :
    written disk' loc current events = written disk loc current events := by
  fun_induction written disk loc current events <;> simp_all [written]

theorem mem_opened_of_current {loc : Loc} (events : List (Moment × Event)) :
    loc ∈ opened disk (some loc) events := by
  induction events with
  | nil => simp [opened]
  | cons x rest ih =>
      obtain ⟨now, _ | _⟩ := x
      · simp [opened]
      · exact ih

/-- Nothing is written to a log that is never open. -/
theorem written_of_not_opened {loc : Loc} {current : Option Loc} {events : List (Moment × Event)}
    (hloc : loc ∉ opened disk current events) : written disk loc current events = [] := by
  induction events generalizing current with
  | nil => rfl
  | cons x rest ih =>
      obtain ⟨now, path | ⟨reporter, level, message⟩⟩ := x
      · rw [opened, List.mem_append, not_or] at hloc
        exact ih hloc.2
      · rw [written, if_neg, ih hloc]
        rintro rfl
        exact hloc (mem_opened_of_current rest)

end Place

/-! ## One event -/

section Step

variable {w w' : World σ} {now : Moment}

theorem extended_extended (bytes bytes' : Bytes) (held : Option Entry) :
    extended bytes' (some (extended bytes held)) = extended (bytes ++ bytes') held := by
  rcases held with _ | _ | _ | _ <;> simp [extended]

theorem openLog_of_ok {path : Option Path} {shown : Path} (hrun : openLog path w = .ok shown w') :
    ∃ target loc disk', w.disk.absolute
        (path.getD (.ofString ("decryptex_debug_" ++ w.now.compact ++ ".log"))) = some target ∧
      ({ w.disk with log := none } : Disk).create target = .ok (loc, disk') ∧
      w' = { w with disk := { disk' with log := some loc } } := by
  unfold openLog at hrun
  obtain ⟨_, _, hget, hrun⟩ := Act.ok_of_bind hrun
  cases hget
  extract_lets path' at hrun
  obtain ⟨_, _, hclose, hrun⟩ := Act.ok_of_bind hrun
  cases hclose
  obtain ⟨_, _, hget, hrun⟩ := Act.ok_of_bind hrun
  cases hget
  cases habsolute : ({ w.disk with log := none } : Disk).absolute path' with
  | none =>
      rw [habsolute] at hrun
      cases hrun
  | some target =>
      rw [habsolute] at hrun
      obtain ⟨_, _, hget, hrun⟩ := Act.ok_of_bind hrun
      cases hget
      cases hcreate : ({ w.disk with log := none } : Disk).create target with
      | error why =>
          rw [hcreate] at hrun
          cases hrun
      | ok made =>
          rw [hcreate] at hrun
          obtain ⟨_, _, hset, hrun⟩ := Act.ok_of_bind hrun
          cases hset
          exact ⟨target, made.1, made.2, habsolute, hcreate, (EStateM.Result.ok.inj hrun).2.symm⟩

/-- What one event leaves on the disk, where it changes at most one file. -/
structure Stepped (loc : Loc) (bytes : Bytes) (disk disk' : Disk) : Prop where
  sound : disk'.Sound
  alike : disk.tree.Alike disk'.tree
  places : disk'.cwd = disk.cwd ∧ disk'.waiting = disk.waiting
  here : disk'.tree.get? loc = some (extended bytes (disk.tree.get? loc))
  elsewhere : ∀ q, q ≠ loc → disk'.tree.get? q = disk.tree.get? q

/-- A log is opened at its place; a file that is there already is kept. -/
theorem stepped_create {disk disk' : Disk} {target : Path} {loc : Loc} (hsound : disk.Sound)
    (hcreate : ({ disk with log := none } : Disk).create target = .ok (loc, disk')) :
    Stepped loc [] disk { disk' with log := some loc } := by
  have hclosed : ({ disk with log := none } : Disk).Sound := hsound.withLog (by simp)
  obtain ⟨hsound', halike, hfile⟩ := hclosed.create hcreate
  obtain ⟨hcwd, hwaiting, -⟩ := create_places hcreate
  refine ⟨hsound'.withLog fun q hq => ?_, halike, ⟨hcwd, hwaiting⟩, ?_, fun q hq => ?_⟩
  · cases hq
    exact hfile
  · rcases create_cases hcreate with ⟨bytes, access, hfind, rfl⟩ | ⟨hfind, rfl⟩
    · have hheld : disk.tree.get? loc = some (.file bytes access) := find_fits hfind
      simp [hheld, extended]
    · obtain ⟨hfree, dir, name, rfl, -⟩ := find_fits hfind
      have hnone : disk.tree.get? (dir ++ [name]) = none := hfree
      rw [hnone]
      exact (get?_insert _ (by simp) _ _).trans (if_pos rfl)
  · rcases create_cases hcreate with ⟨bytes, access, hfind, rfl⟩ | ⟨hfind, rfl⟩
    · rfl
    · obtain ⟨-, dir, name, rfl, -⟩ := find_fits hfind
      exact (get?_insert _ (by simp) _ _).trans (if_neg hq)

theorem place_of_create {disk disk' : Disk} {path : Option Path} {target : Path} {loc : Loc}
    (habsolute : disk.absolute
      (path.getD (.ofString ("decryptex_debug_" ++ now.compact ++ ".log"))) = some target)
    (hcreate : ({ disk with log := none } : Disk).create target = .ok (loc, disk')) :
    place disk now path = some loc := by
  have hfound : (∃ entry, disk.find .making target = .ok (.present loc entry)) ∨
      disk.find .making target = .ok (.vacant loc) := by
    rcases create_cases hcreate with ⟨_, _, hfind, -⟩ | ⟨hfind, -⟩
    · exact .inl ⟨_, hfind⟩
    · exact .inr hfind
  rw [place, habsolute, Option.bind_some]
  rcases hfound with ⟨entry, hfind⟩ | hfind <;> simp only [hfind]

theorem install_of_ok {path : Option Path} (hsound : w.disk.Sound)
    (hrun : (Event.install path).perform now w = .ok () w') :
    ∃ loc, place w.disk now path = some loc ∧ w'.disk.log = some loc ∧
      Stepped loc [] w.disk w'.disk := by
  obtain ⟨shown, w'', hopen, hrun⟩ := Act.ok_of_bind hrun
  obtain ⟨target, loc, disk', habsolute, hcreate, rfl⟩ := openLog_of_ok hopen
  cases hrun
  exact ⟨loc, place_of_create habsolute hcreate, rfl, stepped_create hsound hcreate⟩

theorem line_of_ok {reporter : Reporter} {level : Level} {message : String}
    (hrun : (Event.line reporter level message).perform now w = .ok () w') :
    w'.disk = w.disk.logged (logLine now level message) := by
  have hsaid := (reporter.say_eq level message { w with now }).symm.trans hrun
  rw [← (EStateM.Result.ok.inj hsaid).2]
  rfl

/-- A line goes to the open log only. -/
theorem stepped_logged {disk : Disk} {loc : Loc} (hsound : disk.Sound) (hlog : disk.log = some loc)
    (line : String) : Stepped loc (Text.encode line) disk (disk.logged line) := by
  obtain ⟨bytes, access, hfile⟩ := hsound.logging hlog
  obtain ⟨hcwd, hwaiting, -⟩ := disk.logged_places line
  refine ⟨hsound.logged line, disk.alike_logged line, ⟨hcwd, hwaiting⟩, ?_,
    fun q hq => get?_logged line (by simpa [hlog] using Ne.symm hq)⟩
  rw [logged, hlog]
  simp only [get?_alter, hfile, extended, if_true, Option.map_some, Entry.altered]

end Step

/-! ## A run of events -/

section Run

variable {disk disk' disk₁ : Disk} {loc : Loc} {bytes : Bytes} {events : List (Moment × Event)}
  {w w' : World σ}

theorem extended_of_file {held : Option Entry} (hheld : ∃ old access, held = some (.file old access)) :
    held = some (extended [] held) := by
  obtain ⟨old, access, rfl⟩ := hheld
  simp [extended]

/-- What the events after a step leave, as seen from before it. -/
theorem Stepped.recorded (hsound : disk.Sound) (hstep : Stepped loc bytes disk disk₁)
    (hlog : disk₁.log = some loc) (hrest : Recorded events disk₁ disk') :
    disk'.log = latest disk (some loc) events ∧
    (∀ q ∈ opened disk (some loc) events, disk'.tree.get? q =
      some (extended ((if q = loc then bytes else []) ++
        (written disk q (some loc) events).flatMap Text.encode) (disk.tree.get? q))) ∧
    (∀ q ∉ opened disk (some loc) events, disk'.tree.get? q = disk.tree.get? q) ∧
    disk'.cwd = disk.cwd ∧ disk'.waiting = disk.waiting := by
  have hplace := place_alike hsound hstep.sound hstep.alike hstep.places.1
  have hopened := opened_congr hplace (some loc) events
  refine ⟨?log, fun q hq => ?written, fun q hq => ?kept, hrest.places.1.trans hstep.places.1,
    hrest.places.2.trans hstep.places.2⟩
  case log => rw [hrest.log, hlog, latest_congr hplace]
  case written =>
    have hfinal := hrest.grown q (by rwa [hlog, hopened])
    rw [hlog, written_congr hplace] at hfinal
    rw [hfinal]
    by_cases hqloc : q = loc
    · subst hqloc
      rw [hstep.here, extended_extended, if_pos rfl]
    · rw [hstep.elsewhere q hqloc, if_neg hqloc, List.nil_append]
  case kept =>
    have hother : q ≠ loc := by
      rintro rfl
      exact hq (mem_opened_of_current events)
    rw [hrest.kept q (by rwa [hlog, hopened]), hstep.elsewhere q hother]

theorem Recorded.nil (hsound : disk.Sound) : Recorded [] disk disk where
  sound := hsound
  log := rfl
  grown q hq := extended_of_file (hsound.logging (by simpa [opened] using hq))
  kept _ _ := rfl
  places := ⟨rfl, rfl⟩

theorem Recorded.install {now : Moment} {path : Option Path} (hsound : disk.Sound)
    (hplace : place disk now path = some loc) (hstep : Stepped loc [] disk disk₁)
    (hlog : disk₁.log = some loc) (hrest : Recorded events disk₁ disk') :
    Recorded ((now, .install path) :: events) disk disk' := by
  obtain ⟨hlatest, hwritten, hkept, hplaces⟩ := hstep.recorded hsound hlog hrest
  refine ⟨hrest.sound, ?_, fun q hq => ?_, fun q hq => ?_, hplaces⟩
  · rwa [latest, hplace]
  · rw [opened, hplace, List.mem_append] at hq
    rw [written, hplace]
    by_cases hlater : q ∈ opened disk (some loc) events
    · simpa using hwritten q hlater
    · -- the log that is replaced is not written to any more
      rw [hkept q hlater, written_of_not_opened hlater]
      exact extended_of_file (hsound.logging (by simpa using hq.resolve_right hlater))
  · rw [opened, hplace, List.mem_append, not_or] at hq
    exact hkept q hq.2

theorem Recorded.line {now : Moment} {reporter : Reporter} {level : Level} {message : String}
    (hsound : disk.Sound) (hrest : Recorded events (disk.logged (logLine now level message)) disk') :
    Recorded ((now, .line reporter level message) :: events) disk disk' := by
  cases hcurrent : disk.log with
  | none =>
      rw [logged, hcurrent] at hrest
      refine ⟨hrest.sound, hrest.log, fun q hq => ?_, hrest.kept, hrest.places⟩
      have hgrown := hrest.grown q hq
      rw [hcurrent] at hgrown ⊢
      exact hgrown
  | some loc =>
  obtain ⟨hlatest, hwritten, hkept, hplaces⟩ := (stepped_logged hsound hcurrent _).recorded hsound
    ((disk.logged_places _).2.2.trans hcurrent) hrest
  refine ⟨hrest.sound, ?_, fun q hq => ?_, fun q hq => ?_, hplaces⟩
  · rwa [latest, hcurrent]
  · rw [opened, hcurrent] at hq
    rw [hwritten q hq, written, hcurrent]
    by_cases hqloc : q = loc
    · simp [hqloc]
    · simp [hqloc, Ne.symm hqloc]
  · rw [opened, hcurrent] at hq
    exact hkept q hq

/-- However logs are opened and lines reported, each log grows by exactly the lines reported
while it was the last that had been opened, in their order, and nothing else changes. -/
theorem recorded_of_perform (hsound : w.disk.Sound) (hrun : perform events w = .ok () w') :
    Recorded events w.disk w'.disk := by
  induction events generalizing w with
  | nil =>
      cases hrun
      exact .nil hsound
  | cons x rest ih =>
      obtain ⟨now, event⟩ := x
      obtain ⟨_, w₁, hevent, hrest⟩ := Act.ok_of_bind hrun
      cases event with
      | install path =>
          obtain ⟨loc, hplace, hlog, hstep⟩ := install_of_ok hsound hevent
          exact .install hsound hplace hstep hlog (ih hstep.sound hrest)
      | line reporter level message =>
          have hdisk := line_of_ok hevent
          have hrest' := ih (hdisk ▸ hsound.logged _) hrest
          rw [hdisk] at hrest'
          exact .line hsound hrest'

/-- A log that is opened again is continued, and gets none of the lines in between. -/
theorem reopened_log_continued :
    let disk := Sample.disk [(["a.log"], .file (Text.encode "old\n") {})]
    let now : Moment := ⟨2024, 1, 2, 3, 4, 5⟩
    let reporter : Reporter := ⟨false, ⟨80, false⟩⟩
    let a : Path := ⟨.here, ["a.log"]⟩
    let b : Path := ⟨.here, ["b.log"]⟩
    let events : List (Moment × Event) :=
      [(now, .install (some a)), (now, .line reporter .info "1"), (now, .install (some b)),
        (now, .line reporter .debug "2"), (now, .install (some a)), (now, .line reporter .error "3")]
    disk.Sound ∧ ∃ w', perform events (Sample.world disk) = .ok () w' ∧
      Recorded events disk w'.disk ∧
      w'.disk.tree.get? ["a.log"] = some (.file (Text.encode
        ("old\n2024-01-02 03:04:05 | INFO     | 1\n2024-01-02 03:04:05 | ERROR    | 3\n")) {}) ∧
      w'.disk.tree.get? ["b.log"] = some (.file (Text.encode
        "2024-01-02 03:04:05 | DEBUG    | 2\n") {}) := by
  intro disk now reporter a b events
  have hsound : disk.Sound := by decide
  obtain ⟨w', hrun⟩ : ∃ w', perform events (Sample.world disk) = .ok () w' := by
    have hsucceeds : ((perform events).result (Sample.world disk)).isOk = true := by decide +kernel
    cases hrun : perform events (Sample.world disk) with
    | ok _ w' => exact ⟨w', rfl⟩
    | error fault w' =>
      rw [Act.result_of_error hrun] at hsucceeds
      cases hsucceeds
  have hrecorded := recorded_of_perform (w := Sample.world disk) hsound hrun
  refine ⟨hsound, w', hrun, hrecorded, ?_, ?_⟩
  · rw [hrecorded.grown ["a.log"] (by decide +kernel)]
    decide +kernel
  · rw [hrecorded.grown ["b.log"] (by decide +kernel)]
    decide +kernel

end Run

end Journal

end Unscramble
