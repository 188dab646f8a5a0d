import Unscramble.Process
import Unscramble.Proofs.Discovery

/-!
# How a command is launched

The program of a command is looked up from where its caller is and started from where the
command is to run.  Both ways lead to one file if the program was found by an absolute path or
the caller is already there.  A command that cannot be started, runs out of time or ends with
another status than zero fails as a command; its output is asked for as text, and bytes that are
none are a fault of another kind.
-/

namespace Unscramble

open Disk

/-! ## Programs and files -/

namespace Script

/-- How a program has ended, as a number; one that has run out of time has none. -/
def Ending.code? : Ending → Option Int
  | .status n => some n
  | .signal n => some (-n)
  | .overrun => none

/-- What is run for a file that can be executed, unless a tool of the system has its path. -/
def execute (disk : Disk) (depth : Nat) (path : Octets) (bytes : Bytes) (args : List Octets) :
    Except Refusal Invocation :=
  match toolAt? path, interpreter? (Octets.ofBytes bytes) with
  | some tool, _ => .ok ⟨tool, path, args⟩
  | none, some (program, words) => load disk depth program (words ++ path :: args)
  | none, none => .error .badFormat

variable {disk : Disk} {depth : Nat} {path : Octets} {place : Path} {loc : Loc} {bytes : Bytes}
  {access : Access} {args : List Octets}

/-- A text leads to a file that can be executed. -/
def Names (disk : Disk) (path : Octets) (loc : Loc) (bytes : Bytes) : Prop :=
  ∃ place access, pathOf path = .ok place ∧ access.execute = true ∧
    disk.find .followed place = .ok (.present loc (.file bytes access))

/-- An absolute path leads to the same from everywhere, and every path does from the place where
one already is. -/
theorem Names.enter {start : Standpoint} (hnames : Names disk path loc bytes)
    (hplace : (∀ place, pathOf path = .ok place → place.isAbsolute = true) ∨ start = disk.cwd) :
    Names (disk.enter start) path loc bytes := by
  obtain ⟨place, access, hpath, hexecute, hfind⟩ := hnames
  refine ⟨place, access, hpath, hexecute, ?_⟩
  rw [← hfind]
  rcases hplace with habsolute | rfl
  · have hanchor : place.anchor ≠ .here := by simpa [Path.isAbsolute] using habsolute place hpath
    unfold find
    cases hstart : place.anchor with
    | here => exact absurd hstart hanchor
    | root => rfl
    | doubleRoot => rfl
  · rfl

end Script

/-! ## Launching -/

namespace Launcher

variable {launcher : Launcher} {command : Command} {disk : Disk} {name program : String}
  {args : List String} {start : Standpoint}

/-- A program's surroundings. -/
def surroundings (launcher : Launcher) (command : Command) (inside : Disk) : Script.Launch where
  disk := inside
  assigned := (("PATH", launcher.searchPath) :: launcher.assigned).map
    fun (name, value) => (name, .ofString value)
  input := .ofString (command.input.getD "")
  limit := launcher.limit
  captured := command.capture

/-- What keeps the end of a command from being waited for. -/
def waitFault? (launcher : Launcher) (command : Command) : Option WaitFault :=
  launcher.limit.bind (·.fault? (command.capture || command.input.getD "" ≠ ""))

/-- What becomes of a command once its program has been loaded, or could not be. -/
def proceed (launcher : Launcher) (command : Command) (disk : Disk) (program : String)
    (start : Standpoint) : Except Refusal Script.Invocation → Except Fault Completed × Disk
  | .error why => (.error (failedStart command (refusalText why (Text.quoted program))), disk)
  | .ok invocation =>
    match launcher.waitFault? command with
    | some why => (.error (.waiting why), disk)
    | none =>
      let outcome := (launcher.surroundings command (disk.enter start)).run invocation
      (launcher.finish command program outcome.ending outcome.out outcome.err, outcome.disk.leave)

/-- A text that the system cannot be given is in the way. -/
def Unsayable (command : Command) : Prop :=
  command.argv.any (·.toList.contains '\x00') = true ∨ command.cwd.any Path.hasNul = true

section Equations

variable (hargv : command.argv = name :: args)

include hargv

theorem launch_of_unknown (hfound : launcher.lookUp disk name = none) :
    launcher.launch command disk =
      (.error (failedStart command (name ++ " not found on PATH")), disk) := by
  unfold launch
  simp only [hargv, hfound]

variable (hfound : launcher.lookUp disk name = some program)

include hfound

theorem launch_of_unsayable (hunsayable : Unsayable command) :
    launcher.launch command disk = (.error (.refused .nul none none), disk) := by
  unfold Unsayable at hunsayable
  unfold launch
  simp only [hargv] at hunsayable ⊢
  simp only [hfound, if_pos hunsayable]

theorem launch_of_nowhere {why : Refusal} (hsayable : ¬Unsayable command)
    (hstart : startDirectory disk command.cwd = .error why) :
    launcher.launch command disk = (.error (failedStart command
      (refusalText why ((command.cwd.map Path.described).getD ""))), disk) := by
  unfold Unsayable at hsayable
  unfold launch
  simp only [hargv] at hsayable ⊢
  simp only [hfound, if_neg hsayable, hstart]

theorem launch_of_start (hsayable : ¬Unsayable command)
    (hstart : startDirectory disk command.cwd = .ok start) :
    launcher.launch command disk = launcher.proceed command disk program start
      (loadFirst (disk.enter start) args none (launcher.candidates program)) := by
  unfold Unsayable at hsayable
  unfold launch
  simp only [hargv] at hsayable ⊢
  simp only [hfound, if_neg hsayable, hstart]
  cases loadFirst (disk.enter start) args none (launcher.candidates program) <;> rfl

end Equations

/-- How a program may have finished, and what the command makes of it. -/
inductive Finished (command : Command) (program : String) (ending : Script.Ending)
    (out err : Bytes) : Except Fault Completed → Prop
  | shown {stdout stderr : String} (hcode : ending.code? = some 0)
      (hcapture : command.capture = true) (hout : Text.read out = .ok stdout) (herr : Text.read err = .ok stderr) :
      Finished command program ending out err
        (.ok ⟨program :: command.argv.tail, some stdout, some stderr⟩)
  | silent (hcode : ending.code? = some 0) (hcapture : command.capture = false) :
      Finished command program ending out err (.ok ⟨program :: command.argv.tail, none, none⟩)
  | failed {code : Int} {detail : String} (hcode : ending.code? = some code) (hne : code ≠ 0)
      (htext : command.capture = true →
        ∃ stdout stderr, Text.read out = .ok stdout ∧ Text.read err = .ok stderr) :
      Finished command program ending out err (.error (.command command.argv detail (some code)))
  | overran {detail : String} (hcode : ending.code? = none) :
      Finished command program ending out err (.error (.command command.argv detail none))
  | unreadable {what : Text.Malformed} (hcode : ending.code? ≠ none)
      (hcapture : command.capture = true)
      (hbytes : Text.read out = .error what ∨ Text.read err = .error what) :
      Finished command program ending out err (.error (.malformed what))

theorem capture_eq (bytes : Bytes) :
    capture bytes = (Text.read bytes).mapError Fault.malformed := by
  rw [capture]
  cases Text.read bytes <;> rfl

theorem finish_of_code {ending : Script.Ending} {code : Int} (hcode : ending.code? = some code)
    (program : String) (out err : Bytes) :
    Finished command program ending out err (launcher.finish command program ending out err) := by
  have hended : ending.code? ≠ none := by simp [hcode]
  have hfinish : launcher.finish command program ending out err =
      if command.capture then do
        let stdout ← (Text.read out).mapError Fault.malformed
        let stderr ← (Text.read err).mapError Fault.malformed
        if code = 0 then return ⟨program :: command.argv.tail, some stdout, some stderr⟩
        throw (.command command.argv (statusDetail code stderr) (some code))
      else if code = 0 then return ⟨program :: command.argv.tail, none, none⟩
      else throw (.command command.argv (statusDetail code "") (some code)) := by
    unfold finish
    simp only [capture_eq]
    cases ending <;> cases hcode <;> rfl
  rw [hfinish]
  cases hcapture : command.capture with
  | false =>
    rw [if_neg Bool.false_ne_true]
    split
    · next hzero =>
      subst hzero
      exact .silent hcode hcapture
    · next hne => exact .failed hcode hne fun hother => by cases hcapture.symm.trans hother
  | true =>
    rw [if_pos rfl]
    cases hout : Text.read out with
    | error what => exact .unreadable hended hcapture (.inl hout)
    | ok stdout =>
      cases herr : Text.read err with
      | error what => exact .unreadable hended hcapture (.inr herr)
      | ok stderr =>
        simp only [Except.mapError, bind, Except.bind]
        split
        · next hzero =>
          subst hzero
          exact .shown hcode hcapture hout herr
        · next hne => exact .failed hcode hne fun _ => ⟨stdout, stderr, hout, herr⟩

theorem finish_finished (launcher : Launcher) (command : Command) (program : String)
    (ending : Script.Ending) (out err : Bytes) :
    Finished command program ending out err (launcher.finish command program ending out err) := by
  cases hcode : ending.code? with
  | some code => exact finish_of_code hcode program out err
  | none =>
    cases ending with
    | overrun => exact .overran rfl
    | status n => cases hcode
    | signal n => cases hcode

/-- The program of a command has been found on the search path. -/
def Finds (launcher : Launcher) (command : Command) (disk : Disk) (program : String) : Prop :=
  ∃ name, command.argv.head? = some name ∧ launcher.lookUp disk name = some program

/-- How a command may end, and what it leaves of the disk. -/
inductive Ended (launcher : Launcher) (command : Command) (disk : Disk) :
    Except Fault Completed × Disk → Prop
  | unknown {name : String} (hname : command.argv.head? = some name)
      (hfound : launcher.lookUp disk name = none) :
      Ended launcher command disk
        (.error (.command command.argv (name ++ " not found on PATH") none), disk)
  | nowhere {why : Refusal} {detail : String}
      (hstart : startDirectory disk command.cwd = .error why) :
      Ended launcher command disk (.error (.command command.argv detail none), disk)
  | refused {program : String} {start : Standpoint} {why : Refusal} {detail : String}
      (hfinds : launcher.Finds command disk program)
      (hstart : startDirectory disk command.cwd = .ok start)
      (hload : loadFirst (disk.enter start) command.argv.tail none (launcher.candidates program) =
        .error why) :
      Ended launcher command disk (.error (.command command.argv detail none), disk)
  | ran {program : String} {start : Standpoint} {invocation : Script.Invocation}
      {outcome : Script.Outcome} {result : Except Fault Completed}
      (hfinds : launcher.Finds command disk program)
      (hstart : startDirectory disk command.cwd = .ok start)
      (hload : loadFirst (disk.enter start) command.argv.tail none (launcher.candidates program) =
        .ok invocation)
      (houtcome : (launcher.surroundings command (disk.enter start)).run invocation = outcome)
      (hfinished : Finished command program outcome.ending outcome.out outcome.err result) :
      Ended launcher command disk (result, outcome.disk.leave)
  | unsayable (hcwd : command.cwd.any Path.hasNul = true) :
      Ended launcher command disk (.error (.refused .nul none none), disk)
  | unwaitable {why : WaitFault} (hwait : launcher.waitFault? command = some why) :
      Ended launcher command disk (.error (.waiting why), disk)

theorem proceed_ended (hfinds : launcher.Finds command disk program)
    (hstart : startDirectory disk command.cwd = .ok start)
    {loaded : Except Refusal Script.Invocation}
    (hload : loadFirst (disk.enter start) command.argv.tail none (launcher.candidates program) =
      loaded) :
    launcher.Ended command disk (launcher.proceed command disk program start loaded) := by
  cases loaded with
  | error why => exact .refused hfinds hstart hload
  | ok invocation =>
    rw [proceed]
    split
    · next why hwait => exact .unwaitable hwait
    · exact .ran hfinds hstart hload rfl (finish_finished _ _ _ _ _ _)

end Launcher

/-- A command succeeds if its program ends with the status zero.  Otherwise it fails as that
command: its program is not found or cannot be started, runs out of time, or ends with another
status.  Other faults are a program whose captured output is no text, a directory whose name has
a NUL, and a limit that cannot be waited for. -/
theorem launch_ends {launcher : Launcher} {command : Command} (disk : Disk)
    (hargv : command.argv ≠ []) (hnul : ∀ arg ∈ command.argv, '\x00' ∉ arg.toList) :
    launcher.Ended command disk (launcher.launch command disk) := by
  obtain ⟨name, args, hargs⟩ := List.exists_cons_of_ne_nil hargv
  have hname : command.argv.head? = some name := by rw [hargs, List.head?_cons]
  cases hfound : launcher.lookUp disk name with
  | none =>
    rw [Launcher.launch_of_unknown hargs hfound]
    exact .unknown hname hfound
  | some program =>
    by_cases hunsayable : Launcher.Unsayable command
    · rw [Launcher.launch_of_unsayable hargs hfound hunsayable]
      rcases hunsayable with harg | hcwd
      · obtain ⟨arg, hmem, hcontains⟩ := List.any_eq_true.mp harg
        exact absurd (by simpa using hcontains) (hnul arg hmem)
      · exact .unsayable hcwd
    · cases hstart : Launcher.startDirectory disk command.cwd with
      | error why =>
        rw [Launcher.launch_of_nowhere hargs hfound hunsayable hstart]
        exact .nowhere hstart
      | ok start =>
        rw [Launcher.launch_of_start hargs hfound hunsayable hstart]
        exact Launcher.proceed_ended ⟨name, hname, hfound⟩ hstart (by rw [hargs, List.tail_cons])

section Samples

/-- A program that prints a byte that is no text, and ends with a status of its own. -/
def Sample.failing : Disk := Sample.disk [(["bin"], .directory), (["bin", "badfail"],
  .file (Text.encode "#!/bin/sh\nprintf '\\377'\nexit 3\n") { execute := true })]

/-- Where its output is not captured, such a program fails with its status. -/
theorem uncaptured_program_ends :
    (["badfail"] ≠ [] ∧ ∀ arg ∈ ["badfail"], '\x00' ∉ arg.toList) ∧
      ({ searchPath := "/bin" } : Launcher).Ended { argv := ["badfail"] } Sample.failing
        (({ searchPath := "/bin" } : Launcher).launch { argv := ["badfail"] } Sample.failing) ∧
      (({ searchPath := "/bin" } : Launcher).launch { argv := ["badfail"] } Sample.failing).1 =
        .error (.command ["badfail"] "exited with status 3" (some 3)) :=
  ⟨by decide, launch_ends Sample.failing (by decide) (by decide), by decide +kernel⟩

/-- Where its output is captured, it fails by its output and not as a command. -/
theorem captured_program_escapes :
    (["badfail"] ≠ [] ∧ ∀ arg ∈ ["badfail"], '\x00' ∉ arg.toList) ∧
      (({ searchPath := "/bin" } : Launcher).launch { argv := ["badfail"], capture := true }
        Sample.failing).1 = .error (.malformed ⟨0xff, 0, 1, .start⟩) :=
  ⟨by decide, by decide +kernel⟩

end Samples

/-! ## Where the program comes from -/

namespace Launcher

variable {launcher : Launcher} {command : Command} {disk : Disk} {name program : String}
  {args : List String} {start : Standpoint}

/-- A program whose only path cannot be loaded is missing, whatever part of the path is. -/
def reported (why : Refusal) : Refusal := if Script.isMissing why then .notFound else why

/-- In a search path of absolute directories programs are found by absolute paths. -/
theorem absolute_of_lookUp (hname : '/' ∉ name.toList)
    (habsolute : ∀ directory ∈ directories launcher.searchPath, directory.toList.head? = some '/')
    (hfound : launcher.lookUp disk name = some program) : program.toList.head? = some '/' := by
  unfold lookUp at hfound
  rw [if_neg (by simpa using hname)] at hfound
  split at hfound
  · cases hfound
  obtain ⟨directory, hmem, rfl⟩ := List.mem_map.mp (List.mem_of_find?_eq_some hfound)
  have hhead := habsolute directory hmem
  unfold inDirectory
  split <;> simp [hhead]

end Launcher

section Samples

end Samples

end Unscramble
