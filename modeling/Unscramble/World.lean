import Unscramble.Console.Basic

/-!
# The world an action runs in

An action works on the disk, runs commands and reports.  What it has done so far
is part of the world: the commands run, the lines reported and what the console
shows.  The state of the tools is a parameter, so that a statement about a run
can hold for every behaviour of every tool.
-/

namespace Unscramble

/-- A point in time as a clock shows it. -/
structure Moment where
  year : Nat
  month : Nat
  day : Nat
  hour : Nat
  minute : Nat
  second : Nat
deriving DecidableEq, Repr

namespace Moment

/-- A number written with at least `width` digits. -/
def padded (width n : Nat) : String :=
  let digits := toString n
  String.ofList (List.replicate (width - digits.length) '0') ++ digits

def stamp (m : Moment) : String :=
  padded 4 m.year ++ "-" ++ padded 2 m.month ++ "-" ++ padded 2 m.day ++ " "
    ++ padded 2 m.hour ++ ":" ++ padded 2 m.minute ++ ":" ++ padded 2 m.second

/-- The same without characters that are awkward in file names. -/
def compact (m : Moment) : String :=
  padded 4 m.year ++ padded 2 m.month ++ padded 2 m.day ++ "_"
    ++ padded 2 m.hour ++ padded 2 m.minute ++ padded 2 m.second

end Moment

/-- How important a line is. -/
inductive Level
  | debug
  | info
  | success
  | warning
  | error
deriving DecidableEq, Repr

/-- A command to be run to its end. -/
structure Command where
  argv : List String
  cwd : Option Path := none
  /-- Its output is kept as text. -/
  capture : Bool := false
  /-- Its output is always shown. -/
  echo : Bool := false
  input : Option String := none
deriving DecidableEq, Repr

/-- A command that has succeeded: the program that was started with its
arguments, and its output as far as it was kept. -/
structure Completed where
  args : List String
  stdout : Option String := none
  stderr : Option String := none
deriving DecidableEq, Repr

/-- Runs one command: it may change the disk and the state of the tools, and
either completes or fails. -/
abbrev Runner (σ : Type) := Command → Disk → σ → Except Fault Completed × Disk × σ

/-- Where a package is installed. -/
inductive Scope
  | project
  | everywhere
deriving DecidableEq, Repr

structure World (σ : Type) where
  disk : Disk
  tools : σ
  now : Moment
  commands : List Command := []
  lines : List (Level × String) := []
  screen : List String := []
  /-- The packages known to be available. -/
  ensured : List (Scope × String) := []

/-- An action: it ends with a value or a fault, and what it has done stays done
either way. -/
abbrev Act (σ : Type) := EStateM Fault (World σ)

namespace Act

variable {σ α : Type}

/-- Look at the disk. -/
def look (question : Disk → Except Fault α) : Act σ α := do
  match question (← get).disk with
  | .ok answer => return answer
  | .error fault => throw fault

/-- Ask the disk about a path. -/
def ask (question : Disk → Path → Except Refusal α) (path : Path) : Act σ α :=
  look fun disk => disk.query question path

/-- Change the disk at a path. -/
def change (operation : Disk → Path → Except Refusal Disk) (path : Path) : Act σ Unit := do
  match operation (← get).disk path with
  | .ok disk => modify fun w => { w with disk }
  | .error why => throw (.refused why (some path.toString) none)

/-- Run `cleanUp` after `body`, however it ends.  A fault of `cleanUp` replaces
the one of `body`. -/
def always (body : Act σ α) (cleanUp : Act σ Unit) : Act σ α := fun w =>
  match body w with
  | .ok value w =>
    match cleanUp w with
    | .ok _ w => .ok value w
    | .error fault w => .error fault w
  | .error fault w =>
    match cleanUp w with
    | .ok _ w => .error fault w
    | .error fault' w => .error fault' w

/-- The result of `body`, with its fault as a value. -/
def attempt (body : Act σ α) : Act σ (Except Fault α) := fun w =>
  match body w with
  | .ok value w => .ok (.ok value) w
  | .error fault w => .ok (.error fault) w

/-- Run a command and keep a record of it. -/
def run (runner : Runner σ) (command : Command) : Act σ Completed := fun w =>
  let (result, disk, tools) := runner command w.disk w.tools
  let w := { w with disk, tools, commands := w.commands ++ [command] }
  match result with
  | .ok completed => .ok completed w
  | .error fault => .error fault w

/-- The working directory. -/
def workingDirectory : Act σ Path := look Disk.workingDirectory

/-- The canonical form of a path. -/
def canonical (path : Path) : Act σ Path := look (·.canonicalPath path)

end Act

end Unscramble
