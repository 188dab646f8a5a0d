import Unscramble.World
import Unscramble.Disk.Change

/-!
# Status lines

Every status line goes to the record of the run, to the debug log if one is
open, and to the console; debug lines reach the console of a verbose reporter
only.  The console shows the line literally, whatever brackets it holds.
-/

namespace Unscramble

namespace Level

/-- The name under which a line is logged; success is logged as information. -/
def logName : Level → String
  | debug => "DEBUG"
  | info | success => "INFO"
  | warning => "WARNING"
  | error => "ERROR"

/-- The terminal code of a level's style. -/
def style : Level → Option String
  | debug => some "2"
  | info => none
  | success => some "32"
  | warning => some "33"
  | error => some "31"

end Level

structure Reporter where
  verbose : Bool
  console : Console

/-- A line of the debug log. -/
def logLine (now : Moment) (level : Level) (message : String) : String :=
  now.stamp ++ " | "
    ++ level.logName ++ String.ofList (List.replicate (8 - level.logName.length) ' ')
    ++ " | " ++ message ++ "\n"

/-- What a status line shows on a console. -/
def statusText (now : Moment) (message : String) : String :=
  "[" ++ now.stamp ++ "] " ++ message

namespace Disk

/-- Add a line to the open log. -/
def logged (disk : Disk) (line : String) : Disk :=
  match disk.log with
  | some loc => disk.alter loc (· ++ Text.encode line)
  | none => disk

/-- The absolute form of a path, found without looking at the disk. -/
def absolute (disk : Disk) (path : Path) : Option Path :=
  match path.anchor with
  | .here => disk.workingLoc?.map fun cwd => locPath (collapse (cwd ++ path.parts))
  | anchor => some ⟨anchor, collapse path.parts⟩

end Disk

variable {σ : Type}

/-- Print markup on a console. -/
def Console.put (console : Console) (style : Option String) (markup : List Char) :
    Act σ Unit := do
  match console.print style markup with
  | .ok text => modify fun w => { w with screen := w.screen ++ [text] }
  | .error why => throw (.markup why)

namespace Reporter

def say (reporter : Reporter) (level : Level) (message : String) : Act σ Unit := do
  let now := (← get).now
  modify fun w => { w with
    lines := w.lines ++ [(level, message)]
    disk := w.disk.logged (logLine now level message) }
  if level ≠ .debug ∨ reporter.verbose = true then
    reporter.console.put level.style (Console.escape (statusText now message).toList)

def debug (reporter : Reporter) := reporter.say (σ := σ) .debug
def info (reporter : Reporter) := reporter.say (σ := σ) .info
def success (reporter : Reporter) := reporter.say (σ := σ) .success
def warning (reporter : Reporter) := reporter.say (σ := σ) .warning
def error (reporter : Reporter) := reporter.say (σ := σ) .error

end Reporter

/-- Open a debug log, by default under a name that holds the time.  A log that
was open before is closed first. -/
def openLog (path : Option Path) : Act σ Path := do
  let path := path.getD (.ofString ("decryptex_debug_" ++ (← get).now.compact ++ ".log"))
  modify fun w => { w with disk := { w.disk with log := none } }
  match (← get).disk.absolute path with
  | none => throw (.refused .notFound none none)
  | some target =>
    match (← get).disk.create target with
    | .ok (loc, disk) => modify fun w => { w with disk := { disk with log := some loc } }
    | .error why => throw (.refused why (some target.toString) none)
  return path

end Unscramble
