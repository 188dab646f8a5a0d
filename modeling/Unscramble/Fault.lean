import Unscramble.Disk.Canonical
import Unscramble.Settings.Issue
import Unscramble.Text.Quoted
import Unscramble.Text.Utf8
import Unscramble.TimeLimit

/-!
# Faults

Everything that can end an action early is one of these causes.  The wording of
each is fixed here, once, because it is shown on status lines and kept in the
outcome of a file.
-/

namespace Unscramble

open Text

/-- Why a package is not available. -/
inductive InstallFault
  | disabled (package : String)
  | failed (package : String) (cause : String)
  | reported (text : String)
deriving DecidableEq, Repr

/-- Why the detector gave no verdict. -/
inductive DetectionFault
  | failed (cause : String)
  | unexpected (output : String)
  | reported (text : String)
deriving DecidableEq, Repr

/-- Why there is nothing to walk. -/
inductive TargetFault
  | notDirectory
  | notFile
  | nothing
deriving DecidableEq, Repr

/-- Why markup cannot be shown: a closing tag that closes nothing, a colour with a
part that is no number or too long for one, or the parameters of a handler that
are not a literal. -/
inductive MarkupFault
  | unmatched (tag : String) (position : Nat)
  | nothingOpen (position : Nat)
  | noNumber
  | longNumber (digits : Nat)
  | badParameters (expression : Option String) (parameters complaint : String)
deriving DecidableEq, Repr

/-- What a run that is told to stop leaves behind. -/
inductive ExitCode
  | nothing
  | number (code : Int)
  | text (note : String)
deriving DecidableEq, Repr

def ExitCode.message : ExitCode → String
  | nothing => ""
  | number code => toString code
  | text note => note

inductive Fault
  | refused (why : Refusal) (path : Option String) (target : Option String)
  | symlinkLoop (path : String)
  | noName (path : Path)
  | malformed (what : Malformed)
  | command (argv : List String) (detail : String) (status : Option Int)
  | install (why : InstallFault)
  | detection (why : DetectionFault)
  | target (why : TargetFault)
  | longInteger (digits : Nat)
  | deepNesting (container : String)
  | markup (why : MarkupFault)
  | noStatus (status : String)
  | noCommand
  | waiting (why : WaitFault)
  | unreadableSetting (field : String) (source : Source)
  | invalidSettings (issues : List Issue)
  | interrupt (note : String)
  | exit (code : ExitCode)
  | foreign (kind text : String)
deriving DecidableEq, Repr

/-- The most digits of an integer that is read from text. -/
def digitMax : Nat := 4300

def Text.Malformed.message (m : Malformed) : String :=
  let what := match m.reason with
    | .start => "invalid start byte"
    | .continuation => "invalid continuation byte"
    | .truncated => "unexpected end of data"
  let which :=
    if m.width = 1 then
      "byte 0x" ++ String.ofList (hexPadded 2 m.byte.toNat) ++ " in position " ++ toString m.position
    else
      "bytes in position " ++ toString m.position ++ "-" ++ toString (m.position + m.width - 1)
  "'utf-8' codec can't decode " ++ which ++ ": " ++ what

/-- How a refusal reads, with the paths it is about. -/
def Refusal.message (why : Refusal) (path target : Option String) : String :=
  match why with
  | .nul => why.text
  | _ =>
    let subject := match path, target with
      | some p, some q => ": " ++ quoted p ++ " -> " ++ quoted q
      | some p, none => ": " ++ quoted p
      | none, _ => ""
    "[Errno " ++ toString why.number ++ "] " ++ why.text ++ subject

def InstallFault.message : InstallFault → String
  | disabled package => package ++ " is not installed and automatic installation is disabled"
  | failed package cause => "Failed to install " ++ package ++ ": " ++ cause
  | reported text => text

/-- Only the start of an unexpected output is shown. -/
def DetectionFault.message : DetectionFault → String
  | failed cause => "Obfuscation detector failed: " ++ cause
  | unexpected output =>
    "Unexpected detector output: " ++ quoted (String.ofList (output.toList.take 100))
  | reported text => text

def TargetFault.message : TargetFault → String
  | notDirectory => "The specified path is not a directory."
  | notFile => "The specified path is not a file."
  | nothing => "No directories to process."

/-- How a number with too many digits is refused. -/
def longNumberMessage (digits : Nat) : String :=
  "Exceeds the limit (" ++ toString digitMax
    ++ " digits) for integer string conversion: value has " ++ toString digits
    ++ " digits; use sys.set_int_max_str_digits() to increase the limit"

def MarkupFault.message : MarkupFault → String
  | unmatched tag position =>
    "closing tag '[" ++ tag ++ "]' at position " ++ toString position
      ++ " doesn't match any open tag"
  | nothingOpen position =>
    "closing tag '[/]' at position " ++ toString position ++ " has nothing to close"
  | noNumber => "invalid literal for int() with base 10: " ++ quoted ""
  | longNumber digits => longNumberMessage digits
  | badParameters (some expression) parameters complaint =>
    "error parsing " ++ quoted expression ++ " in " ++ quoted parameters ++ "; " ++ complaint
  | badParameters none parameters complaint =>
    "error parsing " ++ quoted parameters ++ "; " ++ complaint

/-- How a path reads inside a message that names its kind. -/
def Path.described (path : Path) : String :=
  "PosixPath(" ++ quoted path.toString ++ ")"

namespace Fault

def message : Fault → String
  | refused why path dest => why.message path dest
  | symlinkLoop path => "Symlink loop from " ++ quoted path
  | noName path => path.described ++ " has an empty name"
  | malformed what => what.message
  | command argv detail _ => " ".intercalate argv ++ ": " ++ detail
  | install why => why.message
  | detection why => why.message
  | target why => why.message
  | longInteger digits => longNumberMessage digits
  | deepNesting container =>
    "maximum recursion depth exceeded while decoding a JSON " ++ container
      ++ " from a unicode string"
  | markup why => why.message
  | noStatus status => quoted status
  | noCommand => "list index out of range"
  | waiting why => why.message
  | unreadableSetting field source =>
    "error parsing value for field \"" ++ field ++ "\" from source \"" ++ source.label ++ "\""
  | invalidSettings issues =>
    "\n".intercalate (issues.map fun issue => issue.field ++ ": " ++ issue.complaint.message)
  | interrupt note => note
  | exit code => code.message
  | foreign _ text => text

/-- Faults that are meant to end the whole run. -/
def endsRun : Fault → Bool
  | interrupt _ | exit _ => true
  | _ => false

/-- Faults that come from a refused operation on the disk. -/
def isRefusal : Fault → Bool
  | refused why _ _ => why != .nul
  | _ => false

end Fault

namespace Disk

variable {α : Type}

/-- Ask about a path; a refusal names the path. -/
def query (disk : Disk) (question : Disk → Path → Except Refusal α) (path : Path) :
    Except Fault α :=
  match question disk path with
  | .ok answer => .ok answer
  | .error why => .error (.refused why (some path.toString) none)

/-- The path of the working directory. -/
def workingDirectory (disk : Disk) : Except Fault Path :=
  match disk.workingLoc? with
  | some loc => .ok (locPath loc)
  | none => .error (.refused .notFound none none)

/-- The canonical form of a path; a loop is named by the path it was met at. -/
def canonicalPath (disk : Disk) (path : Path) : Except Fault Path :=
  match disk.canonical path with
  | .ok result => .ok result
  | .error (.loop met) => .error (.symlinkLoop met.toString)
  | .error (.refused why) => .error (.refused why none none)

end Disk

end Unscramble
