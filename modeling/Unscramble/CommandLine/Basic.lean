import Unscramble.Path
import Unscramble.Text.Quoted
import Unscramble.Text.Resemblance

/-!
# The command line

A run is asked for by options.  Each option has a long name and may have a short
one, and some take a value.  What cannot be understood is a usage fault.
-/

namespace Unscramble

open Text

inductive Choice
  | version
  | file
  | directory
  | verbose
  | noInstall
  | cleanupHere
  | timeout
  | debug
  | debugFile
  | help
deriving DecidableEq, Repr

/-- The options in the order in which they are shown. -/
def Choice.all : List Choice :=
  [version, file, directory, verbose, noInstall, cleanupHere, timeout, debug, debugFile, help]

namespace Choice

def long : Choice → String
  | version => "--version"
  | file => "--file"
  | directory => "--dir"
  | verbose => "--verbose"
  | noInstall => "--no-install"
  | cleanupHere => "--cleanup-cwd"
  | timeout => "--timeout"
  | debug => "--debug"
  | debugFile => "--debug-file"
  | help => "--help"

def short? : Choice → Option String
  | version => some "-v"
  | file => some "-f"
  | directory => some "-d"
  | verbose => some "-V"
  | help => some "-h"
  | _ => none

/-- What an option's value is called, if it takes one. -/
def valueName? : Choice → Option String
  | file | directory | debugFile => some "PATH"
  | timeout => some "INTEGER RANGE"
  | _ => none

def takesValue (choice : Choice) : Bool := choice.valueName?.isSome

def about : Choice → String
  | version => "Show the version and exit."
  | file => "Process the directory containing this file"
  | directory => "Directory to process recursively"
  | verbose => "Show tool output and extra diagnostics"
  | noInstall => "Fail instead of installing missing npm packages"
  | cleanupHere => "Sweep output directories under the working directory after each file"
  | timeout => "Per-step timeout in seconds  [x>=1]"
  | debug => "Enable debug logging to file"
  | debugFile => "Debug log file path (default: decryptex_debug_TIMESTAMP.log)"
  | help => "Show this message and exit."

def ofLong? (name : String) : Option Choice := all.find? (·.long = name)

def ofShort? (name : String) : Option Choice := all.find? (·.short? = some name)

end Choice

/-- Why a command line is refused. -/
inductive UsageFault
  | unknown (name : String) (suggestions : List String)
  | missingValue (name : String)
  | needlessValue (name : String)
  | notInteger (name value : String)
  | notPositive (name : String) (value : Int)
  | extra (words : List String)
deriving DecidableEq, Repr

namespace UsageFault

/-- Similar names are offered in the order of their letters. -/
def suggestionText (suggestions : List String) : String :=
  match suggestions with
  | [] => ""
  | [name] => " Did you mean " ++ quoted name ++ "?"
  | names =>
    " (Did you mean one of: "
      ++ ", ".intercalate ((names.mergeSort (· ≤ ·)).map quoted) ++ "?)"

def message : UsageFault → String
  | unknown name suggestions => "No such option " ++ quoted name ++ "." ++ suggestionText suggestions
  | missingValue name => "Option " ++ quoted name ++ " requires an argument."
  | needlessValue name => "Option " ++ quoted name ++ " does not take a value."
  | notInteger name value =>
    "Invalid value for " ++ quoted name ++ ": " ++ quoted value
      ++ " is not a valid integer range."
  | notPositive name value =>
    "Invalid value for " ++ quoted name ++ ": " ++ toString value
      ++ " is not in the range x>=1."
  | extra words =>
    (match words with
      | [_] => "Got unexpected extra argument ("
      | _ => "Got unexpected extra arguments (")
      ++ " ".intercalate words ++ ")"

/-- Faults that the usage line is shown with. -/
def showsUsage : UsageFault → Bool
  | missingValue _ | needlessValue _ => false
  | _ => true

end UsageFault

/-- The options of a run. -/
structure Options where
  file : Option Path := none
  directory : Option Path := none
  verbose : Bool := false
  noInstall : Bool := false
  cleanupHere : Bool := false
  timeout : Option Int := none
  debug : Bool := false
  debugFile : Option Path := none
deriving DecidableEq, Repr

/-- What is asked for. -/
inductive Request
  | help
  | version
  | run (options : Options)
deriving DecidableEq, Repr

end Unscramble
