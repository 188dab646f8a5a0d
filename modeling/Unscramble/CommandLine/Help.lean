import Unscramble.CommandLine.Basic
import Unscramble.Text.Wrap

/-!
# Help

The help names each option with what it does.  The names stand in one column, as
wide as the widest of them, and the sentences in another, wrapped to the page.
-/

namespace Unscramble.CommandLine

open Text

/-- Columns of a page of help. -/
def pageWidth : Nat := 80

def usageLine : String := "Usage: decryptex [OPTIONS]"

def hintLine : String := "Try 'decryptex --help' for help."

def versionText : String := "1.0.0"

def purpose : List String :=
  ["Just crazy tool that tries to deobfuscate anything around it!",
   "Obfuscated JavaScript files are rewritten in place; no backup is kept."]

/-- An option as it is written, with its value's name. -/
def heading (choice : Choice) : String :=
  let names := match choice.short? with
    | some short => short ++ ", " ++ choice.long
    | none => choice.long
  match choice.valueName? with
  | some value => names ++ " " ++ value
  | none => names

def blanks (n : Nat) : String := String.ofList (List.replicate n ' ')

/-- The column in which sentences start. -/
def sentenceColumn : Nat :=
  (Choice.all.map fun choice => (heading choice).length).foldl max 0 + 4

/-- The lines of an option. -/
def optionLines (choice : Choice) : List String :=
  let sentences := (wrap .fold (pageWidth - sentenceColumn) choice.about.toList).map fun line =>
    String.ofList (trimRight line)
  let first := "  " ++ heading choice
  match sentences with
  | [] => [first]
  | sentence :: rest =>
    (first ++ blanks (sentenceColumn - first.length) ++ sentence)
      :: rest.map (blanks sentenceColumn ++ ·)

def helpLines : List String :=
  [usageLine] ++ purpose.flatMap (fun line => ["", "  " ++ line])
    ++ ["", "Options:"] ++ Choice.all.flatMap optionLines

/-- What is shown to someone whose command line is refused. -/
def refusalLines (fault : UsageFault) : List String :=
  (if fault.showsUsage then [usageLine, hintLine, ""] else [])
    ++ ["Error: " ++ fault.message]

end Unscramble.CommandLine
