import Unscramble.CommandLine.Basic
import Unscramble.Fault
import Unscramble.Text.Digits

/-!
# Reading the command line

The words of a command line are first told apart into options, values and other
words.  Help and version are served before any value is looked at; values are
then checked in the order in which their options were given, and words that
belong to no option are refused last.
-/

namespace Unscramble.CommandLine

open Text

/-- An option as it was given, with its value. -/
abbrev Given := Choice × Option String

/-- What has been told apart so far. -/
structure Sorted where
  given : List Given := []
  extra : List String := []
deriving DecidableEq, Repr

def Sorted.add (sorted : Sorted) (choice : Choice) (value : Option String) : Sorted :=
  { sorted with given := sorted.given ++ [(choice, value)] }

/-- What a word of options leaves: the options it held, and the option that still
takes its value from the next word. -/
structure WordOptions where
  given : List Given
  open? : Option (Choice × String)
deriving DecidableEq, Repr

/-- A word with a long option, its value after an equals sign if there is one. -/
def longOption (word : String) : Except UsageFault WordOptions :=
  let name := String.ofList (word.toList.takeWhile (· ≠ '='))
  let value := match word.toList.dropWhile (· ≠ '=') with
    | _ :: value => some (String.ofList value)
    | [] => none
  match Choice.ofLong? name with
  | none => .error (.unknown name (closeWords name (Choice.all.map Choice.long)))
  | some choice =>
    match choice.takesValue, value with
    | true, some value => .ok ⟨[(choice, some value)], none⟩
    | true, none => .ok ⟨[], some (choice, name)⟩
    | false, none => .ok ⟨[(choice, none)], none⟩
    | false, some _ => .error (.needlessValue name)

/-- Short options written together; the first one that takes a value takes the rest
of the word. -/
def shortOptions : List Char → Except UsageFault WordOptions
  | [] => .ok ⟨[], none⟩
  | c :: rest =>
    let name := String.ofList ['-', c]
    match Choice.ofShort? name with
    | none => .error (.unknown name [])
    | some choice =>
      if choice.takesValue then
        if rest = [] then .ok ⟨[], some (choice, name)⟩
        else .ok ⟨[(choice, some (String.ofList rest))], none⟩
      else do
        let others ← shortOptions rest
        return { others with given := (choice, none) :: others.given }

/-- The options in a word, none if it is not one of options. -/
def wordOptions (word : String) : Option (Except UsageFault WordOptions) :=
  match word.toList with
  | '-' :: '-' :: _ => some (longOption word)
  | '-' :: c :: rest => some (shortOptions (c :: rest))
  | _ => none

/-- Tell the words apart.  After two hyphens no word is an option. -/
def sortWords (sorted : Sorted) : (waiting : Option (Choice × String)) → List String →
    Except UsageFault Sorted
  | some (choice, _), word :: rest => sortWords (sorted.add choice (some word)) none rest
  | some (_, name), [] => .error (.missingValue name)
  | none, [] => .ok sorted
  | none, word :: rest =>
    if word = "--" then .ok { sorted with extra := sorted.extra ++ rest }
    else
      match wordOptions word with
      | none => sortWords { sorted with extra := sorted.extra ++ [word] } none rest
      | some (.error fault) => .error fault
      | some (.ok options) =>
        sortWords { sorted with given := sorted.given ++ options.given } options.open? rest

/-- After two hyphens every word stays what it is. -/
theorem sortWords_hyphens (sorted : Sorted) (rest : List String) :
    sortWords sorted none ("--" :: rest) =
      .ok { sorted with extra := sorted.extra ++ rest } := by
  simp [sortWords]

/-- An option that waits for its value takes the next word, whatever it looks like. -/
theorem sortWords_waiting (sorted : Sorted) (choice : Choice) (name word : String)
    (rest : List String) :
    sortWords sorted (some (choice, name)) (word :: rest) =
      sortWords (sorted.add choice (some word)) none rest := by
  simp [sortWords]

/-- Why no request can be made of a command line. -/
inductive Rejection
  | usage (fault : UsageFault)
  | fault (fault : Fault)
deriving DecidableEq, Repr

/-- The value given last for an option. -/
def lastValue (given : List Given) (choice : Choice) : Option String :=
  (given.reverse.lookup choice).join

def readTimeout (value : String) : Except UsageFault Int :=
  match integer? digitMax value.toList with
  | none => .error (.notInteger Choice.timeout.long value)
  | some n => if n < 1 then .error (.notPositive Choice.timeout.long n) else .ok n

/-- A path that the system can be asked about. -/
def checkPath (value : String) : Except Rejection Path :=
  if value.toList.contains '\x00' then .error (.fault (.refused .nul none none))
  else .ok (.ofString value)

/-- Take the value of one option into account. -/
def readValue (given : List Given) (options : Options) (choice : Choice) :
    Except Rejection Options :=
  match choice, lastValue given choice with
  | .file, some value => do return { options with file := ← checkPath value }
  | .directory, some value => do return { options with directory := ← checkPath value }
  | .debugFile, some value => do return { options with debugFile := ← checkPath value }
  | .timeout, some value =>
    match readTimeout value with
    | .ok n => .ok { options with timeout := n }
    | .error fault => .error (.usage fault)
  | .verbose, _ => .ok { options with verbose := true }
  | .noInstall, _ => .ok { options with noInstall := true }
  | .cleanupHere, _ => .ok { options with cleanupHere := true }
  | .debug, _ => .ok { options with debug := true }
  | _, _ => .ok options

/-- What a command line asks for. -/
def read (words : List String) : Except Rejection Request := do
  match sortWords {} none words with
  | .error fault => throw (.usage fault)
  | .ok sorted =>
    let choices := (sorted.given.map (·.1)).eraseDups
    match choices.find? (fun choice => decide (choice ∈ [Choice.help, .version])) with
    | some choice => return if choice = .help then .help else .version
    | none =>
      let options ← choices.foldlM (readValue sorted.given) {}
      if sorted.extra ≠ [] then throw (.usage (.extra sorted.extra))
      return .run options

end Unscramble.CommandLine
