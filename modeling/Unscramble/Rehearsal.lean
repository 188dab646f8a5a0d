import Unscramble.Text.Replace
import Unscramble.Workspace

/-!
# Rehearsals

A run can be rehearsed without its tools: a script of rules says what each
command does to the disk and how it ends.  The first rule that fits a command
plays its part; a command that no rule fits succeeds and does nothing.
-/

namespace Unscramble

/-- A change that a rule makes.  Texts may name the command's arguments as
`\x7b0\x7d`, `\x7b1\x7d`, … and `\x7b-1\x7d`, and its directory as `\x7bcwd\x7d`. -/
inductive Deed
  | write (path text : String)
  | append (path text : String)
  | makeDirectory (path : String)
  | remove (path : String)
  | copy (source target : String)
  | link (path target : String)
deriving DecidableEq, Repr

/-- How a rule's command ends. -/
inductive Ending
  | succeed (stdout : String)
  | fail (detail : String) (status : Option Int)
  | raise (fault : Fault)
deriving DecidableEq, Repr

structure Rule where
  /-- The command starts with these words; an open place takes any word. -/
  argv : List (Option String) := []
  /-- Some argument contains this. -/
  argHas : Option String := none
  /-- The input contains this. -/
  inputHas : Option String := none
  /-- How often the rule still fits, if that is limited. -/
  times : Option Nat := none
  /-- A file whose text is noted before the deeds. -/
  shown : Option String := none
  deeds : List Deed := []
  ending : Ending := .succeed ""
deriving DecidableEq, Repr

/-- The rules, and for each command played whether a file was to be noted and what
it held. -/
structure Rehearsal where
  rules : List Rule
  notes : List (Option (Option String)) := []

namespace Deed

def name : Deed → String
  | write .. => "write"
  | append .. => "append"
  | makeDirectory _ => "mkdir"
  | remove _ => "rm"
  | copy .. => "copy"
  | link .. => "link"

def map (f : String → String) : Deed → Deed
  | write path text => .write (f path) (f text)
  | append path text => .append (f path) (f text)
  | makeDirectory path => .makeDirectory (f path)
  | remove path => .remove (f path)
  | copy source target => .copy (f source) (f target)
  | link path target => .link (f path) (f target)

variable {σ : Type}

/-- Make the directories above a path. -/
def makeParents (path : Path) : Act σ Unit :=
  Act.makeDirectories path.parts.length path.parent

def perform : Deed → Act σ Unit
  | write path text => do
    let path := Path.ofString path
    makeParents path
    Act.change (fun disk p => disk.write p (Text.encode text)) path
  | append path text => do
    let path := Path.ofString path
    makeParents path
    Act.change (fun disk p => disk.append p (Text.encode text)) path
  | makeDirectory path =>
    let path := Path.ofString path
    Act.makeDirectories path.parts.length path
  | remove path => discard (Act.remove (.ofString path))
  | copy source target => do
    let bytes ← Act.ask Disk.readBytes (.ofString source)
    Act.change (fun disk p => disk.write p bytes) (.ofString target)
  | link path target =>
    Act.change (fun disk p => disk.makeLink p target) (.ofString path)

/-- Perform deeds in turn.  One that fails is named in the fault. -/
def performAll (deeds : List Deed) : Act σ Unit :=
  deeds.forM fun deed => do
    match ← Act.attempt deed.perform with
    | .ok _ => return ()
    | .error _ => throw (.foreign "RuntimeError" ("action " ++ deed.name ++ " failed"))

end Deed

namespace Rule

/-- The command starts with the words of the pattern. -/
def matchesWords : List (Option String) → List String → Bool
  | [], _ => true
  | _ :: _, [] => false
  | place :: places, word :: words =>
    place.all (· == word) && matchesWords places words

def fits (rule : Rule) (command : Command) : Bool :=
  rule.times != some 0
    && matchesWords rule.argv command.argv
    && rule.argHas.all (fun part =>
      command.argv.any fun arg => Text.contains part.toList arg.toList)
    && rule.inputHas.all (fun part =>
      command.input.any fun input => Text.contains part.toList input.toList)

/-- A text with the names of arguments replaced. -/
def expand (_ : Rule) (command : Command) (text : String) : String :=
  let named := command.argv.zipIdx.foldl
    (fun text (arg, index) => Text.replace ("\x7b" ++ toString index ++ "\x7d") arg text) text
  let last := Text.replace "\x7b-1\x7d" (command.argv.getLast?.getD "") named
  Text.replace "\x7bcwd\x7d" ((command.cwd.map Path.toString).getD "") last

end Rule

namespace Rehearsal

/-- Take the first rule that fits, and count its use. -/
def takeRule (command : Command) : List Rule → Option (Rule × List Rule)
  | [] => none
  | rule :: rest =>
    if rule.fits command then
      some (rule, { rule with times := rule.times.map (· - 1) } :: rest)
    else (takeRule command rest).map fun (found, rest) => (found, rule :: rest)

/-- The text of a regular file, if there is one. -/
def noteOf (disk : Disk) (path : Path) : Option String :=
  match disk.readBytes path with
  | .ok bytes => (Text.read bytes).toOption
  | .error _ => none

/-- Runs commands by the rules. -/
def runner : Runner Rehearsal := fun command disk rehearsal =>
  match takeRule command rehearsal.rules with
  | none =>
    (.ok { args := command.argv, stdout := some "" }, disk,
      { rehearsal with notes := rehearsal.notes ++ [none] })
  | some (rule, rules) =>
    let note := rule.shown.map fun path => noteOf disk (.ofString (rule.expand command path))
    let rehearsal : Rehearsal := ⟨rules, rehearsal.notes ++ [note]⟩
    let world : World Unit := { disk, tools := (), now := ⟨0, 0, 0, 0, 0, 0⟩ }
    match Deed.performAll (rule.deeds.map (·.map (rule.expand command))) world with
    | .error fault world => (.error fault, world.disk, rehearsal)
    | .ok _ world =>
      let result := match rule.ending with
        | .succeed stdout => .ok { args := command.argv, stdout := some stdout }
        | .fail detail status => .error (.command command.argv detail status)
        | .raise fault => .error fault
      (result, world.disk, rehearsal)

end Rehearsal

end Unscramble
