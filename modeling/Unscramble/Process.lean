import Unscramble.Fault
import Unscramble.Script.Run
import Unscramble.World

/-!
# Processes

A command's program is looked up in the directories of a search path and started
in the command's directory.  A program that cannot be started, takes too long or ends
with another status than zero is a failure of the command.
-/

namespace Unscramble

open Text

/-- How commands are run. -/
structure Launcher where
  /-- Directories separated by colons. -/
  searchPath : String
  limit : Option TimeLimit := none
  /-- Other variables that programs see. -/
  assigned : List (String × String) := []
deriving DecidableEq, Repr

namespace Launcher

/-- The text of a path names a file that can be executed. -/
def isExecutable (disk : Disk) (text : String) : Bool :=
  match Script.pathOf (.ofString text) >>= disk.stat .followed with
  | .ok (.file _ access) => access.execute
  | _ => false

/-- A name in a directory, as text; an empty directory adds nothing. -/
def inDirectory (directory name : String) : String :=
  if directory = "" ∨ directory.toList.getLast? = some '/' then directory ++ name
  else directory ++ "/" ++ name

def directories (searchPath : String) : List String :=
  (searchPath.toList.splitOn ':').map String.ofList

/-- The program that a name stands for. -/
def lookUp (launcher : Launcher) (disk : Disk) (name : String) : Option String :=
  if name.toList.contains '/' then if isExecutable disk name then some name else none
  else if launcher.searchPath = "" then none
  else ((directories launcher.searchPath).map (inDirectory · name)).find? (isExecutable disk)

/-- Paths to try for a program; one without a directory is searched for again. -/
def candidates (launcher : Launcher) (program : String) : List String :=
  if program.toList.contains '/' then [program]
  else (directories launcher.searchPath).map (inDirectory · program)

/-- The first program that can be started; otherwise the first refusal that is not
about a missing file. -/
def loadFirst (disk : Disk) (args : List String) (held : Option Refusal) :
    List String → Except Refusal Script.Invocation
  | [] => .error (held.getD .notFound)
  | path :: rest =>
    match Script.load disk Script.loadMax (.ofString path) (args.map Script.Octets.ofString) with
    | .ok found => .ok found
    | .error why =>
      loadFirst disk args (if Script.isMissing why then held else held.or (some why)) rest

/-- Where a program is started. -/
def startDirectory (disk : Disk) : Option Path → Except Refusal Standpoint
  | none => .ok disk.cwd
  | some path => disk.directory path

/-- The text of a refusal, with what it is about. -/
def refusalText (why : Refusal) (subject : String) : String :=
  "[Errno " ++ toString why.number ++ "] " ++ why.text ++ ": " ++ subject

/-- How many characters of a failed command's errors are shown. -/
def detailMax : Nat := 200

def statusDetail (status : Int) (errors : String) : String :=
  let detail := String.ofList ((Text.trim errors.toList).take detailMax)
  let text := "exited with status " ++ toString status
  if detail = "" then text else text ++ ": " ++ detail

/-- The text of a captured stream. -/
def capture (bytes : Bytes) : Except Fault String :=
  match Text.read bytes with
  | .ok text => .ok text
  | .error what => .error (.malformed what)

/-- What becomes of a command whose program has ended.  How much time was left of
a limit is known only for captured commands. -/
def finish (launcher : Launcher) (command : Command) (program : String)
    (ending : Script.Ending) (out err : Bytes) : Except Fault Completed := do
  let status : Int ← match ending with
    | .status n => pure (n : Int)
    | .signal n => pure (-(n : Int))
    | .overrun =>
      let limit := if command.capture then (launcher.limit.map TimeLimit.text).getD "" else "N"
      throw (.command command.argv ("timed out after " ++ limit ++ "s") none)
  let args := program :: command.argv.tail
  if command.capture then
    let stdout ← capture out
    let stderr ← capture err
    if status = 0 then return { args, stdout := some stdout, stderr := some stderr }
    throw (.command command.argv (statusDetail status stderr) (some status))
  else if status = 0 then return { args }
  else throw (.command command.argv (statusDetail status "") (some status))

/-- The command's failure before its program has started. -/
def failedStart (command : Command) (detail : String) : Fault :=
  .command command.argv detail none

/-- Run a command on the disk. -/
def launch (launcher : Launcher) (command : Command) (disk : Disk) :
    Except Fault Completed × Disk :=
  match command.argv with
  | [] => (.error .noCommand, disk)
  | name :: args =>
    match launcher.lookUp disk name with
    | none => (.error (failedStart command (name ++ " not found on PATH")), disk)
    | some program =>
      if command.argv.any (·.toList.contains '\x00') ∨ command.cwd.any Path.hasNul then
        (.error (.refused .nul none none), disk)
      else
        match startDirectory disk command.cwd with
        | .error why =>
          let subject := (command.cwd.map Path.described).getD ""
          (.error (failedStart command (refusalText why subject)), disk)
        | .ok start =>
          let inside := disk.enter start
          match loadFirst inside args none (launcher.candidates program) with
          | .error why =>
            (.error (failedStart command (refusalText why (quoted program))), disk)
          | .ok invocation =>
            let input := command.input.getD ""
            let watched := command.capture || input ≠ ""
            match launcher.limit.bind (·.fault? watched) with
            | some why => (.error (.waiting why), disk)
            | none =>
              let outcome := Script.Launch.run
                { disk := inside
                  assigned := (("PATH", launcher.searchPath) :: launcher.assigned).map
                    fun (name, value) => (name, .ofString value)
                  input := .ofString input
                  limit := launcher.limit
                  captured := command.capture }
                invocation
              (launcher.finish command program outcome.ending outcome.out outcome.err,
                outcome.disk.leave)

/-- Runs commands as processes. -/
def runner {σ : Type} (launcher : Launcher) : Runner σ := fun command disk tools =>
  let (result, disk) := launcher.launch command disk
  (result, disk, tools)

end Launcher

end Unscramble
