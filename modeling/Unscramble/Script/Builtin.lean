import Unscramble.Script.Condition
import Unscramble.Script.Expansion
import Unscramble.Script.Format
import Unscramble.Script.Signal

/-!
# Builtin commands

Commands of the shell itself that need nothing but its state.  Each ends with a
status, unless it changes what runs next.
-/

namespace Unscramble.Script

namespace Builtin

/-- Print; a descriptor that leads nowhere is a fault of the output. -/
def print (text : Octets) : Run Nat := do
  if ← write 1 text then return 0
  let command := (← process).command.getD []
  warn (command ++ ": I/O error".toList)
  return 1

/-- A number that is not negative. -/
def number (s : Octets) : Run Nat :=
  match s.integer? with
  | some n =>
    if 0 ≤ n ∧ n < 0x80000000 then return n.toNat else failWith ("Illegal number: ".toList ++ s)
  | none => failWith ("Illegal number: ".toList ++ s)

/-- Letters of options before the other words; two dashes end them. -/
def options (known : List Char) : List Octets → Run (List Char × List Octets)
  | ['-', '-'] :: rest => return ([], rest)
  | ('-' :: c :: letters) :: rest => do
    match (c :: letters).find? fun letter => !known.contains letter with
    | some letter => failWith ("Illegal option -".toList ++ [letter])
    | none =>
      let (others, rest) ← options known rest
      return (c :: letters ++ others, rest)
  | args => return ([], args)

/-! ## Printing -/

def echo (args : List Octets) : Run Nat := print (printLine args)

def printf (args : List Octets) : Run Nat := do
  match (← options [] args).2 with
  | [] => failWith "usage: printf format [arg ...]".toList
  | format :: args =>
    let printing := printFormat format args
    printing.complaints.forM warn
    let printed ← print printing.out
    if printing.failed then
      setStatus 2
      throw .fault
    return max printed printing.status

def test (name : Octets) (args : List Octets) : Run Nat := do
  let words ←
    if name.head? = some '[' then
      if (args.getLast?.bind List.head?) = some ']' then pure args.dropLast
      else failWith "missing ]".toList
    else pure args
  match Condition.holds (← get).disk words with
  | .ok holds => return if holds then 0 else 1
  | .error text => failWith text

/-! ## Leaving -/

def leave (again : Bool) (args : List Octets) : Run Nat := do
  let levels ← match args with
    | [] => pure 1
    | word :: _ => do
      let n ← number word
      if n = 0 then failWith ("Illegal number: ".toList ++ word) else pure n
  match min levels (← process).loops with
  | 0 => return 0
  | levels =>
    setStatus 0
    throw (if again then .again levels else .leave levels)

/-- The status that a command is told to end with. -/
def statusOf (args : List Octets) : Run Nat :=
  match args with
  | [] => status
  | word :: _ => number word

def exit (args : List Octets) : Run Nat := do
  setStatus (← statusOf args)
  throw .exit

def comeBack (args : List Octets) : Run Nat := do
  setStatus (← statusOf args)
  throw .return

/-! ## Variables -/

/-- Text between single quotes that the shell reads back. -/
def requoted (s : Octets) : Octets :=
  '\'' :: (s.flatMap fun c => if c = '\'' then "'\"'\"'".toList else [c]) ++ ['\'']

/-- Lines that tell the values of variables. -/
def listing (start : String) (assigned : List (String × Variable)) : Octets :=
  let sorted := assigned.mergeSort fun a b => !decide (b.1 < a.1)
  sorted.flatMap fun (name, entry) =>
    let value := match entry.value with
      | some value => '=' :: requoted value
      | none => []
    start.toList ++ name.toList ++ value ++ ['\n']

/-- A name with a value or without one. -/
def nameAndValue (s : Octets) : String × Option Octets :=
  let name := s.takeWhile (· ≠ '=')
  match s.drop name.length with
  | _ :: value => (String.ofList name, some value)
  | [] => (String.ofList name, none)

/-- Mark variables; `export` and `readonly`. -/
def mark (command : String) (has : Variable → Bool) (change : Variable → Variable)
    (args : List Octets) : Run Nat := do
  let (letters, args) ← options ['p'] args
  if args = [] ∨ letters ≠ [] then
    print (listing (command ++ " ") ((← process).assigned.filter fun v => has v.2))
  else
    args.forM fun arg => do
      let (name, value) := nameAndValue arg
      match value with
      | some value => assignValue name value
      | none => if ¬ isName arg then refuseAssignment name "bad variable name"
      modifyProcess fun p => p.put name (change ((p.variableOf? name).getD {}))
    return 0

def unset (args : List Octets) : Run Nat := do
  let (letters, args) ← options ['v', 'f'] args
  args.forM fun arg => do
    let name := String.ofList arg
    if letters.getLast? = some 'f' then
      modifyProcess fun p => { p with functions := p.functions.filter (·.1 ≠ name) }
    else if ¬ isName arg then refuseAssignment name "bad variable name"
    else
      if ((← process).variableOf? name).any Variable.readOnly then
        refuseAssignment name "is read only"
      modifyProcess (·.drop name)
  return 0

/-- Remember what a variable is, to give it back when the function ends. -/
def keepLocal (name : String) : Run Unit :=
  modifyProcess fun p =>
    match p.locals with
    | frame :: frames =>
      if frame.any (·.1 = name) then p
      else { p with locals := ((name, p.variableOf? name) :: frame) :: frames }
    | [] => p

/-- Give back what variables were before. -/
def restoreLocals (frame : List (String × Option Variable)) (p : Process) : Process :=
  frame.foldl (fun p (name, old) =>
      match old with
      | some entry => p.put name entry
      | none => p.drop name)
    p

def makeLocal (args : List Octets) : Run Nat := do
  if (← process).functionLine.isNone then failWith "not in a function".toList
  args.forM fun arg => do
    if arg = ['-'] then return ()
    let (name, value) := nameAndValue arg
    if ¬ isName name.toList then refuseAssignment name "bad variable name"
    keepLocal name
    if let some value := value then assignValue name value
  return 0

/-- Options of the shell by their long names. -/
def longOptions : List (String × Char) :=
  [("errexit", 'e'), ("noglob", 'f'), ("ignoreeof", 'I'), ("interactive", 'i'), ("monitor", 'm'),
   ("noexec", 'n'), ("stdin", 's'), ("xtrace", 'x'), ("verbose", 'v'), ("vi", 'V'), ("emacs", 'E'),
   ("noclobber", 'C'), ("allexport", 'a'), ("notify", 'b'), ("nounset", 'u'),
   ("privileged", 'p'), ("nolog", 'L'), ("debug", 'D')]

/-- The settings of the options, for a reader or as commands that make them. -/
def optionSettings (asCommands : Bool) (p : Process) : Octets :=
  let lines := longOptions.map fun (name, letter) =>
    let on := p.has letter
    if asCommands then "set " ++ (if on then "-o " else "+o ") ++ name ++ "\n"
    else name.pushn ' ' (16 - name.length) ++ (if on then "on" else "off") ++ "\n"
  ((if asCommands then "" else "Current option settings\n") ++ String.join lines).toList

/-- Options at the start of the words: letters that are on or off, and the rest.  The
rest is given where it stands for the arguments, even with nothing in it. -/
def shellOptions : (fuel : Nat) → List Octets → Run (Option (List Octets))
  | 0, _ => return none
  | fuel + 1, args => do
    match args with
    | [] => return none
    | ['-'] :: rest =>
      modifyProcess fun p => (p.setOption 'x' false).setOption 'v' false
      return if rest = [] then none else some rest
    | ['-', '-'] :: rest => return some rest
    | (sign :: letters) :: rest =>
      if sign ≠ '-' ∧ sign ≠ '+' then return some args
      let on := decide (sign = '-')
      let rest ← letters.foldlM (fun rest letter => do
          if letter = 'o' then
            match rest with
            | [] =>
              discard <| print (optionSettings (!on) (← process))
              return []
            | name :: rest =>
              match longOptions.lookup (String.ofList name) with
              | some letter =>
                modifyProcess (·.setOption letter on)
                return rest
              | none => failWith ("Illegal option ".toList ++ [sign] ++ "o ".toList ++ name)
          else if Process.optionLetters.contains letter then
            modifyProcess (·.setOption letter on)
            return rest
          else failWith ("Illegal option ".toList ++ [sign, letter]))
        rest
      shellOptions fuel rest
    | args => return some args

def setOptions (args : List Octets) : Run Nat := do
  if args = [] then
    print (listing "" ((← process).assigned.filter fun v => v.2.value.isSome))
  else
    if let some arguments ← shellOptions (args.length + 1) args then
      modifyProcess fun p => { p with arguments }
    return 0

def shift (args : List Octets) : Run Nat := do
  let count ← match args with
    | [] => pure 1
    | word :: _ => number word
  if (← process).arguments.length < count then failWith "can't shift that many".toList
  modifyProcess fun p => { p with arguments := p.arguments.drop count }
  return 0

/-! ## Reading -/

/-- The start of a text up to the end of its first line; a backslash may take the end from
a line. -/
def firstLine (raw : Bool) : Octets → Octets
  | [] => []
  | '\n' :: _ => ['\n']
  | '\\' :: c :: rest =>
    if raw = true then (if c = '\n' then ['\\', '\n'] else '\\' :: firstLine raw (c :: rest))
    else '\\' :: c :: firstLine raw rest
  | c :: rest => c :: firstLine raw rest

/-- A line for `read`, as regions, and how many characters it took; and whether its end
was there. -/
def readRegions (raw : Bool) : (fuel : Nat) → Octets → List Region × Nat × Bool
  | 0, _ => ([], 0, false)
  | fuel + 1, s =>
    match s with
    | [] => ([], 0, false)
    | '\n' :: _ => ([], 1, true)
    | '\\' :: rest =>
      if raw then
        let (regions, taken, ended) := readRegions raw fuel rest
        (⟨.separators, [.char '\\' false]⟩ :: regions, taken + 1, ended)
      else
        match rest with
        | [] => ([], 1, false)
        | c :: rest =>
          let (regions, taken, ended) := readRegions raw fuel rest
          (if c = '\n' then regions else ⟨.whole, [.char c true]⟩ :: regions, taken + 2, ended)
    | _ :: _ =>
      let text := s.takeWhile fun c => c ≠ '\n' && c ≠ '\\'
      let (regions, taken, ended) := readRegions raw fuel (s.drop text.length)
      (⟨.separators, bitsOf false text⟩ :: regions, taken + text.length, ended)

/-- Neighbouring regions of one kind as one. -/
def joinRegions : List Region → List Region
  | ⟨.separators, a⟩ :: rest =>
    match joinRegions rest with
    | ⟨.separators, b⟩ :: others => ⟨.separators, a ++ b⟩ :: others
    | others => ⟨.separators, a⟩ :: others
  | region :: rest => region :: joinRegions rest
  | [] => []

/-- Read a line into variables; the last one takes what is left. -/
def read (args : List Octets) : Run Nat := do
  let rec readOptions : List Octets → Run (Bool × List Octets)
    | ['-', '-'] :: rest => return (false, rest)
    | ['-', 'r'] :: rest => do return (true, (← readOptions rest).2)
    | ['-', 'p'] :: _ :: rest => readOptions rest
    | ('-' :: c :: _) :: _ => failWith ("Illegal option -".toList ++ [c])
    | rest => return (false, rest)
  let (raw, names) ← readOptions args
  if names = [] then failWith "arg count".toList
  let text := firstLine raw ((← readable 0).getD [])
  let (regions, taken, ended) := readRegions raw (text.length + 1) text
  advance 0 taken
  unless ended do awaitEnd 0
  let fields := split (← process).separators (some names.length) (joinRegions regions)
  let values := fields.map fun field => field.filterMap Bit.char?
  names.zipIdx.forM fun (name, i) => assignValue (String.ofList name) (values.getD i [])
  return if ended then 0 else 1

/-- Give the next option of some words. -/
def getopts (args : List Octets) : Run Nat := do
  match args with
  | known :: name :: words =>
    let p ← process
    let words := if words = [] then p.arguments else words
    let index := max 1 (((p.value? "OPTIND").bind Octets.natural?).getD 1)
    let silent := decide (known.head? = some ':')
    let finish (index offset : Nat) (letter : Char) (status : Nat) : Run Nat := do
      assignValue "OPTIND" (Octets.decimal index)
      assignValue (String.ofList name) [letter]
      modifyProcess fun p => { p with optionOffset := offset }
      return status
    let current := if p.optionOffset = 0 then [] else (words.getD (index - 2) []).drop p.optionOffset
    let start? : Option (Nat × Nat × Octets) :=
      match current with
      | c :: rest => some (index, p.optionOffset, c :: rest)
      | [] =>
        match words[index - 1]? with
        | some ('-' :: c :: rest) =>
          if c = '-' ∧ rest = [] then none else some (index + 1, 1, c :: rest)
        | _ => none
    match start? with
    | none =>
      let index := if words[index - 1]? = some ['-', '-'] ∧ current = [] then index + 1 else index
      finish index 0 '?' 1
    | some (_, _, []) => finish index 0 '?' 1
    | some (index, offset, c :: rest) =>
      let offset := if rest = [] then 0 else offset + 1
      let after := (known.dropWhile (· = ':')).dropWhile (· ≠ c)
      match after with
      | [] =>
        if silent then assignValue "OPTARG" [c]
        else
          discard <| write 2 ("Illegal option -".toList ++ [c, '\n'])
          modifyProcess (·.drop "OPTARG")
        finish index offset '?' 0
      | _ :: ':' :: _ =>
        if rest ≠ [] then
          assignValue "OPTARG" rest
          finish index 0 c 0
        else
          match words[index - 1]? with
          | some word =>
            assignValue "OPTARG" word
            finish (index + 1) 0 c 0
          | none =>
            if silent then
              assignValue "OPTARG" [c]
              finish index 0 ':' 0
            else
              discard <| write 2 ("No arg for -".toList ++ [c] ++ " option\n".toList)
              modifyProcess (·.drop "OPTARG")
              finish index 0 '?' 0
      | _ =>
        assignValue "OPTARG" []
        finish index offset c 0
  | _ => failWith "Usage: getopts optstring var [arg]".toList

/-! ## Places -/

/-- A path with its dots worked in, starting from a directory. -/
def named (directory path : Octets) : Octets :=
  let start := if path.head? = some '/' then [] else (directory.splitOn '/').filter (· ≠ [])
  let names := (path.splitOn '/').foldl (fun names name =>
      if name = [] ∨ name = ['.'] then names
      else if name = ['.', '.'] then names.dropLast
      else names ++ [name])
    start
  '/' :: ['/'].intercalate names

/-- The path of the working directory on the disk, if it is there. -/
def physical : Run (Option Octets) := do
  return (← get).disk.workingLoc?.map fun loc => Octets.ofString ("/" ++ "/".intercalate loc)

def cd (args : List Octets) : Run Nat := do
  let (letters, args) ← options ['L', 'P'] args
  let p ← process
  let back := decide (args.head? = some ['-'])
  let target := match args.head? with
    | none => (p.value? "HOME").getD []
    | some target => if back then (p.value? "OLDPWD").getD p.directory else target
  let target := if target = [] then ['.'] else target
  let physically := decide (letters.getLast? = some 'P')
  let path := if physically then target else named p.directory target
  match ← ask Disk.directory path with
  | .error _ => failWith ("can't cd to ".toList ++ target)
  | .ok cwd =>
    modify fun shell => { shell with disk := { shell.disk with cwd } }
    let found ← physical
    let directory := if physically then found.getD path else path
    modifyProcess fun p =>
      let old := (p.variableOf? "OLDPWD").getD {}
      let new := (p.variableOf? "PWD").getD {}
      { (p.put "OLDPWD" { old with value := some p.directory, exported := true }).put "PWD"
          { new with value := some directory, exported := true } with directory }
    if back then print (directory ++ ['\n']) else return 0

def pwd (args : List Octets) : Run Nat := do
  let (letters, _) ← options ['L', 'P'] args
  let found ← physical
  let p ← process
  let directory := if letters.getLast? = some 'P' then found.getD [] else p.directory
  print (directory ++ ['\n'])

/-- The rights that a mask leaves, by the letters of those who have them. -/
def remainingRights (mask : Octets) : Octets :=
  let left := 511 - Arithmetic.valueOf 8 mask
  let rights (who : Char) (divisor : Nat) : Octets :=
    let three := left / divisor % 8
    who :: '=' :: ((if three / 4 % 2 = 1 then ['r'] else [])
      ++ (if three / 2 % 2 = 1 then ['w'] else []) ++ (if three % 2 = 1 then ['x'] else []))
  [','].intercalate [rights 'u' 64, rights 'g' 8, rights 'o' 1]

/-- The rights that new files lack are kept and shown, and change nothing. -/
def umask (args : List Octets) : Run Nat := do
  let (letters, args) ← options ['S'] args
  match args with
  | [] =>
    let mask := (← process).mask
    print ((if letters = [] then mask else remainingRights mask) ++ ['\n'])
  | mode :: _ =>
    if mode ≠ [] ∧ mode.all isOctal then
      let digits := Nat.toDigits 8 (Arithmetic.valueOf 8 mode % 512)
      modifyProcess fun p => { p with mask := List.replicate (4 - digits.length) '0' ++ digits }
      return 0
    else
      let what := if mode.head?.any Char.isDigit then "number" else "mode"
      failWith (("Illegal " ++ what ++ ": ").toList ++ mode)

/-! ## Signals and jobs -/

/-- Send a signal to a process; tells whether there is one. -/
def send (signal target : Nat) : Run Bool := do
  let shell ← get
  let p := shell.process
  if target = p.number then
    let handled := p.handled.getD (p.traps.map (·.1))
    if handled.contains signal then
      modify fun shell => { shell with sent := shell.sent ++ [(target, signal)] }
      return true
    else if Signal.isHarmless signal then return true
    else throw (.signal signal)
  else
    let isThere (job : Job) : Bool := match job.progress with
      | .ended _ => false
      | _ => decide (job.number = target)
    match shell.jobs.find? isThere with
    | none => return false
    | some job =>
      if job.handled.contains signal then
        modify fun shell => { shell with sent := shell.sent ++ [(target, signal)] }
      else if ¬ Signal.isHarmless signal then
        let release := if job.bare then shell.elapsed else job.release
        setJob { job with progress := .ended (128 + signal), release }
      return true

def kill (args : List Octets) : Run Nat := do
  let usage : Run Nat := failWith
    ("Usage: kill [-s sigspec | -signum | -sigspec] [pid | job]... or\n"
      ++ "kill -l [exitstatus]").toList
  let sendAll (signal : Nat) (targets : List Octets) : Run Nat := do
    if targets = [] then usage
    else
      targets.foldlM (fun status target => do
          let n ← number (if target.head? = some '-' then target.tail else target)
          if ← send signal n then return status
          warn "No such process\n".toList
          return 1)
        0
  match args with
  | [] => usage
  | ('-' :: word) :: rest =>
    match Signal.ofText? Signal.names word with
    | some signal => sendAll signal rest
    | none =>
      match word, rest with
      | ['-'], rest => sendAll 15 rest
      | ['s'], name :: rest =>
        match Signal.ofText? Signal.names name with
        | some signal => sendAll signal rest
        | none => failWith ("invalid signal number or name: ".toList ++ name)
      | ['l'], [] =>
        let names := (List.range Signal.count).map fun n =>
          if n = 0 then "0" else Signal.name n
        print ("\n".intercalate names ++ "\n").toList
      | ['l'], word :: _ =>
        let n ← number word
        print (Signal.name (if 128 < n then n - 128 else n) ++ "\n").toList
      | c :: _, _ => failWith ("Illegal option -".toList ++ [c])
      | [], _ => usage
  | targets => sendAll 15 targets

/-- Say what is to be done at signals. -/
def trap (args : List Octets) : Run Nat := do
  let known := Signal.ending :: Signal.names
  let (_, args) ← options [] args
  match args with
  | [] =>
    let traps := (← process).traps.mergeSort fun a b => a.1 ≤ b.1
    print (traps.flatMap fun (signal, action) =>
      "trap -- ".toList ++ requoted action ++ ' ' :: (Signal.name signal).toList ++ ['\n'])
  | first :: others =>
    let resets := others = [] || (Octets.natural? first).isSome
    let action? := if resets ∨ first = ['-'] then none else some first
    (if resets then args else others).foldlM (fun status word => do
        match Signal.ofText? known word with
        | some signal =>
          modifyProcess fun p => { p with
            traps := (action?.map (signal, ·)).toList ++ p.traps.filter (·.1 ≠ signal) }
          return status
        | none =>
          discard <| write 2 ("trap: ".toList ++ word ++ ": bad trap\n".toList)
          return 1)
      0

/-- Jobs are not taken up again. -/
def resumeJob (_ : List Octets) : Run Nat := do
  if (← process).jobs = [] then failWith "No current job".toList else return 0

/-! ## Names -/

/-- Builtin commands whose faults do not end a script. -/
def ordinary : List String :=
  ["[", "alias", "bg", "cd", "chdir", "command", "echo", "false", "fg", "getopts", "hash", "jobs",
   "kill", "printf", "pwd", "read", "test", "true", "type", "ulimit", "umask", "unalias",
   "wait"]

/-- Run a builtin command that needs nothing but the state. -/
def run? (name : Octets) (args : List Octets) : Option (Run Nat) :=
  match String.ofList name with
  | ":" | "true" => some (pure 0)
  | "false" => some (pure 1)
  | "echo" => some (echo args)
  | "printf" => some (printf args)
  | "test" | "[" => some (test name args)
  | "break" => some (leave false args)
  | "continue" => some (leave true args)
  | "exit" => some (exit args)
  | "return" => some (comeBack args)
  | "export" => some (mark "export" Variable.exported ({ · with exported := true }) args)
  | "readonly" => some (mark "readonly" Variable.readOnly ({ · with readOnly := true }) args)
  | "unset" => some (unset args)
  | "local" => some (makeLocal args)
  | "set" => some (setOptions args)
  | "shift" => some (shift args)
  | "read" => some (read args)
  | "getopts" => some (getopts args)
  | "cd" | "chdir" => some (cd args)
  | "pwd" => some (pwd args)
  | "umask" => some (umask args)
  | "kill" => some (kill args)
  | "trap" => some (trap args)
  | "bg" | "fg" => some (resumeJob args)
  | "alias" | "jobs" | "ulimit" | "unalias" | "times" => some (pure 0)
  | _ => none

end Builtin

end Unscramble.Script
