import Unscramble.Disk.Change
import Unscramble.Script.Basic
import Unscramble.TimeLimit

/-!
# What a running script knows and changes

A process has its own names, arguments and descriptors.  The disk, the streams that
descriptors lead to, and time are shared by all processes.

A command in the background stops where time has to pass, and goes on when it has
passed.  It goes on by running from its start once more, seeing what it has seen
before, up to where it stopped; only from there it sees and changes what is now shared.
-/

namespace Unscramble.Script

structure Variable where
  value : Option Octets := none
  exported : Bool := false
  readOnly : Bool := false

/-- A function, with the line that it starts in. -/
structure Definition where
  line : Nat
  body : Command

structure Process where
  /-- The name that the process was started by. -/
  name : Octets
  arguments : List Octets := []
  /-- The number under which the script knows itself. -/
  number : Nat
  parent : Nat := 1
  assigned : List (String × Variable) := []
  functions : List (String × Definition) := []
  /-- Letters of the options that are on. -/
  options : List Char := []
  status : Nat := 0
  /-- The line of the command that runs. -/
  line : Nat := 0
  /-- The first line of the function that runs. -/
  functionLine : Option Nat := none
  /-- The builtin command that runs. -/
  command : Option Octets := none
  /-- The streams that descriptors lead to. -/
  descriptors : List (Nat × Nat) := []
  /-- What is to be done at a signal; zero stands for the end. -/
  traps : List (Nat × Octets) := []
  /-- The loops around the command that runs. -/
  loops : Nat := 0
  /-- Values to be given back when functions end. -/
  locals : List (List (String × Option Variable)) := []
  /-- The background command started last. -/
  lastJob : Option Nat := none
  /-- The commands in the background that the process may wait for. -/
  jobs : List Nat := []
  /-- Those that it has waited for, each of which is remembered until its place is needed. -/
  waited : List Nat := []
  /-- The command in the background that the process runs. -/
  job : Option Nat := none
  /-- In a copy of a script's process: the signals that the script does something at. -/
  handled : Option (List Nat) := none
  /-- The process is nothing but the program that it runs. -/
  bare : Bool := false
  /-- Shells around this one. -/
  nesting : Nat := 0
  /-- What the commands inside the words of a command left as a status. -/
  innerStatus : Nat := 0
  /-- Documents of the text that has been read, and the number of the next one. -/
  documents : List (Nat × Word) := []
  nextDocument : Nat := 0
  /-- Functions that run inside one another. -/
  depth : Nat := 0
  /-- How far the letters of an option have been looked at. -/
  optionOffset : Nat := 0
  /-- The working directory as it has been named. -/
  directory : Octets := []
  /-- The line that the text of the script has been read up to. -/
  reached : Nat := 1
  mask : Octets := "0022".toList

/-- Text that waits to be read: its front, and what has been written after that, the last
piece first. -/
structure Queue where
  front : Octets := []
  back : List Octets := []
  /-- When the last one who writes has ended. -/
  closes : Nat := 0

namespace Queue

def text (queue : Queue) : Octets :=
  if queue.back.isEmpty then queue.front else queue.front ++ queue.back.reverse.flatten

def add (queue : Queue) (text : Octets) : Queue := { queue with back := text :: queue.back }

def drop (queue : Queue) (count : Nat) : Queue :=
  { queue with front := queue.text.drop count, back := [] }

end Queue

/-- Where descriptors lead to. -/
inductive Stream
  /-- Swallows what is written and holds nothing. -/
  | void
  /-- Read from its front and written at its end. -/
  | queue (queue : Queue)
  | file (loc : Loc) (offset : Nat) (mode : OpenMode)

/-- How far a command in the background has come. -/
inductive Progress
  /-- It goes on at a moment. -/
  | waiting (wake : Nat)
  | running
  | ended (status : Nat)
  | endless
deriving DecidableEq, Repr

/-- A command in the background. -/
structure Job where
  number : Nat
  /-- It is one program, so that a signal leaves nothing of it. -/
  bare : Bool
  progress : Progress
  /-- The streams that it holds open until it has ended, and until a moment at least. -/
  streams : List Nat
  release : Nat
  /-- The signals that it does something at itself. -/
  handled : List Nat := []
  /-- Its end has been noticed while something else was waited for. -/
  noticed : Bool := false

/-- What all processes share. -/
structure Common where
  disk : Disk
  streams : List (Nat × Stream) := []
  nextStream : Nat := 0
  nextNumber : Nat := 0
  jobs : List Job := []
  /-- Ticks spent so far. -/
  elapsed : Nat := 0
  /-- Signals to scripts and commands in the background, by their numbers. -/
  sent : List (Nat × Nat) := []

/-- How a command in the background is run. -/
structure Plan where
  number : Nat
  command : Command
  process : Process
  place : Standpoint
  /-- What was shared at its start and whenever it went on. -/
  history : List Common := []

structure Shell extends Common where
  process : Process
  plans : List Plan := []
  /-- In the background: what was shared when the command went on, from here on. -/
  replay : Option (List Common) := none
  limit : Option TimeLimit := none

/-- Why running stops before the end of a list of commands. -/
inductive Halt
  | exit
  /-- A fault that ends the script unless a builtin command has made it. -/
  | fault
  | signal (number : Nat)
  | overrun
  /-- In the background: until a moment, with the signals that something is done at. -/
  | suspended (wake : Nat) (handled : List Nat)
  /-- Leave so many loops. -/
  | leave (levels : Nat)
  /-- Go on with the next round of a loop, so many loops out. -/
  | again (levels : Nat)
  | return
deriving DecidableEq, Repr

/-- A step of a script. -/
abbrev Run := EStateM Halt Shell

/-! ## The process -/

def process : Run Process := return (← get).process

def modifyProcess (change : Process → Process) : Run Unit :=
  modify fun shell => { shell with process := change shell.process }

def setStatus (status : Nat) : Run Unit := modifyProcess fun p => { p with status }

def status : Run Nat := return (← process).status

namespace Process

def has (p : Process) (option : Char) : Bool := p.options.contains option

def setOption (p : Process) (option : Char) (on : Bool) : Process :=
  { p with options :=
      if on then (if p.has option then p.options else p.options ++ [option])
      else p.options.filter (· ≠ option) }

def variableOf? (p : Process) (name : String) : Option Variable := p.assigned.lookup name

/-- The value of a named variable. -/
def value? (p : Process) (name : String) : Option Octets :=
  (p.variableOf? name).bind Variable.value

/-- Set a variable: a known one stays in its place, a new one comes last. -/
def put (p : Process) (name : String) (entry : Variable) : Process :=
  { p with assigned :=
      if (p.variableOf? name).isSome then
        p.assigned.map fun v => if v.1 = name then (name, entry) else v
      else p.assigned ++ [(name, entry)] }

def drop (p : Process) (name : String) : Process :=
  { p with assigned := p.assigned.filter (·.1 ≠ name) }

/-- The variables that programs see. -/
def exports (p : Process) : List (String × Variable) :=
  p.assigned.filter fun v => v.2.exported && v.2.value.isSome

/-- The group that a variable belongs to by its name. -/
def groupOf (name : String) : Nat :=
  let codes := (Octets.ofString name).map Char.toNat
  (16 * codes.headD 0 + codes.foldl (· + ·) 0) % 39

/-- The process with its variables in the order of their groups, in which programs are
given them. -/
def arranged (p : Process) : Process :=
  { p with assigned :=
      p.assigned.mergeSort fun a b => decide (groupOf a.1 ≤ groupOf b.1) }

/-- Options that are shown as letters, in their order. -/
def optionLetters : List Char := "pubaCEVvxsnmiIfe".toList

end Process

/-- Run something in a process of its own, which starts as a copy: of the changes only
those to what is shared stay. -/
def inCopy {α : Type} (run : Run α) : Run α := fun shell =>
  let restore (after : Shell) : Shell :=
    { after with process := shell.process, disk := after.disk.leave }
  match run { shell with disk := shell.disk.enter shell.disk.cwd } with
  | .ok value after => .ok value (restore after)
  | .error halt after => .error halt (restore after)

/-- Restore a part of the state after running something, however it ends. -/
def ensuring {α : Type} (run : Run α) (restore : Shell → Shell) : Run α := fun shell =>
  match run shell with
  | .ok value after => .ok value (restore after)
  | .error halt after => .error halt (restore after)

/-- The result of running something, or why it stopped. -/
def attempt {α : Type} (run : Run α) : Run (Except Halt α) := fun shell =>
  match run shell with
  | .ok value after => .ok (.ok value) after
  | .error halt after => .ok (.error halt) after

/-- Repeat a step until it says that no other follows. -/
def iterate {σ : Type} (step : σ → Run (σ × Bool)) : (rounds : Nat) → σ → Run σ
  | 0, _ => throw .overrun
  | rounds + 1, s => do
    match ← step s with
    | (s, true) => iterate step rounds s
    | (s, false) => return s

/-! ## Time -/

/-- See what is shared as it is at another moment, from the same place. -/
def Shell.adopt (shell : Shell) (common : Common) : Shell :=
  let disk := { common.disk with cwd := shell.disk.cwd, waiting := shell.disk.waiting }
  { shell with toCommon := { common with disk } }

/-- Stop if the time is over. -/
def checkTime : Run Unit := do
  let shell ← get
  match shell.limit with
  | some limit => unless limit.allows shell.elapsed do throw .overrun
  | none => return ()

/-- Let time pass up to a moment.  In the background the command goes on later. -/
def waitUntil (moment : Nat) : Run Unit := do
  let shell ← get
  match shell.replay with
  | some (common :: rest) => set { shell.adopt common with replay := some rest }
  | some [] =>
    let p := shell.process
    throw (.suspended moment (if p.job.isSome then p.traps.map (·.1) else []))
  | none =>
    set { shell with elapsed := max shell.elapsed moment }
    checkTime

/-- Let time pass. -/
def spend (ticks : Nat) : Run Unit := do
  if ticks = 0 then checkTime else waitUntil ((← get).elapsed + ticks)

def setJob (job : Job) : Run Unit :=
  modify fun shell =>
    { shell with jobs := shell.jobs.filter (·.number ≠ job.number) ++ [job] }

/-- The command in the background that is to go on next, and when; none if its moment
has not come or the time is over before. -/
def Shell.nextJob? (shell : Shell) : Option (Job × Nat) :=
  let next? := shell.jobs.foldl (fun (best : Option (Job × Nat)) job =>
      match job.progress with
      | .waiting wake => if best.all (fun b => wake < b.2) then some (job, wake) else best
      | _ => best)
    none
  next?.filter fun next => next.2 ≤ shell.elapsed && shell.limit.all (·.allows next.2)

/-! ## Streams -/

/-- A new stream. -/
def openStream (stream : Stream) : Run Nat := do
  let shell ← get
  let number := shell.nextStream
  set { shell with
    streams := (number, stream) :: shell.streams
    nextStream := number + 1 }
  return number

def setStream (number : Nat) (stream : Stream) : Run Unit :=
  modify fun shell =>
    { shell with streams := (number, stream) :: shell.streams.filter (·.1 ≠ number) }

/-- The stream that a descriptor leads to. -/
def streamOf? (descriptor : Nat) : Run (Option (Nat × Stream)) := do
  let shell ← get
  return do
    let number ← shell.process.descriptors.lookup descriptor
    let stream ← shell.streams.lookup number
    return (number, stream)

/-- Lead a descriptor to a stream, or close it. -/
def point (descriptor : Nat) (target : Option Nat) : Run Unit :=
  modifyProcess fun p =>
    let others := p.descriptors.filter (·.1 ≠ descriptor)
    { p with descriptors := (target.map (descriptor, ·)).toList ++ others }

/-- Bytes with others in the place of those from an offset on. -/
def overlay (offset : Nat) (bytes old : Bytes) : Bytes :=
  let start := old.take offset
  start ++ List.replicate (offset - start.length) 0 ++ bytes ++ old.drop (offset + bytes.length)

/-- Write to a stream; tells whether it could be written to. -/
def writeTo (number : Nat) (text : Octets) : Run Bool := do
  match (← get).streams.lookup number with
  | none => return false
  | some .void => return true
  | some (.queue queue) =>
    setStream number (.queue (queue.add text))
    return true
  | some (.file loc offset mode) =>
    let bytes := Octets.toBytes text
    match mode with
    | .read => return false
    | .append =>
      modify fun shell => { shell with disk := shell.disk.alter loc (· ++ bytes) }
      return true
    | .write | .readWrite =>
      modify fun shell => { shell with disk := shell.disk.alter loc (overlay offset bytes) }
      setStream number (.file loc (offset + bytes.length) mode)
      return true

/-- Write to a descriptor. -/
def write (descriptor : Nat) (text : Octets) : Run Bool := do
  match (← process).descriptors.lookup descriptor with
  | none => return false
  | some number => writeTo number text

/-- What is left to be read from a descriptor; `none` if it cannot be read from. -/
def readable (descriptor : Nat) : Run (Option Octets) := do
  match ← streamOf? descriptor with
  | none => return none
  | some (_, .void) => return some []
  | some (_, .queue queue) => return some queue.text
  | some (_, .file loc offset mode) =>
    if mode = .write ∨ mode = .append then return none
    match (← get).disk.tree.get? loc with
    | some (.file bytes _) => return some (Octets.ofBytes (bytes.drop offset))
    | _ => return some []

/-- Pass over what has been read from a descriptor. -/
def advance (descriptor count : Nat) : Run Unit := do
  match ← streamOf? descriptor with
  | some (number, .queue queue) => setStream number (.queue (queue.drop count))
  | some (number, .file loc offset mode) => setStream number (.file loc (offset + count) mode)
  | _ => return ()

/-- Wait for the end of what can be read. -/
def awaitEnd (descriptor : Nat) : Run Unit := do
  match ← streamOf? descriptor with
  | some (_, .queue queue) => if (← get).elapsed < queue.closes then waitUntil queue.closes
  | _ => return ()

/-- Read all that is left. -/
def readAll (descriptor : Nat) : Run (Option Octets) := do
  awaitEnd descriptor
  match ← readable descriptor with
  | none => return none
  | some text =>
    advance descriptor text.length
    return some text

/-! ## Paths -/

/-- The path that a text names, which may be no file's name at all.  A slash at its end
asks for a directory. -/
def pathOf (s : Octets) : Except Refusal Path :=
  match Octets.toString? s with
  | none => .error .notFound
  | some "" => .error .notFound
  | some text =>
    let anchor := Path.anchorOf text.toList
    .ok ⟨anchor, Path.components (String.ofList (text.toList.drop (Path.Anchor.text anchor).length))⟩

/-- Ask the disk about the path that a text names. -/
def ask {α : Type} (question : Disk → Path → Except Refusal α) (s : Octets) :
    Run (Except Refusal α) := do
  let disk := (← get).disk
  return (pathOf s) >>= question disk

/-! ## Complaints -/

/-- Print a complaint of the shell itself. -/
def warn (text : Octets) : Run Unit := do
  let p ← process
  let command := match p.command with
    | some command => command ++ ": ".toList
    | none => []
  discard <| write 2
    (p.name ++ ": ".toList ++ Octets.decimal p.line ++ ": ".toList ++ command ++ text ++ ['\n'])

/-- Print a complaint and stop. -/
def failWith {α : Type} (text : Octets) : Run α := do
  warn text
  setStatus 2
  throw .fault

end Unscramble.Script
