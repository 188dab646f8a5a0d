import Unscramble.Script.Program

/-!
# Running scripts

Commands run one after another and leave a status each.  What runs in a process of its
own, a command between brackets for one, starts with a copy of what the script knows,
and of its changes only those to the disk and the streams stay.  Commands that feed one
another run one after another as well; only their time passes together.
-/

namespace Unscramble.Script

/-- How often a loop may be repeated before it is taken to run for ever; that is soon
where somebody has given it a limit. -/
def roundMax (limited : Bool) : Nat := if limited then 10000 else 1000000

/-- Repeat a step that does not go on for ever. -/
def repeatStep {σ : Type} (step : σ → Run (σ × Bool)) (s : σ) : Run σ := do
  iterate step (roundMax (← get).limit.isSome) s

/-- How deep functions may run inside one another. -/
def depthMax : Nat := 1000

/-! ## Ends -/

/-- Run a part of a loop.  Where it is left on the way, the result tells whether the
loop goes on. -/
def inLoop {α : Type} (run : Run α) : Run (Except Bool α) := do
  match ← attempt run with
  | .ok value => return .ok value
  | .error (.leave levels) => if levels ≤ 1 then return .error false else throw (.leave (levels - 1))
  | .error (.again levels) => if levels ≤ 1 then return .error true else throw (.again (levels - 1))
  | .error halt => throw halt

/-- Run something that may be left by `return`. -/
def inFunction (run : Run Unit) : Run Unit := do
  match ← attempt run with
  | .ok _ | .error .return => return ()
  | .error halt => throw halt

/-- The script itself ends here; otherwise something outside of it has ended or stopped it. -/
def Halt.isOwn : Halt → Bool
  | .signal _ | .overrun | .suspended .. => false
  | _ => true

/-- Run a script to its end and do what it wants done there: the status of it all. -/
def conclude (act : Octets → Run Unit) (body : Run Unit) : Run Nat := do
  match ← attempt body with
  | .error halt => unless halt.isOwn do throw halt
  | .ok _ => pure ()
  let last ← status
  match (← process).traps.lookup 0 with
  | none => return last
  | some action =>
    modifyProcess fun p => { p with traps := p.traps.filter (·.1 ≠ 0) }
    match ← attempt (act action) with
    | .error .exit => status
    | .error halt => if halt.isOwn then return last else throw halt
    | .ok _ => return last

/-- Say that a signal has ended a process; the status that this counts as. -/
def announce (signal : Nat) : Run Nat := do
  unless Signal.isSilent signal do
    discard <| write 2 (Signal.description signal ++ "\n").toList
  return 128 + signal

/-- Run a program in a process of its own; a signal ends it and nothing else. -/
def separate (run : Run Nat) : Run Nat := do
  let bare := (← process).bare
  match ← attempt (inCopy run) with
  | .ok status => return status
  | .error (.signal number) => if bare then return 128 + number else announce number
  | .error halt => throw halt

/-! ## Redirects -/

/-- A redirect with its words expanded. -/
inductive Target
  | file (descriptor : Nat) (mode : OpenMode) (name : Octets)
  | copy (descriptor : Nat) (source : Option Nat)
  | text (descriptor : Nat) (text : Octets)
  /-- A document that could not be expanded. -/
  | broken (descriptor : Nat)

def Target.descriptor : Target → Nat
  | .file descriptor .. | .copy descriptor .. | .text descriptor .. | .broken descriptor =>
    descriptor

/-- Why a file cannot be opened. -/
def openText (making : Bool) (why : Refusal) : String :=
  if isMissing why then (if making then "Directory nonexistent" else "No such file") else why.text

/-- Files of the system that stand for descriptors. -/
def deviceDescriptor? (name : Octets) : Option Nat :=
  match String.ofList name with
  | "/dev/stdin" | "/dev/fd/0" => some 0
  | "/dev/stdout" | "/dev/fd/1" => some 1
  | "/dev/stderr" | "/dev/fd/2" => some 2
  | _ => none

/-- Open a file as a stream; the text of a refusal is printed. -/
def openFile (mode : OpenMode) (name : Octets) : Run (Option Stream) := do
  let making := mode ≠ .read
  let refused (text : String) : Run (Option Stream) := do
    warn (("cannot " ++ (if making then "create " else "open ")).toList ++ name ++ ": ".toList
      ++ text.toList)
    return none
  if Condition.isDevice name then return some .void
  match mode with
  | .read =>
    match ← ask (fun disk path => disk.find .followed path) name with
    | .ok (.present loc (.file _ access)) =>
      if access.read then return some (.file loc 0 .read) else refused Refusal.denied.text
    | .ok (.present loc .directory) => return some (.file loc 0 .read)
    | .ok (.vacant _) => refused (openText false .notFound)
    | .ok _ => return some .void
    | .error why => refused (openText false why)
  | mode =>
    let exists? := (← ask (fun disk path => disk.stat .followed path) name).isOk
    if (← process).has 'C' ∧ mode = .write ∧ exists? then return ← refused "File exists"
    match ← ask Disk.create name with
    | .ok (loc, disk) =>
      let disk := if mode = .write then disk.alter loc fun _ => [] else disk
      modify fun shell => { shell with disk }
      return some (.file loc 0 mode)
    | .error why => refused (openText true why)

/-- A word that should name a descriptor and does not. -/
def badDescriptor : Run Target := do
  modifyProcess fun p => { p with line := p.reached }
  failWith "Syntax error: Bad fd number".toList

/-- Redirect one descriptor; tells whether that was possible. -/
def Target.apply : Target → Run Bool
  | .file descriptor mode name => do
    match deviceDescriptor? name with
    | some source =>
      point descriptor ((← process).descriptors.lookup source)
      return true
    | none =>
      match ← openFile mode name with
      | some stream =>
        point descriptor (some (← openStream stream))
        return true
      | none => return false
  | .copy descriptor none => do
    point descriptor none
    return true
  | .copy descriptor (some source) => do
    match (← process).descriptors.lookup source with
    | some stream =>
      point descriptor (some stream)
      return true
    | none =>
      warn (Octets.decimal source ++ ": Bad file descriptor".toList)
      return false
  | .text descriptor content => do
    point descriptor (some (← openStream (.queue { front := content })))
    return true
  | .broken _ => return false

/-- Redirect descriptors in turn, up to the first one that cannot be. -/
def applyAll (targets : List Target) : Run Bool :=
  targets.foldlM (fun going target => if going then target.apply else pure false) true

/-- Lead descriptors to where they led before. -/
def restoreDescriptors (targets : List Target) (old : List (Nat × Nat)) (p : Process) : Process :=
  let touched := targets.map Target.descriptor
  { p with descriptors :=
      old.filter (fun d => touched.contains d.1)
        ++ p.descriptors.filter fun d => !touched.contains d.1 }

/-- Streams that a command in the background holds open until it ends. -/
def heldStreams (descriptors : List (Nat × Nat)) : Command → List Nat
  | .simple _ _ _ redirects | .subshell _ _ redirects =>
    let after := redirects.foldl (fun (held : List (Nat × Nat)) redirect =>
        match redirect with
        | .file descriptor _ _ | .document descriptor _ => held.filter (·.1 ≠ descriptor)
        | .copy descriptor source =>
          let others := held.filter (·.1 ≠ descriptor)
          match source with
          | [.text _ chars] =>
            match (Octets.natural? chars).bind fun n => held.lookup n with
            | some stream => (descriptor, stream) :: others
            | none => others
          | _ => others)
      descriptors
    after.map (·.2)
  | _ => descriptors.map (·.2)

/-! ## Kinds of commands -/

/-- What the first word of a command names. -/
inductive Kind
  | nothing
  | function (definition : Definition)
  | special
  | ordinary
  | program

/-- The words without `command` before them, and whether it was there. -/
def withoutCommand : List Octets → Bool × List Octets
  | [] => (false, [])
  | word :: rest =>
    if word ≠ "command".toList then (false, word :: rest)
    else
      match rest with
      | ['-', 'p'] :: name :: rest | ['-', '-'] :: name :: rest =>
        (true, (withoutCommand (name :: rest)).2)
      | ('-' :: _) :: _ | [] => (false, word :: rest)
      | name :: rest => (true, (withoutCommand (name :: rest)).2)

def kindOf (p : Process) (plain : Bool) : List Octets → Kind
  | [] => .nothing
  | word :: _ =>
    let name := String.ofList word
    match if plain then none else p.functions.lookup name with
    | some definition => .function definition
    | none =>
      if specialBuiltins.contains name then if plain then .ordinary else .special
      else if Builtin.ordinary.contains name then .ordinary
      else .program

/-- Builtin commands whose words can be assignments. -/
def takesAssignments (words : List Octets) : Bool :=
  match (withoutCommand words).2 with
  | word :: _ => ["export", "readonly", "local"].contains (String.ofList word)
  | [] => false

/-- Why a shell cannot read the file of its script. -/
def scriptText (disk : Disk) (path : Octets) : Except String Octets :=
  match pathOf path >>= disk.stat .followed with
  | .ok (.file bytes access) =>
    if access.read then .ok (Octets.ofBytes bytes) else .error (openText false .denied)
  | .ok _ => .ok []
  | .error why => .error (openText false why)

/-! ## Signals and commands in the background -/

/-- The number under which signals reach the process itself. -/
def address? (p : Process) : Option Nat := if p.handled.isSome then p.job else some p.number

/-- The signals that have come since the last time. -/
def arrived : Run (List Nat) := do
  let shell ← get
  match address? shell.process with
  | some number => return (shell.sent.filter (·.1 = number)).map (·.2)
  | none => return []

def takeSignals : Run (List Nat) := do
  let signals ← arrived
  unless signals = [] do
    let own := address? (← process)
    modify fun shell => { shell with sent := shell.sent.filter fun s => some s.1 ≠ own }
  return signals

/-- Make room for another process: a command in the background that has been waited for
is forgotten. -/
def makeRoom : Run Unit :=
  modifyProcess fun p =>
    match p.jobs.find? p.waited.contains with
    | some number => { p with jobs := p.jobs.filter (· ≠ number) }
    | none => p

/-- Notice which commands in the background have ended. -/
def noticeEnds : Run Unit :=
  modify fun shell => { shell with
    jobs := shell.jobs.map fun (job : Job) =>
      match job.progress with
      | .ended _ => { job with noticed := true }
      | _ => job }

/-- How often a command in the background goes on before it is taken to run for ever. -/
def resumeMax : Nat := 500

/-- How many shells may run inside one another before they are taken to do so for ever. -/
def nestingMax : Nat := 250

/-- Leave a command to the background, where it starts as soon as something is waited for. -/
def leaveBehind (command : Command) : Run Unit := do
  makeRoom
  let shell ← get
  let number := shell.nextNumber
  let bare : Bool := match command with
    | .simple .. => true
    | _ => false
  let job : Job := {
    number, bare
    progress := .waiting shell.elapsed
    streams := heldStreams shell.process.descriptors command
    release := shell.elapsed }
  let plan : Plan := {
    number
    command := match command with
      | .subshell line body redirects => .redirected line (.group body) redirects
      | command => command
    process := { shell.process with bare }
    place := shell.disk.cwd }
  set { shell with
    nextNumber := number + 1
    jobs := shell.jobs ++ [job]
    plans := if shell.plans.any (·.number = number) then shell.plans else shell.plans ++ [plan] }
  modifyProcess fun p => { p with lastJob := some number, jobs := p.jobs ++ [number] }
  setStatus 0

/-! ## Texts -/

/-- Show what has been read of a text, if that is asked for. -/
def showRead (text rest : Octets) : Run Unit := do
  if (← process).has 'v' then discard <| write 2 (text.take (text.length - rest.length))

/-! ## Pipelines -/

/-- The text that waits in a stream. -/
def waitingText (number? : Option Nat) : Run Octets := do
  let shell ← get
  match number?.bind fun number => shell.streams.lookup number with
  | some (.queue queue) => return queue.text
  | _ => return []

/-- The one who writes to a stream has ended. -/
def closeAt (number? : Option Nat) (moment : Nat) : Run Unit := do
  if let some number := number? then
    if let some (.queue queue) := (← get).streams.lookup number then
      setStream number (.queue { queue with closes := moment })

mutual

/-- Run commands one after another.  `tested` holds where a failure is looked at. -/
def runCommands (tested : Bool) : (fuel : Nat) → List Command → Run Unit
  | 0, _ => throw (.signal 11)
  | fuel + 1, commands => commands.forM (runCommand tested fuel)

def runCommand (tested : Bool) : (fuel : Nat) → Command → Run Unit
  | 0, _ => throw (.signal 11)
  | fuel + 1, command => do
    if (← process).has 'n' then return ()
    runTraps fuel
    let checked ← match command with
      | .simple line assignments words redirects => do
        runSimple tested line assignments words redirects fuel
        pure true
      | .pipeline commands => do
        runPipeline tested commands fuel
        pure true
      | .negation inner => do
        runCommand true fuel inner
        setStatus (if (← status) = 0 then 1 else 0)
        pure false
      | .andThen first second => do
        runCommand true fuel first
        if (← status) = 0 then runCommand tested fuel second
        pure false
      | .orElse first second => do
        runCommand true fuel first
        if (← status) ≠ 0 then runCommand tested fuel second
        pure false
      | .background inner => do
        leaveBehind inner
        pure true
      | .subshell line body redirects => do
        modifyProcess fun p => { p with line }
        let targets ← redirects.mapM (resolve · fuel)
        setStatus (← inSubshell (do
          if ← applyAll targets then runCommands tested fuel body
          else
            setStatus 2
            throw .fault) fuel)
        pure true
      | .redirected line body redirects => do
        modifyProcess fun p => { p with line }
        let applied ← withRedirects false redirects (runCommand tested fuel body) fuel
        unless applied do setStatus 2
        pure false
      | .group body => do
        runCommands tested fuel body
        pure false
      | .branch test yes no => do
        runCommands true fuel test
        if (← status) = 0 then runCommands tested fuel yes
        else if no.isEmpty then setStatus 0
        else runCommands tested fuel no
        pure false
      | .loop untilTrue test body => do
        runLoop tested untilTrue test body fuel
        pure false
      | .each line name words body => do
        modifyProcess fun p => { p with line }
        runEach tested name words body fuel
        pure false
      | .choose line subject arms => do
        modifyProcess fun p => { p with line }
        runChoice tested subject arms fuel
        pure false
      | .define line name body => do
        modifyProcess fun p =>
          { p with functions := (name, ⟨line, body⟩) :: p.functions.filter (·.1 ≠ name) }
        setStatus 0
        pure false
    runTraps fuel
    if checked ∧ ¬ tested ∧ (← process).has 'e' ∧ (← status) ≠ 0 then throw .exit
termination_by structural fuel => fuel

/-- Do what is to be done at signals that have come. -/
def runTraps : (fuel : Nat) → Run Unit
  | 0 => return ()
  | fuel + 1 => do
    let signals ← takeSignals
    unless signals = [] do
      signals.forM fun signal => do
        let last ← status
        match (← process).traps.lookup signal with
        | some action =>
          discard <| runText false false action fuel
          setStatus last
        | none => return ()
termination_by structural fuel => fuel

/-- Run a text line by line; the status of its last command.  Lines of a file may be
shown as they are read. -/
def runText (tested fromFile : Bool) (text : Octets) : (fuel : Nat) → Run Nat
  | 0 => throw (.signal 11)
  | fuel + 1 => do
    let reached := (← process).reached
    let step (state : Source × Nat) : Run ((Source × Nat) × Bool) := do
      let (source, last) := state
      let next := (← process).nextDocument
      let read : Except SyntaxFault _ :=
        readLine.run { source with nextNumber := next, documents := [] }
      if let .ok (_, after) := read then
        if fromFile then showRead source.rest after.rest
      match read with
      | .error fault =>
        if fromFile then
          let lines := linesOf source.rest
          showRead (lines.take (fault.line + 1 - source.line)).flatten []
        modifyProcess fun p => { p with line := fault.line }
        failWith ("Syntax error: ".toList ++ fault.text.toList)
      | .ok (none, source) => return ((source, last), false)
      | .ok (some commands, source) =>
        modifyProcess fun p => { p with
          documents := source.documents ++ p.documents
          nextDocument := source.nextNumber
          reached := source.line }
        runCommands tested fuel commands
        let now ← status
        return ((source, if commands.isEmpty then last else now), true)
    let (_, last) ← ensuring (iterate step (text.length + 2) ({ rest := text }, 0)) fun shell =>
      { shell with process := { shell.process with reached } }
    return last
termination_by structural fuel => fuel

/-- Run a body in a copy of the shell. -/
def inSubshell (body : Run Unit) : (fuel : Nat) → Run Nat
  | 0 => throw (.signal 11)
  | fuel + 1 => do
    makeRoom
    runJobs fuel
    inCopy do
      modifyProcess fun p => { p with
        traps := p.traps.filter (·.2 = [])
        handled := some (p.handled.getD (p.traps.map (·.1)))
        jobs := []
        job := none }
      conclude (fun action => discard (runText false false action fuel)) body
termination_by structural fuel => fuel

/-- Let commands in the background go on whose moments have come. -/
def runJobs : (fuel : Nat) → Run Unit
  | 0 => return ()
  | fuel + 1 => do
    if (← get).replay.isSome then return ()
    let step (_ : Unit) : Run (Unit × Bool) := do
      match (← get).nextJob? with
      | some (job, wake) =>
        resume job wake fuel
        return ((), true)
      | none => return ((), false)
    repeatStep step ()
termination_by structural fuel => fuel

/-- Let a command in the background go on at a moment, up to where it waits again. -/
def resume (job : Job) (wake : Nat) : (fuel : Nat) → Run Unit
  | 0 => throw (.signal 11)
  | fuel + 1 => do
    setJob { job with progress := .running }
    let before ← get
    match before.plans.find? (·.number = job.number) with
    | none => setJob { job with progress := .endless }
    | some plan =>
      let now := { before.toCommon with elapsed := wake }
      let first := plan.history.headD now
      let others := if plan.history = [] then [] else plan.history.tail ++ [now]
      set { before with
        toCommon := { first with disk := first.disk.enter plan.place }
        process := plan.process
        replay := some others }
      let outcome ← attempt (inSubshell (do
        modifyProcess fun p => { p with job := some job.number }
        point 0 (some (← openStream .void))
        runCommand false fuel plan.command) fuel)
      let after ← get
      set { after with
        process := before.process
        elapsed := before.elapsed
        disk := { after.disk with cwd := before.disk.cwd, waiting := before.disk.waiting }
        plans := after.plans.map fun (other : Plan) =>
          if other.number = job.number then { other with history := plan.history ++ [now] }
          else other
        replay := none }
      match outcome with
      | .ok status => setJob { job with progress := .ended status, release := after.elapsed }
      | .error (.suspended wake handled) =>
        let goesOn := plan.history.length < resumeMax
        setJob { job with
          progress := if goesOn then .waiting wake else .endless
          release := wake
          handled }
      | .error (.signal signal) =>
        setJob { job with progress := .ended (128 + signal), release := after.elapsed }
        throw (.signal signal)
      | .error _ => setJob { job with progress := .endless }
termination_by structural fuel => fuel

/-- The status of a command in the background after its end; none if a signal comes
before. -/
def awaitJob (number : Nat) : (fuel : Nat) → Run (Option Nat)
  | 0 => throw (.signal 11)
  | fuel + 1 => do
    let step (_ : Option Nat) : Run (Option Nat × Bool) := do
      if (← arrived) ≠ [] then return (none, false)
      match ((← get).jobs.find? (·.number = number)).map Job.progress with
      | some (.ended status) => return (some status, false)
      | some (.waiting wake) =>
        waitUntil wake
        runJobs fuel
        return (none, true)
      | some _ => throw .overrun
      | none => return (some 127, false)
    repeatStep step none
termination_by structural fuel => fuel

/-- Wait until no command in the background holds one of some streams open. -/
def awaitStreams (streams : List Nat) : (fuel : Nat) → Run Unit
  | 0 => throw (.signal 11)
  | fuel + 1 => do
    let step (_ : Unit) : Run (Unit × Bool) := do
      let shell ← get
      let holds (job : Job) : Bool := job.streams.any streams.contains && (match job.progress with
        | .ended _ => decide (shell.elapsed < job.release)
        | _ => true)
      match shell.jobs.find? holds with
      | none => return ((), false)
      | some job =>
        match job.progress with
        | .waiting moment =>
          waitUntil moment
          runJobs fuel
        | .ended _ => waitUntil job.release
        | _ => throw .overrun
        return ((), true)
    repeatStep step ()
termination_by structural fuel => fuel

/-- Wait for commands in the background. -/
def runWait (args : List Octets) : (fuel : Nat) → Run Nat
  | 0 => throw (.signal 11)
  | fuel + 1 => do
    let own := (← process).jobs
    let interrupted : Run Nat := return 128 + (← arrived).headD 0
    let mark (number : Nat) : Run Unit :=
      modifyProcess fun p => { p with waited := number :: p.waited }
    if args = [] then
      own.foldlM (fun last number => do
          if last ≠ 0 then return last
          match ← awaitJob number fuel with
          | some _ =>
            mark number
            return 0
          | none => interrupted)
        0
    else
      args.foldlM (fun held arg => do
          let number? ← match arg with
            | '%' :: digits => pure own[Octets.natural digits - 1]?
            | arg => do
              let n ← Builtin.number arg
              pure (if own.contains n then some n else none)
          match number? with
          | none => return held
          | some number =>
            let noticed := ((← get).jobs.find? (·.number = number)).any Job.noticed
            match ← awaitJob number fuel with
            | none => interrupted
            | some last =>
              mark number
              noticeEnds
              if noticed ∨ last ≤ 128 then return last else announce (last - 128))
        127
termination_by structural fuel => fuel

/-- What commands print; a command that goes on in the background is waited for. -/
def substitute : (fuel : Nat) → List Command → Run Octets
  | 0, _ => throw (.signal 11)
  | fuel + 1, commands => do
    let out ← openStream (.queue {})
    let last ← inSubshell (do
      point 1 (some out)
      runCommands false fuel commands) fuel
    modifyProcess fun p => { p with innerStatus := last }
    awaitStreams [out] fuel
    match (← get).streams.lookup out with
    | some (.queue queue) => return queue.text.filter (· ≠ '\x00')
    | _ => return []
termination_by structural fuel => fuel

/-- Expand the words of a redirect. -/
def resolve (redirect : Redirect) : (fuel : Nat) → Run Target
  | 0 => throw (.signal 11)
  | fuel + 1 => do
    match redirect with
    | .file descriptor mode name =>
      return .file descriptor mode (← wordText (substitute fuel) fuel name)
    | .copy descriptor source =>
      match (← expandWord (substitute fuel) fuel source).head? with
      | some ['-'] => return .copy descriptor none
      | some [c] =>
        if c.isDigit then return .copy descriptor (some (Octets.natural [c])) else badDescriptor
      | _ => badDescriptor
    | .document descriptor number =>
      let word := ((← process).documents.lookup number).getD []
      match ← attempt (wordText (substitute fuel) fuel word) with
      | .ok text => return .text descriptor text
      | .error .fault => return .broken descriptor
      | .error halt => throw halt
termination_by structural fuel => fuel

/-- Run a body with descriptors redirected; tells whether they could be. -/
def withRedirects (keep : Bool) (redirects : List Redirect) (body : Run Unit) :
    (fuel : Nat) → Run Bool
  | 0 => throw (.signal 11)
  | fuel + 1 => do
    let targets ← redirects.mapM (resolve · fuel)
    let old := (← process).descriptors
    let restore (shell : Shell) : Shell :=
      if keep then shell
      else { shell with process := restoreDescriptors targets old shell.process }
    ensuring (do
      if ← applyAll targets then
        body
        return true
      else return false) restore
termination_by structural fuel => fuel

/-- Run commands that feed one another.  One that would run for ever ends where the next
one does not read all that it has written. -/
def runPipeline (tested : Bool) (commands : List Command) : (fuel : Nat) → Run Unit
  | 0 => throw (.signal 11)
  | fuel + 1 => do
    let start := (← get).elapsed
    let count := commands.length
    let stage (input out : Option Nat) (command : Command) : Run Nat := inSubshell (do
      if let some stream := input then point 0 (some stream)
      if let some stream := out then point 1 (some stream)
      runCommand tested fuel command) fuel
    let (_, _, last, ends) ← commands.zipIdx.foldlM
      (fun ((input, cut, _, ends) : Option Nat × Bool × Nat × Nat) (command, i) => do
        modify fun shell => { shell with elapsed := start }
        let out ← if i + 1 = count then pure none else some <$> openStream (.queue {})
        let outcome ← attempt (stage input out command)
        if cut ∧ (← waitingText input) = [] then throw .overrun
        let (last, endless) ← match outcome with
          | .ok last => pure (last, false)
          | .error .overrun =>
            if out.isNone then throw .overrun
            checkTime
            pure (128 + 13, true)
          | .error halt => throw halt
        let moment := (← get).elapsed
        closeAt out moment
        return (out, endless, last, max ends moment))
      (none, false, 0, start)
    modify fun shell => { shell with elapsed := ends }
    setStatus last
termination_by structural fuel => fuel

def runLoop (tested untilTrue : Bool) (test body : List Command) : (fuel : Nat) → Run Unit
  | 0 => throw (.signal 11)
  | fuel + 1 => do
    let loops := (← process).loops
    modifyProcess fun p => { p with loops := loops + 1 }
    let step (last : Nat) : Run (Nat × Bool) := do
      match ← inLoop (runCommands true fuel test) with
      | .error goesOn => return (last, goesOn)
      | .ok _ =>
        if decide ((← status) = 0) = untilTrue then return (last, false)
        match ← inLoop (runCommands tested fuel body) with
        | .error goesOn => return (← status, goesOn)
        | .ok _ => return (← status, true)
    let last ← ensuring (repeatStep step 0) fun shell =>
      { shell with process := { shell.process with loops } }
    setStatus last
termination_by structural fuel => fuel

def runEach (tested : Bool) (name : String) (words : List Word) (body : List Command) :
    (fuel : Nat) → Run Unit
  | 0 => throw (.signal 11)
  | fuel + 1 => do
    let values ← expandWords (substitute fuel) fuel words
    let loops := (← process).loops
    modifyProcess fun p => { p with loops := loops + 1 }
    let step (state : List Octets × Nat) : Run ((List Octets × Nat) × Bool) := do
      match state with
      | ([], last) => return (([], last), false)
      | (value :: rest, _) =>
        assignValue name value
        match ← inLoop (runCommands tested fuel body) with
        | .error goesOn => return ((rest, ← status), goesOn)
        | .ok _ => return ((rest, ← status), true)
    let (_, last) ← ensuring (iterate step (values.length + 1) (values, 0)) fun shell =>
      { shell with process := { shell.process with loops } }
    setStatus last
termination_by structural fuel => fuel

def runChoice (tested : Bool) (subject : Word) (arms : List (List Word × List Command)) :
    (fuel : Nat) → Run Unit
  | 0 => throw (.signal 11)
  | fuel + 1 => do
    let subject ← wordText (substitute fuel) fuel subject
    let taken ← arms.findM? fun arm => arm.1.anyM fun word => do
      return Pattern.fits (← expandPattern (substitute fuel) fuel word) subject
    match taken with
    | some (_, body) => if body.isEmpty then setStatus 0 else runCommands tested fuel body
    | none => setStatus 0
termination_by structural fuel => fuel

/-- Run a simple command: its words are expanded first, then its redirects are made,
then its variables are set. -/
def runSimple (tested : Bool) (line : Nat) (assignments : List (String × Word))
    (words : List Word) (redirects : List Redirect) : (fuel : Nat) → Run Unit
  | 0 => throw (.signal 11)
  | fuel + 1 => do
    modifyProcess fun p => { p with line, innerStatus := 0 }
    let args ← words.foldlM (fun args word => do
        if takesAssignments args ∧ (assignment? word).isSome then
          return args ++ [← wordText (substitute fuel) fuel word]
        else return args ++ (← expandWord (substitute fuel) fuel word))
      []
    let before ← process
    let (plain, named) := withoutCommand args
    let kind := kindOf before plain named
    let replaces : Bool := decide (named.head? = some "exec".toList)
      && (match kind with | .special | .ordinary => true | _ => false)
    let temporary : Bool := match kind with
      | .nothing | .special => false
      | _ => true
    let assign : Run Octets := do
      assignments.foldlM (fun trace (name, word) => do
          let value ← wordText (substitute fuel) fuel word
          if temporary then Builtin.keepLocal name
          assignValue name value
          if temporary ∨ (replaces ∧ named.length > 1) then
            modifyProcess fun p =>
              p.put name { (p.variableOf? name).getD {} with exported := true }
          return trace ++ (if trace = [] then [] else [' ']) ++ name.toList ++ '=' :: value)
        []
    let body : Run Unit := do
      let trace ← assign
      let p ← process
      if p.has 'x' then
        if let some stream := before.descriptors.lookup 2 then
          let parts := (if trace = [] then [] else [trace]) ++ args
          discard <| writeTo stream
            ((p.value? "PS4").getD [] ++ [' '].intercalate parts ++ ['\n'])
      runNamed tested kind named fuel
    let framed : Run Unit :=
      if temporary then do
        modifyProcess fun p => { p with locals := [] :: p.locals }
        ensuring body fun shell =>
          let p := shell.process
          { shell with process :=
              { Builtin.restoreLocals (p.locals.headD []) p with locals := p.locals.tail } }
      else body
    let applied ← withRedirects replaces redirects framed fuel
    unless applied do
      setStatus 2
      match kind with
      | .special => throw .fault
      | _ => return ()
termination_by structural fuel => fuel

/-- Run what the first word of a command names. -/
def runNamed (tested : Bool) (kind : Kind) (words : List Octets) : (fuel : Nat) → Run Unit
  | 0 => throw (.signal 11)
  | fuel + 1 => do
    match kind, words with
    | .nothing, _ | _, [] => setStatus (← process).innerStatus
    | .function definition, _ :: args => runFunction tested definition args fuel
    | .program, name :: args => do
      let disk := (← get).disk
      let paths := candidates (((← process).value? "PATH").getD []) name
      match if name.contains '/' then .ok name else findFile disk true .notFound paths with
      | .error why =>
        warn (name ++ ": ".toList ++ (programText why).toList)
        setStatus 127
      | .ok first =>
        match loadFirst disk args .notFound (paths.dropWhile (· ≠ first)) with
        | .ok invocation =>
          makeRoom
          runJobs fuel
          setStatus (← separate (do
            modifyProcess Process.arranged
            start invocation fuel))
          runJobs fuel
          noticeEnds
        | .error why =>
          warn (name ++ ": ".toList ++ (programText why).toList)
          setStatus (if isMissing why ∨ why = .loop ∨ why = .nameTooLong then 127 else 126)
    | kind, name :: args =>
      let outer := (← process).command
      modifyProcess fun p => { p with command := some name }
      let outcome ← attempt (ensuring (runBuiltin tested name args fuel) fun shell =>
        { shell with process := { shell.process with command := outer } })
      match outcome, kind with
      | .ok last, _ => setStatus last
      | .error .fault, .special => throw .fault
      | .error .fault, _ => return ()
      | .error halt, _ => throw halt
termination_by structural fuel => fuel

def runFunction (tested : Bool) (definition : Definition) (args : List Octets) :
    (fuel : Nat) → Run Unit
  | 0 => throw (.signal 11)
  | fuel + 1 => do
    let before ← process
    if depthMax ≤ before.depth then
      failWith ("Maximum function recursion depth (" ++ toString depthMax ++ ") reached").toList
    modifyProcess fun p => { p with
      arguments := args
      loops := 0
      functionLine := some definition.line
      bare := false
      depth := p.depth + 1
      optionOffset := 0 }
    ensuring (inFunction (runCommand tested fuel definition.body)) fun shell =>
      { shell with process := { shell.process with
        arguments := before.arguments
        loops := before.loops
        functionLine := before.functionLine
        bare := before.bare
        depth := before.depth
        optionOffset := before.optionOffset } }
termination_by structural fuel => fuel

/-- Run a builtin command. -/
def runBuiltin (tested : Bool) (name : Octets) (args : List Octets) : (fuel : Nat) → Run Nat
  | 0 => throw (.signal 11)
  | fuel + 1 => do
    match String.ofList name with
    | "eval" => runText tested false ([' '].intercalate args) fuel
    | "." =>
      match args with
      | [] => return 0
      | path :: _ =>
        let shell ← get
        let found := if path.contains '/' then .ok path
          else findFile shell.disk false .notFound
            (candidates ((shell.process.value? "PATH").getD []) path)
        match found with
        | .error _ => failWith (path ++ ": not found".toList)
        | .ok found =>
          if Condition.isDevice found then return 0
          match scriptText shell.disk found with
          | .error text => failWith ("cannot open ".toList ++ path ++ ": ".toList ++ text.toList)
          | .ok text =>
            modifyProcess fun p => { p with command := some found }
            inFunction (do setStatus (← runText tested true text fuel))
            status
    | "exec" =>
      match args with
      | [] => return 0
      | name :: args =>
        let disk := (← get).disk
        let paths := candidates (((← process).value? "PATH").getD []) name
        match loadFirst disk args .notFound paths with
        | .error why =>
          warn (name ++ ": ".toList ++ (programText why).toList)
          setStatus (if isMissing why ∨ why = .loop ∨ why = .nameTooLong then 127 else 126)
          throw .exit
        | .ok invocation =>
          
          setStatus (← inCopy (do
            modifyProcess Process.arranged
            start invocation fuel))
          modifyProcess fun p => { p with traps := [] }
          throw .exit
    | "command" =>
      match args with
      | ['-', 'v'] :: name :: _ => describe true name
      | ['-', 'V'] :: name :: _ => describe false name
      | ('-' :: c :: _) :: _ =>
        if c = '-' ∨ c = 'p' ∨ c = 'v' ∨ c = 'V' then return 0
        else failWith ("Illegal option -".toList ++ [c])
      | _ => return 0
    | "wait" => runWait args fuel
    | "hash" => lookUp args
    | "type" => args.foldlM (fun last name => do return max last (← describe false name)) 0
    | _ => (Builtin.run? name args).getD (pure 0)
termination_by structural fuel => fuel

/-- Run a tool in the present process, which is no longer that of the script. -/
def start (invocation : Invocation) : (fuel : Nat) → Run Nat
  | 0 => throw (.signal 11)
  | fuel + 1 => do
    if isShell invocation.tool then runShell invocation fuel
    else if invocation.tool = "env" then runSurrounded invocation fuel
    else
      match tools.lookup invocation.tool with
      | some act => act invocation.name invocation.args
      | none => return 127
termination_by structural fuel => fuel

/-- Run a shell in a process that knows only what it is given. -/
def runShell (invocation : Invocation) : (fuel : Nat) → Run Nat
  | 0 => throw (.signal 11)
  | fuel + 1 => do
    let shell ← get
    let old := shell.process
    if nestingMax ≤ old.nesting then throw .overrun
    let place ← Builtin.physical
    let directory := match old.value? "PWD", place with
      | some named, some place =>
        if named.head? = some '/' ∧ (pathOf named >>= shell.disk.directory).toOption
            = some shell.disk.cwd then named
        else place
      | _, place => place.getD []
    set { shell with
      nextNumber := shell.nextNumber + 1
      process := {
        name := invocation.name
        number := shell.nextNumber
        parent := old.number
        assigned := startVariables old.exports old.number directory
        descriptors := old.descriptors
        traps := old.traps.filter (·.2 = [])
        mask := old.mask
        nesting := old.nesting + 1
        directory } }
    conclude (fun action => discard (runText false false action fuel)) do
      if place.isNone then warn "getcwd() failed: No such file or directory".toList
      match ← errand invocation.name invocation.args with
      | .text text name args =>
        modifyProcess fun p => { p with name, arguments := args }
        discard <| runText false false text fuel
      | .input args =>
        modifyProcess fun p => { p with arguments := args }
        discard <| runText false true ((← readAll 0).getD []) fuel
      | .file path args =>
        match scriptText (← get).disk path with
        | .error text => failWith ("cannot open ".toList ++ path ++ ": ".toList ++ text.toList)
        | .ok text =>
          modifyProcess fun p => { p with name := path, arguments := args }
          discard <| runText false true text fuel
termination_by structural fuel => fuel

/-- Run a program with other variables around it. -/
def runSurrounded (invocation : Invocation) : (fuel : Nat) → Run Nat
  | 0 => throw (.signal 11)
  | fuel + 1 => do
    let table : OptionTable :=
      { plain := ['i'], valued := ['u'], operandsLast := true, misuseStatus := 125 }
    let isVariable (word : Octets) : Bool := word.contains '='
    withOptions table invocation.name invocation.args fun given => do
      let rest := given.operands
      if given.has 'i' then modifyProcess fun p => { p with assigned := [] }
      given.options.forM fun (letter, name) =>
        if letter = 'u' then modifyProcess (·.drop (String.ofList name)) else pure ()
      (rest.takeWhile isVariable).forM fun word =>
        let (name, value) := Builtin.nameAndValue word
        modifyProcess (·.put name { value, exported := true })
      match rest.dropWhile isVariable with
      | [] => Builtin.print ((← process).exports.flatMap fun (name, entry) =>
          name.toList ++ '=' :: entry.value.getD [] ++ ['\n'])
      | name :: args =>
        let paths := candidates (((← process).value? "PATH").getD []) name
        match loadFirst (← get).disk args .notFound paths with
        | .ok inner => start inner fuel
        | .error why =>
          complain invocation.name (quotedName name ++ ": ".toList ++ why.text.toList)
          return if isMissing why then 127 else 126
termination_by structural fuel => fuel

end

/-! ## Whole programs -/

/-- How a program ends. -/
inductive Ending
  | status (status : Nat)
  | signal (number : Nat)
  | overrun
deriving DecidableEq, Repr

/-- How deep commands may lie in one another. -/
def fuelMax : Nat := 20000

/-- What runs a program with an input and leaves what it has printed. -/
structure Launch where
  disk : Disk
  assigned : List (String × Octets)
  input : Octets
  limit : Option TimeLimit
  /-- The end of the output is waited for, not only that of the program. -/
  captured : Bool

/-- What a program leaves behind. -/
structure Outcome where
  ending : Ending
  out : Bytes
  err : Bytes
  disk : Disk

/-- The number of the first process. -/
def firstNumber : Nat := 4242

/-- Run a program from its start to its end. -/
def Launch.run (launch : Launch) (invocation : Invocation) : Outcome :=
  let shell : Shell := {
    process := {
      name := []
      number := firstNumber
      assigned := launch.assigned.map fun (name, value) =>
        (name, { value := some value, exported := true })
      descriptors := [(0, 0), (1, 1), (2, 2)] }
    disk := launch.disk
    streams := [(0, .queue { front := launch.input }), (1, .queue {}), (2, .queue {})]
    nextStream := 3
    nextNumber := firstNumber
    limit := launch.limit }
  let whole : Run Nat := do
    checkTime
    let outcome ← attempt (start invocation fuelMax)
    runJobs fuelMax
    match outcome with
    | .error .overrun => throw .overrun
    | _ => if launch.captured then awaitStreams [1, 2] fuelMax
    match outcome with
    | .ok status => return status
    | .error halt => throw halt
  let (ending, after) := match whole shell with
    | .ok status after => (Ending.status (status % 256), after)
    | .error (.signal number) after => (.signal number, after)
    | .error _ after => (.overrun, after)
  let printed (number : Nat) : Bytes := match after.streams.lookup number with
    | some (.queue queue) => queue.text.toBytes
    | _ => []
  ⟨ending, printed 1, printed 2, after.disk⟩

end Unscramble.Script
