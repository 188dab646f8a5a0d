import Unscramble.Script.Builtin
import Unscramble.Script.Reader
import Unscramble.Script.Tool.Files

/-!
# Programs

A program is a tool of the system, known by its path, or a file that can be executed.
The first line of such a file names the program that is to read it.
-/

namespace Unscramble.Script

/-- Print words as they are, or with escapes replaced. -/
def printWords (_ : Octets) (args : List Octets) : Run Nat := do
  let isOption (arg : Octets) : Bool :=
    arg.head? = some '-' && arg.length > 1 && arg.tail.all ("neE".toList.contains ·)
  let letters := (args.takeWhile isOption).flatMap List.tail
  let line := [' '].intercalate (args.dropWhile isOption)
  let escaped := (letters.filter fun c => c = 'e' || c = 'E').getLast? = some 'e'
  let (out, ended) := if escaped then unescape (line.length + 1) line else (line, false)
  discard <| write 1 (if letters.contains 'n' ∨ ended then out else out ++ ['\n'])
  return 0

/-- Print a format with its arguments. -/
def printFormatted (tool : Octets) (args : List Octets) : Run Nat := do
  match args with
  | [] => misuse tool "missing operand".toList
  | format :: args =>
    let printing := printFormat format args
    printing.complaints.forM fun text => complain tool text
    discard <| write 1 printing.out
    return min printing.status 1

/-- Answer a condition; a bracket asks for another one at the end. -/
def testWords (bracket : Bool) (tool : Octets) (args : List Octets) : Run Nat := do
  if bracket ∧ args.getLast? ≠ some [']'] then
    complain tool "missing ']'".toList
    return 2
  else
    match Condition.holds (← get).disk (if bracket then args.dropLast else args) with
    | .ok holds => return if holds then 0 else 1
    | .error text =>
      complain tool text
      return 2

/-- Tools that need nothing but the state, by their names. -/
def tools : List (String × (Octets → List Octets → Run Nat)) :=
  [("basename", showLastName), ("cat", concatenate), ("chmod", changeModes), ("cp", copy),
   ("dirname", showDirectories), ("echo", printWords), ("false", fun _ _ => pure 1),
   ("head", showPart false), ("ln", makeLinks), ("ls", listNames), ("mkdir", makeDirectories),
   ("mv", move),
   ("printf", printFormatted), ("pwd", showWorkingDirectory), ("rm", remove),
   ("rmdir", removeDirectories), ("sleep", sleep), ("tail", showPart true), ("tee", spreadInput),
   ("test", testWords false), ("[", testWords true), ("touch", touch), ("true", fun _ _ => pure 0),
   ("wc", countText)]

def isShell (tool : String) : Bool := tool = "sh" || tool = "dash"

/-- The tool that lies at a path. -/
def toolAt? (path : Octets) : Option String :=
  let name? := ["/bin/", "/usr/bin/"].findSome? fun directory =>
    if directory.toList.isPrefixOf path then some (String.ofList (path.drop directory.length))
    else none
  name?.filter fun name => (tools.lookup name).isSome || isShell name || name = "env"

/-- A tool with the name that it is called by and its words. -/
structure Invocation where
  tool : String
  name : Octets
  args : List Octets

/-- How much of a file is looked at for the program that it names. -/
def headMax : Nat := 256

/-- The program that the first line of a file names, and one word for it.  Of a longer line
the end is cut off, unless that would cut the name. -/
def interpreter? (text : Octets) : Option (Octets × List Octets) :=
  match text.take headMax with
  | '#' :: '!' :: rest =>
    let isBlank (c : Char) : Bool := c = ' ' || c = '\t'
    let whole := rest.contains '\n' || decide (rest.length + 2 < headMax)
    let start := (rest.takeWhile (· ≠ '\n')).dropWhile isBlank
    let line := if whole then start else (rest.take (headMax - 3)).dropWhile isBlank
    if ¬ whole ∧ ¬ start.any isBlank then none else
    let line := (line.reverse.dropWhile isBlank).reverse
    let path := line.takeWhile fun c => !isBlank c
    let word := (line.drop path.length).dropWhile isBlank
    if path = [] then none else some (path, if word = [] then [] else [word])
  | _ => none

/-- What is run for a path.  Files name their programs in turn, a few times at most. -/
def load (disk : Disk) : (depth : Nat) → (path : Octets) → List Octets → Except Refusal Invocation
  | 0, _, _ => .error .loop
  | depth + 1, path, args =>
    match toolAt? path with
    | some tool => .ok ⟨tool, path, args⟩
    | none => do
      match ← pathOf path >>= disk.stat .followed with
      | .file bytes ⟨_, _, true⟩ =>
        match interpreter? (Octets.ofBytes bytes) with
        | some (program, words) => load disk depth program (words ++ path :: args)
        | none => .error .badFormat
      | _ => .error .denied

/-- How many programs may name one another. -/
def loadMax : Nat := 5

/-- A program that names none to read it is read by the shell. -/
def loadAsScript (disk : Disk) (path : Octets) (args : List Octets) : Except Refusal Invocation :=
  match load disk loadMax path args with
  | .error .badFormat => .ok ⟨"sh", "/bin/sh".toList, path :: args⟩
  | found => found

/-! ## Looking for programs -/

/-- The refusal means that there is no such program. -/
def isMissing (why : Refusal) : Bool := why = .notFound || why = .notDirectory

/-- How the shell speaks of a program that cannot be run. -/
def programText (why : Refusal) : String := if isMissing why then "not found" else why.text

/-- Paths that a name may stand for. -/
def candidates (searchPath name : Octets) : List Octets :=
  if name.contains '/' then [name]
  else (searchPath.splitOn ':').map fun directory => if directory = [] then name
    else directory ++ '/' :: name

/-- The first file that a name may stand for, perhaps only one that can be run;
otherwise why there is none. -/
def findFile (disk : Disk) (toRun : Bool) (held : Refusal) : List Octets → Except Refusal Octets
  | [] => .error held
  | path :: rest =>
    if (toolAt? path).isSome then .ok path
    else
      match pathOf path >>= disk.stat .followed with
      | .ok (.file _ access) =>
        if toRun && !access.execute then findFile disk toRun .denied rest else .ok path
      | .ok _ => findFile disk toRun .denied rest
      | .error why => findFile disk toRun (if isMissing why then held else why) rest

/-- The first program of some paths that can be started; otherwise the first refusal
that is not about a missing file. -/
def loadFirst (disk : Disk) (args : List Octets) (held : Refusal) :
    List Octets → Except Refusal Invocation
  | [] => .error held
  | path :: rest =>
    match loadAsScript disk path args with
    | .ok found => .ok found
    | .error why => loadFirst disk args (if isMissing why then held else why) rest

/-- Programs and builtin commands under a name, as `command` and `type` tell of them. -/
def describe (brief : Bool) (name : Octets) : Run Nat := do
  let p ← process
  let text := String.ofList name
  let say (what : String) : Run Nat :=
    Builtin.print (name ++ (if brief then [] else what.toList) ++ ['\n'])
  if keywords.contains text then say " is a shell keyword"
  else if (p.functions.lookup text).isSome then say " is a shell function"
  else if specialBuiltins.contains text then say " is a special shell builtin"
  else if Builtin.ordinary.contains text then say " is a shell builtin"
  else
    match findFile (← get).disk true .notFound (candidates ((p.value? "PATH").getD []) name) with
    | .ok path =>
      if brief then Builtin.print (path ++ ['\n'])
      else Builtin.print (name ++ " is ".toList ++ path ++ ['\n'])
    | .error _ =>
      if ¬ brief then discard <| Builtin.print (name ++ ": not found\n".toList)
      return 127

/-- Look up programs beforehand. -/
def lookUp (args : List Octets) : Run Nat :=
  args.foldlM (fun status name => do
      let searched := candidates (((← process).value? "PATH").getD []) name
      let known := Builtin.ordinary.contains (String.ofList name)
        || specialBuiltins.contains (String.ofList name) || name.head? = some '-'
      match findFile (← get).disk true .notFound searched with
      | .ok _ => return status
      | .error why =>
        if known then return status
        warn (name ++ ": ".toList ++ (programText why).toList)
        return 1)
    0

/-! ## Processes -/

/-- The variables that a shell starts with: those of its surroundings and its own. -/
def startVariables (surroundings : List (String × Variable)) (parent : Nat)
    (directory : Octets) : List (String × Variable) :=
  let own : List (String × Octets) :=
    [("PWD", directory), ("PPID", Octets.decimal parent), ("OPTIND", ['1']),
     ("IFS", defaultSeparators), ("PS1", "$ ".toList), ("PS2", "> ".toList), ("PS4", "+ ".toList)]
  let path := if (surroundings.lookup "PATH").isSome then []
    else [("PATH", { value := "/usr/local/sbin:/usr/local/bin:/usr/sbin:/usr/bin:/sbin:/bin".toList })]
  let fresh := own.map fun (name, value) =>
    let old := (surroundings.lookup name).getD {}
    (name, { old with value := some value, exported := old.exported || name = "PWD" })
  fresh ++ path ++ surroundings.filter fun v =>
    (own.lookup v.1).isNone && isName v.1.toList && v.2.exported

/-- How a shell is asked to run: a text of its own, its input, or a file. -/
inductive Errand
  | text (text : Octets) (name : Octets) (args : List Octets)
  | input (args : List Octets)
  | file (path : Octets) (args : List Octets)

/-- Options on the command line of a shell. -/
def shellArguments (fuel : Nat) (asText asInput : Bool) (args : List Octets) :
    Run (Bool × Bool × List Octets) :=
  match fuel, args with
  | fuel + 1, (sign :: c :: letters) :: rest => do
    if sign ≠ '-' ∧ sign ≠ '+' then return (asText, asInput, args)
    else if sign = '-' ∧ c = '-' ∧ letters = [] then return (asText, asInput, rest)
    else
      let letters := c :: letters
      let named := letters.filter fun c => c ≠ 'c' && c ≠ 's' && c ≠ 'l' && c ≠ 'i'
      unless named = [] do discard <| Builtin.shellOptions 1 ((sign :: named) :: rest)
      shellArguments fuel (asText || letters.contains 'c') (asInput || letters.contains 's')
        (rest.drop (named.count 'o'))
  | _, ['-'] :: rest => return (asText, asInput, rest)
  | _, args => return (asText, asInput, args)

/-- What the words of a shell's command line ask for. -/
def errand (name : Octets) (args : List Octets) : Run Errand := do
  match ← shellArguments (args.length + 1) false false args with
  | (true, _, []) => failWith "-c requires an argument".toList
  | (true, _, [text]) => return .text text name []
  | (true, _, text :: name :: args) => return .text text name args
  | (false, true, args) => return .input args
  | (false, false, []) => return .input []
  | (false, false, path :: args) => return .file path args

end Unscramble.Script
