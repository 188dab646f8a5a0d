import Unscramble.Script.Arithmetic
import Unscramble.Script.Split
import Unscramble.Script.State

/-!
# Expansion

A word is expanded in three steps: its values and outputs are put in, what was not
quoted is cut into fields, and fields that are patterns are replaced by the names of
the files that they fit.  Where one text is wanted, only the first step is taken.
-/

namespace Unscramble.Script

/-- What commands inside a word print. -/
abbrev Substitute := List Command → Run Octets

/-! ## Variables -/

/-- The value of a parameter that is one text. -/
def Process.parameter? (p : Process) (name : String) : Option Octets :=
  match name with
  | "$" => some (Octets.decimal p.number)
  | "?" => some (Octets.decimal p.status)
  | "#" => some (Octets.decimal p.arguments.length)
  | "!" => p.lastJob.map fun number => Octets.decimal number
  | "-" => some (Process.optionLetters.filter p.has)
  | name =>
    match Octets.natural? name.toList with
    | some 0 => some p.name
    | some n => p.arguments[n - 1]?
    | none => p.value? name

/-- The text of a refused assignment. -/
def refuseAssignment {α : Type} (name : String) (text : String) : Run α :=
  failWith (name.toList ++ ": ".toList ++ text.toList)

/-- Give a variable a value. -/
def assignValue (name : String) (value : Octets) : Run Unit := do
  let p ← process
  let entry := (p.variableOf? name).getD { exported := p.has 'a' }
  if ¬ isName name.toList then refuseAssignment name "bad variable name"
  else if entry.readOnly then refuseAssignment name "is read only"
  else modifyProcess fun p => { p.put name { entry with value := some value } with
    optionOffset := if name = "OPTIND" then 0 else p.optionOffset }

/-- What separates fields. -/
def Process.separators (p : Process) : Octets := (p.value? "IFS").getD defaultSeparators

/-- What stands between arguments in one text. -/
def Process.joint (p : Process) : Octets :=
  match p.value? "IFS" with
  | none => [' ']
  | some separators => separators.take 1

/-! ## Arithmetic -/

def registers (source : Octets) : Arithmetic.Registers Run where
  read name := do
    let value := ((← process).value? name).getD []
    match Arithmetic.spelled? value with
    | some n => return n
    | none => failWith ("Illegal number: ".toList ++ value)
  write name n := assignValue name (Octets.decimal n)
  refuse why :=
    failWith (("arithmetic expression: " ++ why.text ++ ": \"").toList ++ source ++ ['"'])

def arithmetic (source : Octets) : Run Int :=
  match Arithmetic.parse source with
  | .ok expression => Arithmetic.evaluate (registers source) expression
  | .error why => (registers source).refuse why

/-! ## Regions -/

/-- Text that has been put into a word. -/
def inserted (quoted : Bool) (s : Octets) : Region :=
  ⟨if quoted then .whole else .separators, bitsOf quoted s⟩

/-- All arguments as one region; `apart` keeps them apart. -/
def argumentsRegion (p : Process) (apart quoted full : Bool) : Region :=
  if full ∧ (apart ∨ ¬ quoted) then
    ⟨if quoted then .arguments else .separators, bitsOf quoted ([cut].intercalate p.arguments)⟩
  else inserted quoted (p.joint.intercalate p.arguments)

/-- Output that is put into a word loses the newlines at its end. -/
def trimNewlines (s : Octets) : Octets := (s.reverse.dropWhile (· = '\n')).reverse

/-- The home of the user at the start of a text, if it is known. -/
def expandTilde (home : Option Octets) (alone : Bool) (chars : Octets) : Option (Octets × Octets) :=
  match chars, home with
  | '~' :: rest, some home => if rest = [] ∧ alone ∨ rest.head? = some '/' then some (home, rest)
    else none
  | _, _ => none

mutual

/-- The regions of a piece.  `full` holds where the word may be cut, and `inside` in the
word of an operation. -/
def pieceRegions (substitute : Substitute) (full inside : Bool) :
    (fuel : Nat) → Piece → Run (List Region)
  | 0, _ => failWith "Bad substitution".toList
  | fuel + 1, piece => do
    match piece with
    | .text quoted [] => return if quoted then [⟨.whole, [.mark]⟩] else []
    | .text quoted chars =>
      return [⟨if inside ∧ ¬ quoted then .separators else .whole, bitsOf quoted chars⟩]
    | .output quoted body => return [inserted quoted (trimNewlines (← substitute body))]
    | .sum quoted expression =>
      let source ← wordText substitute fuel expression
      return [inserted quoted (Octets.decimal (← arithmetic source))]
    | .value quoted name operation => valueRegions substitute full quoted name operation fuel

/-- The regions of a word, with the home of the user at its start. -/
def wordRegions (substitute : Substitute) (full inside : Bool) :
    (fuel : Nat) → Word → Run (List Region)
  | 0, _ => failWith "Bad substitution".toList
  | fuel + 1, word => do
    let home := (← process).value? "HOME"
    let (start, word) := match word with
      | .text false chars :: rest =>
        match expandTilde home rest.isEmpty chars with
        | some (home, chars) =>
          ([Region.mk .whole (bitsOf true home)], Piece.text false chars :: rest)
        | none => ([], word)
      | word => ([], word)
    let regions ← word.mapM (pieceRegions substitute full inside fuel)
    return start ++ regions.flatten

/-- The text of a word that is not cut. -/
def wordText (substitute : Substitute) : (fuel : Nat) → Word → Run Octets
  | 0, _ => failWith "Bad substitution".toList
  | fuel + 1, word => do return regionText (← wordRegions substitute false false fuel word)

/-- The regions of a value and of what an operation makes of it. -/
def valueRegions (substitute : Substitute) (full quoted : Bool) (name : String)
    (operation : Operation) : (fuel : Nat) → Run (List Region)
  | 0 => failWith "Bad substitution".toList
  | fuel + 1 => do
    let value : Run (Option Region) := do
      let p ← process
      if name = "@" ∨ name = "*" then
        return some (argumentsRegion p (name = "@") quoted full)
      else return (p.parameter? name).map (inserted quoted)
    let found ← value
    let p ← process
    let regions (found : Option Region) : List Region :=
      if name = "@" ∧ quoted ∧ p.arguments = [] then [] else found.toList
    let lacks (orEmpty : Bool) : Bool :=
      match found with
      | none => true
      | some region => orEmpty && region.bits.isEmpty
    let demand : Run Unit := do
      if found.isNone ∧ p.has 'u' then refuseAssignment name "parameter not set"
    match operation with
    | .plain =>
      demand
      return regions found
    | .bad => failWith "Bad substitution".toList
    | .length =>
      demand
      let length := (found.map fun region => region.bits.length).getD 0
      return [inserted quoted (Octets.decimal length)]
    | .default orEmpty word =>
      if lacks orEmpty then wordRegions substitute full true fuel word
      else return regions found
    | .replace orEmpty word =>
      if lacks orEmpty then return []
      else wordRegions substitute full true fuel word
    | .assign orEmpty word =>
      if lacks orEmpty then
        assignValue name (← wordText substitute fuel word)
        return regions (← value)
      else return regions found
    | .require orEmpty word =>
      if lacks orEmpty then
        let text ← wordText substitute fuel word
        if word.isEmpty then
          refuseAssignment name
            (if orEmpty then "parameter not set or null" else "parameter not set")
        else failWith (name.toList ++ ": ".toList ++ text)
      else return regions found
    | .trim fromEnd longest word =>
      demand
      match found with
      | none => return []
      | some region =>
        let pattern := Pattern.ofWord (regionMarked (← wordRegions substitute false false fuel word))
        let text := Pattern.trim fromEnd longest pattern (regionText [region])
        return regions (some { region with bits := bitsOf quoted text })

end

/-! ## Names of files -/

/-- Names in a directory that a pattern fits; those that start with a dot only if the
pattern does. -/
def fittingNames (disk : Disk) (directory : Octets) (part : List Marked) : List Octets :=
  let path := if directory = [] then .ok ⟨.here, []⟩ else pathOf directory
  match path >>= disk.list with
  | .error _ => []
  | .ok entries =>
    let hidden := decide ((part.head?.map Marked.char) = some '.')
    let names := entries.map fun entry => Octets.ofString entry.1
    let names := if hidden then ['.'] :: ['.', '.'] :: names else names
    let pattern := Pattern.ofWord part
    names.filter fun name => (hidden || name.head? ≠ some '.') && Pattern.fits pattern name

/-- Files that fit a pattern, whose parts lie between slashes. -/
def fittingFiles (disk : Disk) : (directory : Octets) → List (List Marked) → List Octets
  | directory, [] => [directory]
  | directory, [part] =>
    if Pattern.isActive part then (fittingNames disk directory part).map (directory ++ ·)
    else
      let name := directory ++ part.map Marked.char
      match pathOf name >>= disk.stat .itself with
      | .ok _ => [name]
      | .error _ => []
  | directory, part :: rest =>
    if Pattern.isActive part then
      (fittingNames disk directory part).flatMap fun name =>
        fittingFiles disk (directory ++ name ++ ['/']) rest
    else fittingFiles disk (directory ++ part.map Marked.char ++ ['/']) rest

/-- The words that a field stands for. -/
def fieldWords (disk : Disk) (literal : Bool) (field : List Bit) : List Octets :=
  let marked := field.filterMap Bit.marked?
  let text := marked.map Marked.char
  if literal ∨ ¬ Pattern.isActive marked then [text]
  else
    let files := fittingFiles disk [] (marked.splitOnP fun m => m.char = '/')
    if files = [] then [text] else files.mergeSort fun a b => !decide (b < a)

/-! ## Words -/

/-- The words that a word stands for. -/
def expandWord (substitute : Substitute) (fuel : Nat) (word : Word) : Run (List Octets) := do
  let regions ← wordRegions substitute true false fuel word
  let p ← process
  let disk := (← get).disk
  return (split p.separators none regions).flatMap (fieldWords disk (p.has 'f'))

def expandWords (substitute : Substitute) (fuel : Nat) (words : List Word) : Run (List Octets) := do
  return (← words.mapM (expandWord substitute fuel)).flatten

/-- A word as a pattern. -/
def expandPattern (substitute : Substitute) (fuel : Nat) (word : Word) : Run (List Pattern) := do
  return Pattern.ofWord (regionMarked (← wordRegions substitute false false fuel word))

end Unscramble.Script
