import Unscramble.Script.State

/-!
# Calls of tools

A tool is called by its path with options and operands.  Options are letters or long
names; they may stand anywhere before two dashes.  A tool complains under the path
that it was called by.
-/

namespace Unscramble.Script

/-- The options a tool knows: letters that stand alone, letters with a value, and long
names with their letters. -/
structure OptionTable where
  plain : List Char
  valued : List Char := []
  long : List (String × Char) := []
  /-- Nothing after the first operand is an option. -/
  operandsLast : Bool := false
  /-- The status of a call that cannot be understood. -/
  misuseStatus : Nat := 1

/-- Options and operands as they were given. -/
structure Given where
  options : List (Char × Octets) := []
  operands : List Octets := []

namespace Given

def has (given : Given) (letter : Char) : Bool := given.options.any (·.1 = letter)

/-- The last value of an option. -/
def value? (given : Given) (letter : Char) : Option Octets :=
  given.options.reverse.lookup letter

end Given

namespace OptionTable

/-- Letters after one dash; the last one may take the next word as its value. -/
def letters (table : OptionTable) : Octets → List Octets →
    Except String (List (Char × Octets) × List Octets)
  | [], rest => .ok ([], rest)
  | c :: others, rest => do
    if table.plain.contains c then
      let (options, rest) ← table.letters others rest
      return ((c, []) :: options, rest)
    else if table.valued.contains c then
      match others, rest with
      | [], [] => .error ("option requires an argument -- '" ++ c.toString ++ "'")
      | [], value :: rest => return ([(c, value)], rest)
      | value, rest => return ([(c, value)], rest)
    else .error ("invalid option -- '" ++ c.toString ++ "'")

def read (table : OptionTable) : (fuel : Nat) → List Octets → Except String Given
  | 0, args => .ok { operands := args }
  | fuel + 1, args => do
    match args with
    | [] => return {}
    | ['-', '-'] :: rest => return { operands := rest }
    | ('-' :: '-' :: name) :: rest =>
      match table.long.lookup (String.ofList name) with
      | some letter =>
        let given ← table.read fuel rest
        return { given with options := (letter, []) :: given.options }
      | none => .error ("unrecognized option '--" ++ String.ofList name ++ "'")
    | ('-' :: c :: others) :: rest =>
      let (options, rest) ← table.letters (c :: others) rest
      let given ← table.read fuel rest
      return { given with options := options ++ given.options }
    | operand :: rest =>
      if table.operandsLast then return { operands := args }
      let given ← table.read fuel rest
      return { given with operands := operand :: given.operands }

end OptionTable

/-! ## Complaints -/

def complain (tool text : Octets) : Run Unit := do
  discard <| write 2 (tool ++ ": ".toList ++ text ++ ['\n'])

/-- A complaint about how a tool was called. -/
def misuse (tool text : Octets) : Run Nat := do
  complain tool text
  discard <| write 2 ("Try '".toList ++ tool ++ " --help' for more information.\n".toList)
  return 1

/-- A name between quotes that a shell would read back. -/
def quotedName (s : Octets) : Octets :=
  let isPlain (c : Char) : Bool := c.isAlphanum || "%+,-./:]_ #~".toList.contains c
  if s.contains '\'' then
    if s.all fun c => c = '\'' || isPlain c then '"' :: s ++ ['"']
    else
      '\'' :: (s.flatMap fun c => if c = '\'' then "'\\''".toList else [c]) ++ ['\'']
  else '\'' :: s ++ ['\'']

/-- A name, with quotes if a shell would need them. -/
def shownName (s : Octets) : Octets :=
  let isSpecial (c : Char) : Bool := " !\"$&'()*;<=>?[\\^\x60|\n\t".toList.contains c
  if s = [] ∨ s.any isSpecial ∨ s.head? = some '#' ∨ s.head? = some '~' then quotedName s
  else s

/-- Call a tool with the options that it knows. -/
def withOptions (table : OptionTable) (tool : Octets) (args : List Octets)
    (act : Given → Run Nat) : Run Nat :=
  match table.read (args.length + 1) args with
  | .ok given => act given
  | .error text => do
    discard <| misuse tool text.toList
    return table.misuseStatus

/-- Do something for each operand; the status tells whether all went well. -/
def forOperands (operands : List Octets) (act : Octets → Run Bool) : Run Nat :=
  operands.foldlM (fun status operand => do return if ← act operand then status else 1) 0

end Unscramble.Script
