import Unscramble.Console.Literal.Reader

/-!
# Literals

A literal is an expression that stands for a value by itself: numbers, text, the
three named constants, and tuples, sets and dictionaries of literals.  The
members of a set and the keys of a dictionary are not sets or dictionaries.
-/

namespace Unscramble.Console.Literal

/-- What a value is called if it cannot be a member of a set. -/
abbrev Unhashable := Option String

def malformed : String := "malformed node or string on line 1"

/-- A member of a set or a key, which has to be hashable. -/
def requireHashable (value : Unhashable) : Except String Unit :=
  match value with
  | some kind => .error ("unhashable type: '" ++ kind ++ "'")
  | none => .ok ()

/-- A number, after a sign if there is one. -/
def Node.signedNumber? : Node → Option Bool
  | number imaginary | sign (number imaginary) => some imaginary
  | _ => none

mutual

/-- The value of an expression, if it is a literal. -/
def Node.value : Node → Except String Unhashable
  | .number _ | .constant _ => .ok none
  | .tuple items => values items
  | .set items => do
    members items
    return some "set"
  | .dict items => do
    entries items
    return some "dict"
  | .call (.name "set") true => .ok (some "set")
  | .sign (.number _) => .ok none
  | .sum left right =>
    match left.signedNumber?, right with
    | some false, .number true => .ok none
    | _, _ => .error malformed
  | _ => .error malformed

/-- The values of a tuple, which is as hashable as they are. -/
def values : List Node → Except String Unhashable
  | [] => .ok none
  | item :: rest => do
    let first ← item.value
    let others ← values rest
    return first <|> others

def members : List Node → Except String Unit
  | [] => .ok ()
  | item :: rest => do
    requireHashable (← item.value)
    members rest

def entries : List (Option Node × Node) → Except String Unit
  | [] => .ok ()
  | (some key, item) :: rest => do
    let hashed ← key.value
    let _ ← item.value
    requireHashable hashed
    entries rest
  | (none, _) :: _ => .error "malformed node or string: None"

end

/-- Why a text is no literal. -/
inductive Complaint
  | form (text : String)
  | value (text : String)
deriving DecidableEq, Repr

/-- What is wrong with a text that should be a literal. -/
def complaint? (s : List Char) : Option Complaint :=
  match read (s.dropWhile fun c => c = ' ' ∨ c = '\t') with
  | .error text => some (.form text)
  | .ok node =>
    match node.value with
    | .error text => some (.value text)
    | .ok _ => none

end Unscramble.Console.Literal
