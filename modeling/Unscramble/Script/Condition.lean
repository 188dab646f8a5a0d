import Unscramble.Script.State

/-!
# Conditions

A condition is a row of words: operands, operators on one or two of them, and the
marks that join conditions.  The word after an operator decides whether it is one.
-/

namespace Unscramble.Script

namespace Condition

/-- What a word means in a condition. -/
inductive Sign
  | none
  | operand
  | unary (op : Octets)
  | binary (op : Octets)
  | not
  | and
  | or
  | opening
  | closing
deriving DecidableEq, Repr

def unaryOps : List Octets :=
  ["-r", "-w", "-x", "-e", "-f", "-d", "-c", "-b", "-p", "-u", "-g", "-k", "-s", "-t", "-z", "-n",
   "-h", "-L", "-O", "-G", "-S"].map String.toList

def binaryOps : List Octets :=
  ["=", "!=", "<", ">", "-eq", "-ne", "-gt", "-ge", "-lt", "-le", "-nt", "-ot", "-ef"].map
    String.toList

/-- What the first of some words means. -/
def sign : List Octets → Sign
  | [] => .none
  | word :: rest =>
    if unaryOps.contains word then
      match rest with
      | [] => .operand
      | [_] => .unary word
      | next :: _ => if binaryOps.contains next then .operand else .unary word
    else if binaryOps.contains word then .binary word
    else if word = ['!'] then .not
    else if word = ['-', 'a'] then .and
    else if word = ['-', 'o'] then .or
    else if word = ['('] then if rest = [] then .operand else .opening
    else if word = [')'] then .closing
    else .operand

/-- The number that an operand spells. -/
def number (s : Octets) : Except Octets Int :=
  match s.integer? with
  | some n => .ok n
  | none => .error ("Illegal number: ".toList ++ s)

/-- Files of the system that are no files of the disk. -/
def isDevice (s : Octets) : Bool := s = "/dev/null".toList

/-- The answer to a question about the file that an operand names. -/
def file (disk : Disk) (op operand : Octets) : Bool :=
  let device := isDevice operand
  let entry (manner : Disk.Manner) : Option Entry :=
    match pathOf operand >>= disk.stat manner with
    | .ok entry => some entry
    | .error _ => none
  let allows (right : Access → Bool) : Bool :=
    device || (entry .followed).any fun found => match found with
      | .file _ access => right access
      | _ => true
  match String.ofList op with
  | "-r" => allows Access.read
  | "-w" => allows Access.write
  | "-x" => !device && allows Access.execute
  | "-e" | "-O" | "-G" => device || (entry .followed).isSome
  | "-f" => (entry .followed).any (·.kind = .file)
  | "-d" => (entry .followed).any (·.kind = .directory)
  | "-h" | "-L" => (entry .itself).any (·.kind = .link)
  | "-c" => device
  | "-s" => (entry .followed).any fun found => match found with
    | .file bytes _ => bytes ≠ []
    | _ => true
  | _ => false

/-- Both operands name one file. -/
def sameFile (disk : Disk) (left right : Octets) : Bool :=
  match pathOf left >>= disk.find .followed, pathOf right >>= disk.find .followed with
  | .ok (.present a _), .ok (.present b _) => a = b
  | _, _ => false

def compare (disk : Disk) (op left right : Octets) : Except Octets Bool := do
  let numbers (holds : Int → Int → Bool) : Except Octets Bool := do
    return holds (← number left) (← number right)
  match String.ofList op with
  | "=" => return left = right
  | "!=" => return left ≠ right
  | "<" => return left < right
  | ">" => return right < left
  | "-eq" => numbers fun a b => a = b
  | "-ne" => numbers fun a b => a ≠ b
  | "-gt" => numbers fun a b => a > b
  | "-ge" => numbers fun a b => a ≥ b
  | "-lt" => numbers fun a b => a < b
  | "-le" => numbers fun a b => a ≤ b
  | "-ef" => return sameFile disk left right
  | _ => return false

def fault {α : Type} (word : Octets) (text : String) : Except Octets α :=
  .error (word ++ ": ".toList ++ text.toList)

variable (disk : Disk)

mutual

/-- Conditions joined by "or": the value, and the words from the last one used on. -/
def disjunction : (fuel : Nat) → Sign → List Octets → Except Octets (Bool × List Octets)
  | 0, _, words => .ok (false, words)
  | fuel + 1, first, words => do
    let (value, used) ← conjunction fuel first words
    if sign used.tail = .or then
      let rest := used.drop 2
      let (other, used) ← disjunction fuel (sign rest) rest
      return (value || other, used)
    else return (value, used)

def conjunction : (fuel : Nat) → Sign → List Octets → Except Octets (Bool × List Octets)
  | 0, _, words => .ok (false, words)
  | fuel + 1, first, words => do
    let (value, used) ← negation fuel first words
    if sign used.tail = .and then
      let rest := used.drop 2
      let (other, used) ← conjunction fuel (sign rest) rest
      return (value && other, used)
    else return (value, used)

def negation : (fuel : Nat) → Sign → List Octets → Except Octets (Bool × List Octets)
  | 0, _, words => .ok (false, words)
  | fuel + 1, first, words => do
    if first = .not then
      let next := sign words.tail
      let (value, used) ← negation fuel next (if next = .none then words else words.tail)
      return (!value, used)
    else primary fuel first words

def primary : (fuel : Nat) → Sign → List Octets → Except Octets (Bool × List Octets)
  | 0, _, words => .ok (false, words)
  | fuel + 1, first, words => do
    match first, words with
    | .none, words => return (false, words)
    | .opening, _ :: rest =>
      if sign rest = .closing then return (false, rest)
      let (value, used) ← disjunction fuel (sign rest) rest
      if sign used.tail = .closing then return (value, used.tail)
      else .error "closing paren expected".toList
    | .unary op, _ :: operand :: rest =>
      let value := match String.ofList op with
        | "-z" => operand = []
        | "-n" => operand ≠ []
        | _ => file disk op operand
      if op = "-t".toList then discard (number operand)
      return (value, operand :: rest)
    | _, left :: rest =>
      match sign rest, rest with
      | .binary op, _ :: right :: others =>
        return (← compare disk op left right, right :: others)
      | .binary op, _ => fault op "argument expected"
      | _, rest => return (left ≠ [], left :: rest)
    | _, [] => return (false, [])

end

/-- The value of all words as one condition. -/
def whole (first : Sign) (words : List Octets) : Except Octets Bool := do
  let (value, used) ← disjunction disk (4 * words.length + 4) first words
  match used with
  | last :: _ :: _ => fault last "unexpected operator"
  | _ => return value

/-- The value of a condition.  Three or four words are read by their number first. -/
def holds : List Octets → Except Octets Bool
  | [] => .ok false
  | first :: rest =>
    let words := first :: rest
    if rest.length = 2 ∧ binaryOps.contains (rest.headD []) then whole disk .operand words
    else if rest.length = 2 ∨ rest.length = 3 then
      if first = ['('] ∧ rest.getLast? = some [')'] then
        whole disk (sign rest.dropLast) rest.dropLast
      else if first = ['!'] then (! ·) <$> holds rest
      else whole disk (sign words) words
    else whole disk (sign words) words

end Condition

end Unscramble.Script
