import Unscramble.Script.Octets

/-!
# Patterns

A pattern fits a whole text.  A star fits any text, a question mark one character,
and a bracket one character of a set; quoted, each fits only itself.
-/

namespace Unscramble.Script

/-- One character of a pattern. -/
structure Marked where
  char : Char
  quoted : Bool
deriving DecidableEq, Repr

/-- A set of characters: ranges, with the classes that are named. -/
structure CharSet where
  negated : Bool
  ranges : List (Char × Char)
  classes : List String
deriving DecidableEq, Repr

inductive Pattern
  | any
  | one
  | among (set : CharSet)
  | exact (char : Char)
deriving DecidableEq, Repr

/-- A character belongs to a named class. -/
def inClass (name : String) (c : Char) : Bool :=
  match name with
  | "alpha" => c.isAlpha
  | "digit" => c.isDigit
  | "alnum" => c.isAlphanum
  | "upper" => c.isUpper
  | "lower" => c.isLower
  | "space" => Octets.isSpace c
  | "blank" => c = ' ' || c = '\t'
  | "punct" => '!' ≤ c && c ≤ '~' && !c.isAlphanum
  | "print" => ' ' ≤ c && c ≤ '~'
  | "graph" => '!' ≤ c && c ≤ '~'
  | "cntrl" => c < ' ' || c = '\x7f'
  | "xdigit" => c.isDigit || ('a' ≤ c && c ≤ 'f') || ('A' ≤ c && c ≤ 'F')
  | _ => false

def CharSet.contains (set : CharSet) (c : Char) : Bool :=
  (set.ranges.any (fun range => range.1 ≤ c && c ≤ range.2) || set.classes.any (inClass · c))
    != set.negated

namespace Pattern

/-- The name of a class up to its closing colon and bracket. -/
def className? (s : List Marked) : Option (String × List Marked) :=
  match s with
  | ⟨'[', _⟩ :: ⟨':', _⟩ :: rest =>
    let name := rest.takeWhile fun m => m.char.isAlpha
    match rest.drop name.length with
    | ⟨':', _⟩ :: ⟨']', _⟩ :: rest => some (String.ofList (name.map Marked.char), rest)
    | _ => none
  | _ => none

/-- The members of a set up to its closing bracket; `first` holds before the first
member, where a bracket is a member itself. -/
def setMembers : (fuel : Nat) → (first : Bool) → List Marked →
    Option (List (Char × Char) × List String × List Marked)
  | 0, _, _ => none
  | fuel + 1, first, s =>
    match s with
    | [] => none
    | m :: rest =>
      if m = ⟨']', false⟩ ∧ ¬ first then some ([], [], rest)
      else
        match className? s with
        | some (name, rest) =>
          (setMembers fuel false rest).map fun (ranges, names, rest) =>
            (ranges, name :: names, rest)
        | none =>
          match rest with
          | ⟨'-', false⟩ :: last :: rest =>
            if last = ⟨']', false⟩ then
              (setMembers fuel false (⟨'-', true⟩ :: last :: rest)).map fun (ranges, names, rest) =>
                ((m.char, m.char) :: ranges, names, rest)
            else (setMembers fuel false rest).map fun (ranges, names, rest) =>
              ((m.char, last.char) :: ranges, names, rest)
          | rest => (setMembers fuel false rest).map fun (ranges, names, rest) =>
            ((m.char, m.char) :: ranges, names, rest)

/-- The set that an opening bracket starts, and what follows it. -/
def set? (s : List Marked) : Option (CharSet × List Marked) :=
  let (negated, members) := match s with
    | ⟨'!', false⟩ :: rest => (true, rest)
    | rest => (false, rest)
  (setMembers (members.length + 1) true members).map fun (ranges, classes, rest) =>
    (⟨negated, ranges, classes⟩, rest)

/-- The pattern that a marked text stands for. -/
def ofMarked : (fuel : Nat) → List Marked → List Pattern
  | 0, _ => []
  | _, [] => []
  | fuel + 1, m :: rest =>
    if m.quoted then .exact m.char :: ofMarked fuel rest
    else if m.char = '*' then .any :: ofMarked fuel rest
    else if m.char = '?' then .one :: ofMarked fuel rest
    else if m.char = '[' then
      match set? rest with
      | some (set, rest) => .among set :: ofMarked fuel rest
      | none => .exact '[' :: ofMarked fuel rest
    else .exact m.char :: ofMarked fuel rest

/-- A backslash in a value quotes the character after it. -/
def protect : List Marked → List Marked
  | [] => []
  | ⟨'\\', false⟩ :: m :: rest => ⟨m.char, true⟩ :: protect rest
  | m :: rest => m :: protect rest

def ofWord (s : List Marked) : List Pattern := ofMarked s.length (protect s)

/-- The pattern fits the whole text. -/
def fits : List Pattern → Octets → Bool
  | [], s => s.isEmpty
  | [.any], _ => true
  | .any :: rest, [] => fits rest []
  | .any :: rest, c :: s => fits rest (c :: s) || fits (.any :: rest) s
  | .one :: rest, _ :: s => fits rest s
  | .among set :: rest, c :: s => set.contains c && fits rest s
  | .exact wanted :: rest, c :: s => wanted == c && fits rest s
  | _ :: _, [] => false
termination_by patterns s => (patterns.length, s.length)

/-- A pattern of exact characters fits its own text only. -/
theorem fits_exact_iff (text s : Octets) : fits (text.map .exact) s = true ↔ s = text := by
  induction text generalizing s with
  | nil => cases s <;> simp [fits]
  | cons wanted rest ih =>
    cases s with
    | nil => simp [fits]
    | cons c s =>
      rw [List.map_cons, fits, Bool.and_eq_true, ih, beq_iff_eq, List.cons.injEq, eq_comm]

/-- Some character of the text may act as a pattern. -/
def isActive (s : List Marked) : Bool :=
  (protect s).any fun m => !m.quoted && (m.char = '*' || m.char = '?' || m.char = '[')

/-- The text without the part at one end that the pattern fits. -/
def trim (fromEnd longest : Bool) (pattern : List Pattern) (s : Octets) : Octets :=
  let cuts := List.range (s.length + 1)
  if fromEnd then
    let order := if longest then cuts else cuts.reverse
    match order.find? fun n => fits pattern (s.drop n) with
    | some n => s.take n
    | none => s
  else
    let order := if longest then cuts.reverse else cuts
    match order.find? fun n => fits pattern (s.take n) with
    | some n => s.drop n
    | none => s

end Pattern

end Unscramble.Script
