import Unscramble.Script.Octets

/-!
# Arithmetic

Expressions over whole numbers of 64 bits, with the operators of the shell.  Results
that do not fit wrap around.  A name stands for the number that its value spells.
-/

namespace Unscramble.Script

/-- Why an expression has no value. -/
inductive ArithmeticFault
  | noPrimary
  | noClosing
  | noColon
  | noEnd
  | divisionByZero
deriving DecidableEq, Repr

def ArithmeticFault.text : ArithmeticFault → String
  | noPrimary => "expecting primary"
  | noClosing => "expecting ')'"
  | noColon => "expecting ':'"
  | noEnd => "expecting EOF"
  | divisionByZero => "division by zero"

inductive Binary
  | multiply | divide | remainder
  | add | subtract
  | shiftLeft | shiftRight
  | less | lessEqual | greater | greaterEqual
  | equal | unequal
  | bitAnd | bitXor | bitOr
deriving DecidableEq, Repr

inductive Unary
  | plus | minus | not | complement
deriving DecidableEq, Repr

inductive Expression
  | number (n : Int)
  | name (name : String)
  | unary (op : Unary) (operand : Expression)
  | binary (op : Binary) (left right : Expression)
  | both (left right : Expression)
  | either (left right : Expression)
  | choice (test yes no : Expression)
  /-- Give the name the value, or what an operator makes of the old value and it. -/
  | assign (name : String) (op : Option Binary) (value : Expression)
deriving Repr

namespace Arithmetic

/-- The number of 64 bits that agrees with `n`. -/
def wrap (n : Int) : Int := n.bmod 0x10000000000000000

theorem wrap_eq_self {n : Int} (hlow : -0x8000000000000000 ≤ n) (hhigh : n < 0x8000000000000000) :
    wrap n = n := by
  unfold wrap
  rw [Int.bmod_def]
  omega

/-! ## Numbers in text -/

/-- Digits of a base at the start of a text. -/
def digitsOf (base : Nat) (s : Octets) : Octets :=
  s.takeWhile fun c => match c.toNat with
    | n =>
      if c.isDigit then n - 48 < base
      else base = 16 && (('a' ≤ c && c ≤ 'f') || ('A' ≤ c && c ≤ 'F'))

def digitValue (c : Char) : Nat :=
  if c.isDigit then c.toNat - 48 else c.toLower.toNat - 87

def valueOf (base : Nat) (digits : Octets) : Nat :=
  digits.foldl (fun n c => base * n + digitValue c) 0

/-- The number at the start of a text, in base sixteen, eight or ten, and the rest. -/
def magnitude (s : Octets) : Nat × Octets :=
  let read (base : Nat) (s : Octets) : Nat × Octets :=
    let digits := digitsOf base s
    (valueOf base digits, s.drop digits.length)
  match s with
  | '0' :: 'x' :: rest | '0' :: 'X' :: rest =>
    if digitsOf 16 rest = [] then (0, s.drop 1) else read 16 rest
  | '0' :: _ => read 8 s
  | s => read 10 s

/-- The greatest number of 64 bits. -/
def greatest : Nat := 0x7fffffffffffffff

/-- The number that a whole text spells, blanks around it allowed. -/
def spelled? (s : Octets) : Option Int :=
  let s := s.dropWhile Octets.isSpace
  let (negative, digits) := match s with
    | '-' :: rest => (true, rest)
    | '+' :: rest => (false, rest)
    | rest => (false, rest)
  if s = [] then some 0
  else if ¬ digits.head?.any Char.isDigit then none
  else
    let (n, rest) := magnitude digits
    if rest.all Octets.isSpace ∧ n ≤ (if negative then greatest + 1 else greatest) then
      some (if negative then -(n : Int) else n)
    else none

/-! ## Tokens -/

inductive Token
  | number (n : Int)
  | name (name : String)
  | mark (text : String)
deriving DecidableEq, Repr

/-- Operators, each before those that it starts with. -/
def marks : List String :=
  ["<<=", ">>=", "<<", ">>", "<=", ">=", "==", "!=", "&&", "||", "*=", "/=", "%=", "+=", "-=",
   "&=", "^=", "|=", "<", ">", "=", "!", "&", "|", "*", "/", "%", "+", "-", "^", "~", "?", ":",
   "(", ")"]

/-- The tokens of a text; what is none ends them as a mark of its own. -/
def tokens : (fuel : Nat) → Octets → List Token
  | 0, _ => []
  | _, [] => []
  | fuel + 1, c :: rest =>
    if c = ' ' ∨ c = '\t' ∨ c = '\n' then tokens fuel rest
    else if c.isDigit then
      let (n, rest) := magnitude (c :: rest)
      .number (min n greatest : Nat) :: tokens fuel rest
    else if isNameStart c then
      let name := (c :: rest).takeWhile isNameChar
      .name (String.ofList name) :: tokens fuel ((c :: rest).drop name.length)
    else
      match marks.find? fun mark => mark.toList.isPrefixOf (c :: rest) with
      | some mark => .mark mark :: tokens fuel ((c :: rest).drop mark.length)
      | none => [.mark ""]

/-! ## Expressions -/

/-- The operator of a mark and its rank; lower ranks bind more tightly. -/
def binary? : Token → Option (Binary × Nat)
  | .mark text =>
    [("*", Binary.multiply, 0), ("/", .divide, 0), ("%", .remainder, 0), ("+", .add, 1),
     ("-", .subtract, 1), ("<<", .shiftLeft, 2), (">>", .shiftRight, 2), ("<", .less, 3),
     ("<=", .lessEqual, 3), (">", .greater, 3), (">=", .greaterEqual, 3), ("==", .equal, 4),
     ("!=", .unequal, 4), ("&", .bitAnd, 5), ("^", .bitXor, 6), ("|", .bitOr, 7)].lookup text
  | _ => none

def lastRank : Nat := 7

/-- The operator that an assignment applies first. -/
def assignment? : Token → Option (Option Binary)
  | .mark "=" => some none
  | .mark text =>
    ([("*=", Binary.multiply), ("/=", .divide), ("%=", .remainder), ("+=", .add),
      ("-=", .subtract), ("<<=", .shiftLeft), (">>=", .shiftRight), ("&=", .bitAnd),
      ("^=", .bitXor), ("|=", .bitOr)].lookup text).map some
  | _ => none

def unary? : Token → Option Unary
  | .mark "+" => some .plus
  | .mark "-" => some .minus
  | .mark "!" => some .not
  | .mark "~" => some .complement
  | _ => none

abbrev Reading := Except ArithmeticFault (Expression × List Token)

mutual

def primary : (fuel : Nat) → List Token → Reading
  | 0, _ => .error .noPrimary
  | fuel + 1, tokens => do
    match tokens with
    | .number n :: rest => .ok (.number n, rest)
    | .name name :: rest => .ok (.name name, rest)
    | .mark "(" :: rest =>
      match ← assignment fuel rest with
      | (inner, .mark ")" :: rest) => .ok (inner, rest)
      | _ => .error .noClosing
    | token :: rest =>
      match unary? token with
      | some op =>
        let (operand, rest) ← primary fuel rest
        .ok (.unary op operand, rest)
      | none => .error .noPrimary
    | [] => .error .noPrimary

/-- Operands joined by operators of a rank or below. -/
def joined : (fuel : Nat) → (rank : Nat) → List Token → Reading
  | 0, _, _ => .error .noPrimary
  | fuel + 1, rank, tokens => do
    let (first, rest) ← match rank with
      | 0 => primary fuel tokens
      | rank + 1 => joined fuel rank tokens
    joinedFrom fuel rank first rest

/-- Operands of a rank after the first ones. -/
def joinedFrom : (fuel : Nat) → (rank : Nat) → Expression → List Token → Reading
  | 0, _, first, tokens => .ok (first, tokens)
  | fuel + 1, rank, first, tokens => do
    match tokens with
    | token :: rest =>
      match binary? token with
      | some (op, found) =>
        if found = rank then
          let (second, rest) ← match rank with
            | 0 => primary fuel rest
            | rank + 1 => joined fuel rank rest
          joinedFrom fuel rank (.binary op first second) rest
        else .ok (first, tokens)
      | none => .ok (first, tokens)
    | [] => .ok (first, [])

def conjunction : (fuel : Nat) → List Token → Reading
  | 0, _ => .error .noPrimary
  | fuel + 1, tokens => do
    match ← joined fuel lastRank tokens with
    | (first, .mark "&&" :: rest) =>
      let (second, rest) ← conjunction fuel rest
      .ok (.both first second, rest)
    | found => .ok found

def disjunction : (fuel : Nat) → List Token → Reading
  | 0, _ => .error .noPrimary
  | fuel + 1, tokens => do
    match ← conjunction fuel tokens with
    | (first, .mark "||" :: rest) =>
      let (second, rest) ← disjunction fuel rest
      .ok (.either first second, rest)
    | found => .ok found

def conditional : (fuel : Nat) → List Token → Reading
  | 0, _ => .error .noPrimary
  | fuel + 1, tokens => do
    match ← disjunction fuel tokens with
    | (test, .mark "?" :: rest) =>
      match ← assignment fuel rest with
      | (yes, .mark ":" :: rest) =>
        let (no, rest) ← conditional fuel rest
        .ok (.choice test yes no, rest)
      | _ => .error .noColon
    | found => .ok found

def assignment : (fuel : Nat) → List Token → Reading
  | 0, _ => .error .noPrimary
  | fuel + 1, tokens => do
    match tokens with
    | .name name :: token :: rest =>
      match assignment? token with
      | some op =>
        let (value, rest) ← assignment fuel rest
        .ok (.assign name op value, rest)
      | none => conditional fuel tokens
    | tokens => conditional fuel tokens

end

/-- The expression that a whole text spells. -/
def parse (s : Octets) : Except ArithmeticFault Expression := do
  let tokens := tokens (s.length + 1) s
  match ← assignment (16 * (tokens.length + 2)) tokens with
  | (expression, []) => .ok expression
  | _ => .error .noEnd

/-! ## Values -/

/-- The pattern of bits of a number. -/
def bits (n : Int) : BitVec 64 := BitVec.ofInt 64 n

def truth (b : Bool) : Int := if b then 1 else 0

def applyUnary (op : Unary) (n : Int) : Int :=
  match op with
  | .plus => n
  | .minus => wrap (-n)
  | .not => truth (n = 0)
  | .complement => -n - 1

def applyBinary (op : Binary) (a b : Int) : Except ArithmeticFault Int :=
  match op with
  | .multiply => .ok (wrap (a * b))
  | .divide => if b = 0 then .error .divisionByZero else .ok (wrap (a.tdiv b))
  | .remainder => if b = 0 then .error .divisionByZero else .ok (a.tmod b)
  | .add => .ok (wrap (a + b))
  | .subtract => .ok (wrap (a - b))
  | .shiftLeft => .ok (wrap (a * Int.pow 2 (b % 64).toNat))
  | .shiftRight => .ok (a / Int.pow 2 (b % 64).toNat)
  | .less => .ok (truth (a < b))
  | .lessEqual => .ok (truth (a ≤ b))
  | .greater => .ok (truth (a > b))
  | .greaterEqual => .ok (truth (a ≥ b))
  | .equal => .ok (truth (a = b))
  | .unequal => .ok (truth (a ≠ b))
  | .bitAnd => .ok (bits a &&& bits b).toInt
  | .bitXor => .ok (bits a ^^^ bits b).toInt
  | .bitOr => .ok (bits a ||| bits b).toInt

/-- Where names have their values, and what happens to a fault. -/
structure Registers (m : Type → Type) where
  read : String → m Int
  write : String → Int → m Unit
  refuse : ArithmeticFault → m Int

variable {m : Type → Type} [Monad m]

/-- The value of an expression.  What need not be known is not looked at. -/
def evaluate (registers : Registers m) : Expression → m Int
  | .number n => pure n
  | .name name => registers.read name
  | .unary op operand => do return applyUnary op (← evaluate registers operand)
  | .binary op left right => do
    let a ← evaluate registers left
    let b ← evaluate registers right
    match applyBinary op a b with
    | .ok n => pure n
    | .error why => registers.refuse why
  | .both left right => do
    if (← evaluate registers left) = 0 then return 0
    return truth ((← evaluate registers right) ≠ 0)
  | .either left right => do
    if (← evaluate registers left) ≠ 0 then return 1
    return truth ((← evaluate registers right) ≠ 0)
  | .choice test yes no => do
    if (← evaluate registers test) ≠ 0 then evaluate registers yes else evaluate registers no
  | .assign name op value => do
    let b ← evaluate registers value
    let n ← match op with
      | none => pure b
      | some op =>
        match applyBinary op (← registers.read name) b with
        | .ok n => pure n
        | .error why => registers.refuse why
    registers.write name n
    return n

end Arithmetic

end Unscramble.Script
