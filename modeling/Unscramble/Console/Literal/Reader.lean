import Unscramble.Console.Literal.Token

/-!
# Reading an expression

An expression is read twice.  The first reading only finds out whether it is
one.  If it is not, the second reading stops at the first place where a usual
slip can be named: a missing comma, a single equals sign, a key without a value.
-/

namespace Unscramble.Console.Literal

/-- What an expression is, as far as literals go. -/
inductive Node
  | number (imaginary : Bool)
  | constant (described : String)
  | name (text : String)
  | tuple (items : List Node)
  | set (items : List Node)
  | dict (items : List (Option Node × Node))
  | call (function : Node) (bare : Bool)
  | sign (operand : Node)
  | sum (left right : Node)
  | starred
  | other (described : String)

/-- How a message names an expression that nothing can be assigned to. -/
def Node.described : Node → String
  | number _ => "literal"
  | constant described | other described => described
  | name _ => "name"
  | tuple _ => "tuple"
  | set _ => "set display"
  | dict _ => "dict literal"
  | call .. => "function call"
  | sign _ | sum .. => "expression"
  | starred => "starred"

/-- The tokens still to be read, and the brackets that are open after the last one
that has been read. -/
structure Place where
  rest : List Placed
  depth : Nat

/-- A reading fails without a complaint where another one may still succeed. -/
abbrev Reader := StateT Place (Except (Option String))

def fail {α : Type} : Reader α := throw none

def complain {α : Type} (complaint : String) : Reader α := throw (some complaint)

/-- The next token, which is not taken.  Where the tokens stop is a fault. -/
def peek : Reader (Option Token) := do
  match (← get).rest with
  | ⟨.stop complaint, _⟩ :: _ => complain complaint
  | ⟨token, _⟩ :: _ => return some token
  | [] => return none

def advance : Reader Unit := modify fun place =>
  match place.rest with
  | ⟨_, depth⟩ :: rest => ⟨rest, depth⟩
  | [] => place

/-- Take a mark or a word if it comes next. -/
def takes (token : Token) : Reader Bool := do
  if (← peek) = some token then
    advance
    return true
  else return false

def isNext (token : Token) : Reader Bool := return (← peek) = some token

def expect (token : Token) : Reader Unit := do
  if ← takes token then return () else fail

/-- A reading that leaves everything as it was if it fails. -/
def attempt {α : Type} (reader : Reader α) : Reader (Option α) := fun place =>
  match reader place with
  | .ok (value, place) => .ok (some value, place)
  | .error none => .ok (none, place)
  | .error (some complaint) => .error (some complaint)

/-- What could be read from here; nothing is taken. -/
def ahead {α : Type} (reader : Reader α) : Reader (Option α) := do
  let place ← get
  let value ← attempt reader
  set place
  return value

def keywords : List String :=
  ["False", "None", "True", "and", "as", "assert", "async", "await", "break", "class", "continue",
   "def", "del", "elif", "else", "except", "finally", "for", "from", "global", "if", "import",
   "in", "is", "lambda", "nonlocal", "not", "or", "pass", "raise", "return", "try", "while",
   "with", "yield"]

/-- Names that are keywords in some places only. -/
def softKeywords : List String := ["_", "case", "match"]

/-- Names that once were statements. -/
def legacyNames : List String := ["print", "exec"]

/-- Marks between operands, from those that bind loosely to those that bind tightly. -/
def operators : Nat → List String
  | 4 => ["|"]
  | 5 => ["^"]
  | 6 => ["&"]
  | 7 => ["<<", ">>"]
  | 8 => ["+", "-"]
  | 9 => ["*", "/", "//", "%", "@"]
  | _ => []

def comparisons : List String := ["==", "!=", "<=", "<", ">=", ">"]

/-- An operator of a level that comes next. -/
def operator (level : Nat) : Reader (Option String) := do
  match ← peek with
  | some (.mark m) =>
    if m ∈ operators level ∨ (level = 3 ∧ m ∈ comparisons) then
      advance
      return some m
    else return none
  | some (.name word) =>
    match level, word with
    | 0, "or" | 1, "and" | 3, "in" =>
      advance
      return some word
    | 3, "is" =>
      advance
      let _ ← takes (.name "not")
      return some word
    | 3, "not" => attempt do
        advance
        expect (.name "in")
        return word
    | _, _ => return none
  | _ => return none

/-- The node of two operands. -/
def joined (level : Nat) (left right : Node) : Node :=
  if level = 8 then .sum left right
  else .other (if level = 3 then "comparison" else "expression")

/-- One piece of quoted text. -/
structure Quoted where
  bytes : Bool
  formatted : Bool
  plain : Bool

/-- Pieces of quoted text side by side. -/
def quotedPieces : (fuel : Nat) → Reader (List Quoted)
  | 0 => fail
  | fuel + 1 => do
    match ← peek with
    | some (.quoted bytes formatted plain) =>
      advance
      return ⟨bytes, formatted, plain⟩ :: (← quotedPieces fuel)
    | _ => return []

/-- Quoted text that is written next to quoted text; bytes and characters do not
mix. -/
def quotedNode (fuel : Nat) : Reader Node := do
  let pieces ← quotedPieces fuel
  let _ ← pieces.foldlM (fun before piece => do
    if piece.bytes ∧ ¬ piece.plain then complain "bytes can only contain ASCII literal characters"
    match before with
    | some bytes => if bytes ≠ piece.bytes then complain "cannot mix bytes and nonbytes literals"
    | none => pure ()
    return some piece.bytes) (none : Option Bool)
  return if pieces.any Quoted.formatted then .other "f-string expression" else .constant "literal"

mutual

/-- A condition, or a function without a name. -/
def expression (strict : Bool) : (fuel : Nat) → Reader Node
  | 0 => fail
  | fuel + 1 => do
    let start ← peek
    if start = some (.name "lambda") then
      advance
      parameters fuel
      expect (.mark ":")
      let _ ← expression strict fuel
      return .other "lambda"
    let left ← binary strict 0 fuel
    if strict then missingComma start left fuel
    if ← isNext (.name "if") then
      let whole ← attempt do
        advance
        let _ ← binary strict 0 fuel
        if ← takes (.name "else") then
          let _ ← expression strict fuel
        else if strict ∧ ¬ (← isNext (.mark ":")) then
          complain "expected 'else' after 'if' expression"
        else fail
      return if whole.isSome then .other "conditional expression" else left
    else return left

/-- Names that a function without a name takes. -/
def parameters : (fuel : Nat) → Reader Unit
  | 0 => fail
  | fuel + 1 => do
    match ← peek with
    | some (.name word) =>
      if word ∈ keywords then fail
      advance
      if ← takes (.mark ",") then parameters fuel
    | _ => return ()

/-- Two expressions side by side inside brackets lack a comma between them. -/
def missingComma (start : Option Token) (left : Node) : (fuel : Nat) → Reader Unit
  | 0 => fail
  | fuel + 1 => do
    let next ← peek
    let guarded := match start, next with
      | some (.name word), some (.quoted ..) => !keywords.contains word || softKeywords.contains word
      | some (.name word), _ => softKeywords.contains word
      | _, _ => false
    let legacy := match left with
      | .name word => legacyNames.find? (· = word)
      | _ => none
    let second ← ahead do
      let _ ← expression false fuel
      return (← get).depth
    match second with
    | some depth =>
      match legacy with
      | some word =>
        complain ("Missing parentheses in call to '" ++ word ++ "'. Did you mean " ++ word
          ++ "(...)?")
      | none =>
        if ¬ guarded ∧ depth ≠ 0 then complain "invalid syntax. Perhaps you forgot a comma?"
        match left with
        | .name _ =>
          let _ ← ahead do
            let _ ← expression true fuel
            items true fuel
        | _ => return ()
    | none =>
      match left with
      | .name _ =>
        let _ ← ahead do
          let _ ← expression true fuel
          items true fuel
      | _ => return ()

/-- Operands of one level with operators between them. -/
def binary (strict : Bool) (level : Nat) : (fuel : Nat) → Reader Node
  | 0 => fail
  | fuel + 1 => do
    if level = 2 then
      if ← takes (.name "not") then
        let _ ← binary strict 2 fuel
        return .other "expression"
      else binary strict 3 fuel
    else if level = 10 then
      match ← peek with
      | some (.mark m) =>
        if m = "+" ∨ m = "-" then
          advance
          return .sign (← binary strict 10 fuel)
        else if m = "~" then
          advance
          let _ ← binary strict 10 fuel
          return .other "expression"
        else power strict fuel
      | _ => power strict fuel
    else
      let left ← binary strict (level + 1) fuel
      operands strict level left fuel

/-- The operands after the first one. -/
def operands (strict : Bool) (level : Nat) (left : Node) : (fuel : Nat) → Reader Node
  | 0 => fail
  | fuel + 1 => do
    let right ← attempt do
      match ← operator level with
      | some _ => binary strict (level + 1) fuel
      | none => fail
    match right with
    | some right => operands strict level (joined level left right) fuel
    | none => return left

def power (strict : Bool) : (fuel : Nat) → Reader Node
  | 0 => fail
  | fuel + 1 => do
    let awaited ← takes (.name "await")
    let base ← atom strict fuel
    let node ← trailers strict base fuel
    let node := if awaited then .other "await expression" else node
    let raised ← attempt do
      expect (.mark "**")
      let _ ← binary strict 10 fuel
    return if raised.isSome then .other "expression" else node

/-- Attributes and arguments after an operand. -/
def trailers (strict : Bool) (node : Node) : (fuel : Nat) → Reader Node
  | 0 => fail
  | fuel + 1 => do
    let more ← attempt do
      if ← takes (.mark ".") then
        match ← peek with
        | some (.name word) =>
          if word ∈ keywords then fail
          advance
          return .other "attribute"
        | _ => fail
      else
        expect (.mark "(")
        let bare ← isNext (.mark ")")
        arguments strict fuel
        expect (.mark ")")
        return .call node bare
    match more with
    | some node => trailers strict node fuel
    | none => return node

/-- The arguments of a call. -/
def arguments (strict : Bool) : (fuel : Nat) → Reader Unit
  | 0 => fail
  | fuel + 1 => do
    if ← isNext (.mark ")") then return ()
    if ← isNext (.mark "*") then
      if strict then starSlips fuel
      advance
      let _ ← expression strict fuel
    else if ← takes (.mark "**") then
      let _ ← expression strict fuel
    else
      let keyword ← attempt do
        match ← peek with
        | some (.name word) =>
          if word ∈ keywords then fail
          advance
          expect (.mark "=")
          let _ ← expression strict fuel
        | _ => fail
      if keyword.isNone then
        let _ ← expression strict fuel
        if strict ∧ (← isNext (.mark "=")) then
          complain "expression cannot contain assignment, perhaps you meant \"==\"?"
        if ← takes (.mark ":=") then
          let _ ← expression strict fuel
        else clauses strict fuel
    if ← takes (.mark ",") then arguments strict fuel

/-- An expression that may give a name to its value. -/
def namedExpression (strict : Bool) : (fuel : Nat) → Reader Node
  | 0 => fail
  | fuel + 1 => do
    let start ← peek
    let node ← expression strict fuel
    if ← isNext (.mark ":=") then
      let value ← attempt do
        advance
        let _ ← expression strict fuel
      match node, value with
      | .name _, some _ => return .other "named expression"
      | _, some _ =>
        if strict then complain ("cannot use assignment expressions with " ++ node.described)
        else fail
      | _, none => fail
    else
      if strict then singleEquals start node fuel
      return node

/-- A single equals sign where two are meant. -/
def singleEquals (start : Option Token) (node : Node) : (fuel : Nat) → Reader Unit
  | 0 => fail
  | fuel + 1 => do
    let assigned ← ahead do
      expect (.mark "=")
      let _ ← binary true 4 fuel
      if (← isNext (.mark "=")) ∨ (← isNext (.mark ":=")) then fail
    if assigned.isSome then
      match node with
      | .name _ => complain "invalid syntax. Maybe you meant '==' or ':=' instead of '='?"
      | .tuple _ | .other "comparison" | .other "generator expression"
      | .other "conditional expression" | .other "lambda" => return ()
      | _ =>
        if start ∈ [some (.name "True"), some (.name "False"), some (.name "None")] then return ()
        else complain ("cannot assign to " ++ node.described
          ++ " here. Maybe you meant '==' instead of '='?")

/-- The clauses of a comprehension, if there are any. -/
def clauses (strict : Bool) : (fuel : Nat) → Reader Unit
  | 0 => fail
  | fuel + 1 => do
    if ← takes (.name "for") then
      let _ ← binary strict 4 fuel
      expect (.name "in")
      let _ ← binary strict 0 fuel
      conditions strict fuel
      clauses strict fuel

def conditions (strict : Bool) : (fuel : Nat) → Reader Unit
  | 0 => fail
  | fuel + 1 => do
    if ← takes (.name "if") then
      let _ ← binary strict 0 fuel
      conditions strict fuel

/-- A star needs an expression. -/
def starSlips : (fuel : Nat) → Reader Unit
  | 0 => fail
  | fuel + 1 => do
    if ← isNext (.mark "*") then
      let found ← ahead do
        advance
        expression true fuel
      if found.isNone then complain "Invalid star expression"

/-- An item of a list of items. -/
def item (strict : Bool) : (fuel : Nat) → Reader Node
  | 0 => fail
  | fuel + 1 => do
    if ← takes (.mark "*") then
      let _ ← binary strict 4 fuel
      return .starred
    else namedExpression strict fuel

/-- Items after the first one, with commas between them. -/
def items (strict : Bool) : (fuel : Nat) → Reader (List Node)
  | 0 => fail
  | fuel + 1 => do
    if ← takes (.mark ",") then
      match ← attempt (item strict fuel) with
      | some node => return node :: (← items strict fuel)
      | none => return []
    else return []

/-- What stands between round brackets. -/
def group (strict : Bool) : (fuel : Nat) → Reader Node
  | 0 => fail
  | fuel + 1 => do
    if ← takes (.mark ")") then return .tuple []
    if strict ∧ (← isNext (.mark "**")) then
      let found ← ahead do
        advance
        let _ ← expression strict fuel
        expect (.mark ")")
      if found.isSome then complain "cannot use double starred expression here"
    if ← takes (.name "yield") then
      let _ ← attempt (item strict fuel)
      expect (.mark ")")
      return .other "yield expression"
    if strict then starSlips fuel
    let first ← item strict fuel
    if ← isNext (.mark ",") then
      let rest ← items strict fuel
      expect (.mark ")")
      return .tuple (first :: rest)
    match first with
    | .starred =>
      if strict ∧ (← isNext (.mark ")")) then complain "cannot use starred expression here"
      else fail
    | first =>
      if ← takes (.mark ")") then return first
      else if ← isNext (.name "for") then
        clauses strict fuel
        expect (.mark ")")
        return .other "generator expression"
      else fail

/-- A key with its value; two stars bring in the items of another dictionary. -/
def pair (strict : Bool) : (fuel : Nat) → Reader (Option Node × Node)
  | 0 => fail
  | fuel + 1 => do
    if ← takes (.mark "**") then return (none, ← binary strict 4 fuel)
    let key ← expression strict fuel
    if ← takes (.mark ":") then
      match ← peek with
      | some (.mark m) =>
        if strict ∧ (m = "\x7d" ∨ m = ",") then
          complain "expression expected after dictionary key and ':'"
        if strict ∧ m = "*" then complain "cannot use a starred expression in a dictionary value"
      | _ => pure ()
      return (some key, ← expression strict fuel)
    else fail

/-- The pairs after the first one. -/
def pairs (strict : Bool) : (fuel : Nat) → Reader (List (Option Node × Node))
  | 0 => fail
  | fuel + 1 => do
    if ← takes (.mark ",") then
      if ← isNext (.mark "\x7d") then return []
      match ← attempt (pair strict fuel) with
      | some found => return found :: (← pairs strict fuel)
      | none =>
        if strict then
          let key ← ahead (expression strict fuel)
          if key.isSome then complain "':' expected after dictionary key"
        fail
    else return []

/-- What stands between curly brackets. -/
def braced (strict : Bool) : (fuel : Nat) → Reader Node
  | 0 => fail
  | fuel + 1 => do
    if ← takes (.mark "\x7d") then return .dict []
    match ← attempt (pair strict fuel) with
    | some first =>
      if ← isNext (.name "for") then
        clauses strict fuel
        expect (.mark "\x7d")
        return .other "dict comprehension"
      else
        let rest ← pairs strict fuel
        expect (.mark "\x7d")
        return .dict (first :: rest)
    | none =>
      if strict then starSlips fuel
      let first ← item strict fuel
      if ← isNext (.name "for") then
        clauses strict fuel
        expect (.mark "\x7d")
        return .other "set comprehension"
      else
        let rest ← items strict fuel
        expect (.mark "\x7d")
        return .set (first :: rest)

def atom (strict : Bool) : (fuel : Nat) → Reader Node
  | 0 => fail
  | fuel + 1 => do
    match ← peek with
    | some (.name word) =>
      match word with
      | "True" | "False" | "None" =>
        advance
        return .constant word
      | _ =>
        if word ∈ keywords then fail
        advance
        return .name word
    | some (.number imaginary) =>
      advance
      return .number imaginary
    | some (.quoted ..) => quotedNode fuel
    | some (.mark "...") =>
      advance
      return .constant "ellipsis"
    | some (.mark "(") =>
      advance
      group strict fuel
    | some (.mark "\x7b") =>
      advance
      braced strict fuel
    | _ => fail

end

/-- A whole text: expressions with commas between them. -/
def whole (strict : Bool) (fuel : Nat) : Reader Node := do
  let first ← expression strict fuel
  let node ← if ← isNext (.mark ",") then
      let rest ← moreExpressions fuel
      pure (Node.tuple (first :: rest))
    else pure first
  ends fuel
  return node
where
  moreExpressions : (fuel : Nat) → Reader (List Node)
    | 0 => fail
    | fuel + 1 => do
      if ← takes (.mark ",") then
        match ← attempt (expression strict fuel) with
        | some node => return node :: (← moreExpressions fuel)
        | none => return []
      else return []
  ends : (fuel : Nat) → Reader Unit
    | 0 => fail
    | fuel + 1 => do
      match ← peek with
      | some (.mark "\n") =>
        advance
        ends fuel
      | some _ => fail
      | none => return ()

/-- The expression that a text is, or what is wrong with it. -/
def read (s : List Char) : Except String Node := do
  let tokens ← tokens s
  let fuel := 40 * (tokens.length + 1)
  match (whole false fuel).run ⟨tokens, 0⟩ with
  | .ok (node, _) => return node
  | .error (some complaint) => throw complaint
  | .error none =>
    match (whole true fuel).run ⟨tokens, 0⟩ with
    | .error (some complaint) => throw complaint
    | _ => throw "invalid syntax"

end Unscramble.Console.Literal
