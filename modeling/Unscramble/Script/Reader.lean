import Unscramble.Script.Reader.Token

/-!
# Reading scripts

A script is read one line at a time, or as many lines as a command takes, so that a
fault shows only when the commands before it have run.
-/

namespace Unscramble.Script

/-- A text that names a variable and gives it a value. -/
def assignment? : Word → Option (String × Word)
  | .text false chars :: rest =>
    let name := chars.takeWhile isNameChar
    match chars.drop name.length with
    | '=' :: value =>
      if isName name then
        some (String.ofList name, if value = [] then rest else .text false value :: rest)
      else none
    | _ => none
  | _ => none

/-- Commands whose faults end a script and whose names no function may have. -/
def specialBuiltins : List String :=
  [".", ":", "break", "continue", "eval", "exec", "exit", "export", "local", "readonly", "return", "set",
   "shift", "times", "trap", "unset"]

/-- How a list of commands ends. -/
inductive ListEnd
  /-- With its line. -/
  | line
  /-- With a keyword or a bracket, after a command at least. -/
  | keyword
  /-- With a keyword or a bracket, perhaps at once. -/
  | anywhere
deriving DecidableEq, Repr

mutual

/-- The next token, with the commands that lie in its words. -/
def next (request : Request) : (fuel : Nat) → Reader Token
  | 0 => return .stop
  | fuel + 1 => readToken (list .anywhere fuel) request
termination_by structural fuel => fuel

/-- A list of commands. -/
def list (ending : ListEnd) : (fuel : Nat) → Reader (List Command)
  | 0 => return []
  | fuel + 1 => listFrom ending [] fuel
termination_by structural fuel => fuel

/-- The commands of a list after those that have been read. -/
def listFrom (ending : ListEnd) (done : List Command) : (fuel : Nat) → Reader (List Command)
  | 0 => return done
  | fuel + 1 => do
    match ← next { keywords := true, newlines := ending ≠ .line } fuel with
    | .newline =>
      readDocuments (list .anywhere fuel)
      return done
    | .stop =>
      readDocuments (list .anywhere fuel)
      hold .stop
      return done
    | token =>
      hold token
      if token.endsList ∧ (ending = .anywhere ∨ (ending = .keyword ∧ done ≠ [])) then return done
      let command ← andOr fuel
      let after ← next {} fuel
      let command := match after with
        | .background => .background command
        | _ => command
      let done := done ++ [command]
      match after with
      | .stop =>
        readDocuments (list .anywhere fuel)
        hold .stop
        return done
      | .newline =>
        hold .newline
        listFrom ending done fuel
      | .background | .semicolon => listFrom ending done fuel
      | token =>
        if ending = .line then unexpected token none
        hold token
        return done
termination_by structural fuel => fuel

/-- Commands that depend on one another. -/
def andOr : (fuel : Nat) → Reader Command
  | 0 => fault "Command too long"
  | fuel + 1 => do
    let first ← pipeline {} fuel
    andOrFrom first fuel
termination_by structural fuel => fuel

def andOrFrom (first : Command) : (fuel : Nat) → Reader Command
  | 0 => return first
  | fuel + 1 => do
    match ← next {} fuel with
    | .andIf => andOrFrom (.andThen first (← pipeline { keywords := true, newlines := true } fuel)) fuel
    | .orIf => andOrFrom (.orElse first (← pipeline { keywords := true, newlines := true } fuel)) fuel
    | token =>
      hold token
      return first
termination_by structural fuel => fuel

/-- Commands that feed one another. -/
def pipeline (request : Request) : (fuel : Nat) → Reader Command
  | 0 => fault "Command too long"
  | fuel + 1 => do
    let token ← next request fuel
    let negated := token.isKeyword "!"
    unless negated do hold token
    let first ← command (if negated then { keywords := true } else {}) fuel
    let others ← pipelineRest fuel
    let whole := if others.isEmpty then first else .pipeline (first :: others)
    return if negated then .negation whole else whole
termination_by structural fuel => fuel

def pipelineRest : (fuel : Nat) → Reader (List Command)
  | 0 => return []
  | fuel + 1 => do
    match ← next {} fuel with
    | .bar =>
      let second ← command { keywords := true, newlines := true } fuel
      return second :: (← pipelineRest fuel)
    | token =>
      hold token
      return []
termination_by structural fuel => fuel

/-- A keyword that has to come next. -/
def expect (name : String) : (fuel : Nat) → Reader Unit
  | 0 => return ()
  | fuel + 1 => do
    let token ← next {} fuel
    if token.isKeyword name then return () else unexpected token (some (.keyword name))
termination_by structural fuel => fuel

/-- One command. -/
def command (request : Request) : (fuel : Nat) → Reader Command
  | 0 => fault "Command too long"
  | fuel + 1 => do
    let line := (← get).line
    match ← next request fuel with
    | .keyword "if" =>
      let found ← branch fuel
      finish line found fuel
    | .keyword "while" => finish line (← loopOf false fuel) fuel
    | .keyword "until" => finish line (← loopOf true fuel) fuel
    | .keyword "for" => finish line (← eachOf line fuel) fuel
    | .keyword "case" => finish line (← chooseOf line fuel) fuel
    | .keyword "\x7b" =>
      let body ← list .keyword fuel
      expect "\x7d" fuel
      finish line (.group body) fuel
    | .opening =>
      let body ← list .keyword fuel
      match ← next {} fuel with
      | .closing => pure ()
      | token => unexpected token (some .closing)
      return .subshell line body (← redirects fuel)
    | .word pieces plain =>
      hold (.word pieces plain)
      simple fuel
    | .file descriptor mode =>
      hold (.file descriptor mode)
      simple fuel
    | .copy descriptor =>
      hold (.copy descriptor)
      simple fuel
    | .document descriptor stripTabs =>
      hold (.document descriptor stripTabs)
      simple fuel
    | token => unexpected token none
termination_by structural fuel => fuel

/-- The redirects after a command that is no simple one. -/
def finish (line : Nat) (found : Command) : (fuel : Nat) → Reader Command
  | 0 => return found
  | fuel + 1 => do
    let after ← redirects fuel
    return if after.isEmpty then found else .redirected line found after
termination_by structural fuel => fuel

def redirects : (fuel : Nat) → Reader (List Redirect)
  | 0 => return []
  | fuel + 1 => do
    let token ← next { keywords := true } fuel
    match ← redirectOf token fuel with
    | some redirect => return redirect :: (← redirects fuel)
    | none =>
      hold token
      return []
termination_by structural fuel => fuel

/-- The redirect that a token starts, with the word that it needs. -/
def redirectOf (token : Token) : (fuel : Nat) → Reader (Option Redirect)
  | 0 => return none
  | fuel + 1 => do
    match token with
    | .file descriptor mode =>
      match ← next {} fuel with
      | .word pieces _ => return some (.file descriptor mode pieces)
      | token => unexpected token none
    | .copy descriptor =>
      match ← next {} fuel with
      | .word pieces _ => return some (.copy descriptor pieces)
      | token => unexpected token none
    | .document descriptor stripTabs =>
      match ← next { literal := true } fuel with
      | .word pieces plain =>
        let ending := pieces.flatMap fun piece => match piece with
          | .text _ chars => chars
          | _ => []
        let source ← get
        let number := source.nextNumber
        set { source with
          nextNumber := number + 1
          announced := source.announced ++ [Announced.mk number ending stripTabs (!plain)] }
        return some (.document descriptor number)
      | token => unexpected token none
    | _ => return none
termination_by structural fuel => fuel

/-- The rest of a branch after its keyword. -/
def branch : (fuel : Nat) → Reader Command
  | 0 => fault "Command too long"
  | fuel + 1 => do
    let test ← list .keyword fuel
    expect "then" fuel
    let yes ← list .keyword fuel
    match ← next {} fuel with
    | .keyword "elif" => return .branch test yes [← branch fuel]
    | .keyword "else" =>
      let no ← list .keyword fuel
      expect "fi" fuel
      return .branch test yes no
    | token =>
      if token.isKeyword "fi" then return .branch test yes []
      else unexpected token (some (.keyword "fi"))
termination_by structural fuel => fuel

def loopOf (untilTrue : Bool) : (fuel : Nat) → Reader Command
  | 0 => fault "Command too long"
  | fuel + 1 => do
    let test ← list .keyword fuel
    expect "do" fuel
    let body ← list .keyword fuel
    expect "done" fuel
    return .loop untilTrue test body
termination_by structural fuel => fuel

def eachOf (line : Nat) : (fuel : Nat) → Reader Command
  | 0 => fault "Command too long"
  | fuel + 1 => do
    let token ← next {} fuel
    match (plainText? token).filter isName with
    | none => fault "Bad for loop variable"
    | some name =>
      let words ← match ← next { keywords := true, newlines := true } fuel with
        | .keyword "in" => wordsOf fuel
        | .semicolon => pure [allArguments]
        | token =>
          hold token
          pure [allArguments]
      let token ← next { keywords := true, newlines := true } fuel
      if ¬ token.isKeyword "do" then unexpected token (some (.keyword "do"))
      let body ← list .keyword fuel
      expect "done" fuel
      return .each line (String.ofList name) words body
termination_by structural fuel => fuel

/-- Words up to the end of a line. -/
def wordsOf : (fuel : Nat) → Reader (List Word)
  | 0 => return []
  | fuel + 1 => do
    match ← next {} fuel with
    | .word pieces _ => return pieces :: (← wordsOf fuel)
    | .newline | .semicolon => return []
    | token => unexpected token none
termination_by structural fuel => fuel

def chooseOf (line : Nat) : (fuel : Nat) → Reader Command
  | 0 => fault "Command too long"
  | fuel + 1 => do
    match ← next {} fuel with
    | .word subject _ =>
      let token ← next { keywords := true, newlines := true } fuel
      if ¬ token.isKeyword "in" then unexpected token (some (.keyword "in"))
      return .choose line subject (← armsOf fuel)
    | token => unexpected token (some (.word [] true))
termination_by structural fuel => fuel

/-- The arms of a choice, up to its end. -/
def armsOf : (fuel : Nat) → Reader (List (List Word × List Command))
  | 0 => return []
  | fuel + 1 => do
    let token ← next { keywords := true, newlines := true } fuel
    if token.isKeyword "esac" then return []
    let token ← match token with
      | .opening => next {} fuel
      | token => pure token
    let patterns ← patternsOf token fuel
    let body ← list .anywhere fuel
    let after ← next { keywords := true, newlines := true } fuel
    if after.isKeyword "esac" then return [(patterns, body)]
    match after with
    | .doubleSemicolon => return (patterns, body) :: (← armsOf fuel)
    | token => unexpected token (some .doubleSemicolon)
termination_by structural fuel => fuel

/-- The patterns of an arm, of which the first token has been read. -/
def patternsOf (token : Token) : (fuel : Nat) → Reader (List Word)
  | 0 => return []
  | fuel + 1 => do
    let pattern ← match token with
      | .word pieces _ => pure pieces
      | .keyword name => pure [Piece.text false name.toList]
      | token => unexpected token (some .closing)
    match ← next {} fuel with
    | .bar =>
      let token ← next {} fuel
      return pattern :: (← patternsOf token fuel)
    | .closing => return [pattern]
    | token => unexpected token (some .closing)
termination_by structural fuel => fuel

/-- A simple command, or the definition of a function. -/
def simple : (fuel : Nat) → Reader Command
  | 0 => fault "Command too long"
  | fuel + 1 => do
    let line := (← get).line
    simpleFrom line [] [] [] fuel
termination_by structural fuel => fuel

def simpleFrom (line : Nat) (assignments : List (String × Word)) (words : List Token)
    (found : List Redirect) : (fuel : Nat) → Reader Command
  | 0 => fault "Command too long"
  | fuel + 1 => do
    let token ← next {} fuel
    match token with
    | .word pieces _ =>
      match assignment? pieces with
      | some assignment =>
        if words.isEmpty then simpleFrom line (assignments ++ [assignment]) words found fuel
        else simpleFrom line assignments (words ++ [token]) found fuel
      | none => simpleFrom line assignments (words ++ [token]) found fuel
    | .opening =>
      match words with
      | [name] =>
        if assignments.isEmpty ∧ found.isEmpty then
          match ← next {} fuel with
          | .closing => pure ()
          | token => unexpected token (some .closing)
          match (plainText? name).filter fun chars =>
              isName chars && !specialBuiltins.contains (String.ofList chars) with
          | some chars =>
            let line := (← get).line
            let body ← command { keywords := true, newlines := true } fuel
            return .define line (String.ofList chars) body
          | none => fault "Bad function name"
        else unexpected token none
      | _ => unexpected token none
    | token =>
      match ← redirectOf token fuel with
      | some redirect => simpleFrom line assignments words (found ++ [redirect]) fuel
      | none =>
        hold token
        let words := words.filterMap fun word => match word with
          | .word pieces _ => some pieces
          | _ => none
        return .simple line assignments words found
termination_by structural fuel => fuel

end

/-- The commands of the next lines that belong together; none at the end. -/
def readLine : Reader (Option (List Command)) := do
  let length := (← get).rest.length
  let waiting : Bool := match (← get).held with
    | none | some .stop => false
    | some _ => true
  if ¬ waiting ∧ (← peek).isNone then return none
  let commands ← list .line (16 * (length + 4))
  return some commands

end Unscramble.Script
