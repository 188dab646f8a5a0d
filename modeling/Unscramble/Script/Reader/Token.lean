import Unscramble.Script.Reader.Word

/-!
# Reading tokens

A token is a word, an operator or the end of a line.  A word is a keyword only where
one may stand.  The text of a document follows the line that announces it, and is read
when the end of that line is passed.
-/

namespace Unscramble.Script

/-- What a reader of tokens asks for. -/
structure Request where
  keywords : Bool := false
  newlines : Bool := false
  literal : Bool := false

/-- The plain text of a word, if nothing in it is quoted or stands for something. -/
def plainText? : Token → Option Octets
  | .word [.text false chars] true => some chars
  | .word [] true => some []
  | _ => none

/-- A word that is a keyword where keywords are asked for. -/
def Token.asKeyword (token : Token) : Token :=
  match plainText? token with
  | some chars =>
    let name := String.ofList chars
    if keywords.contains name then .keyword name else token
  | none => token

/-- The lines of a document up to its last line: the text, the lines taken, the rest.
`joined` holds after a line that goes on. -/
def documentLines (announced : Announced) : (fuel : Nat) → (joined : Bool) → Octets →
    Octets × Nat × Octets
  | 0, _, s => ([], 0, s)
  | _, _, [] => ([], 0, [])
  | fuel + 1, joined, s =>
    let whole := s.takeWhile (· ≠ '\n')
    let after := s.drop (whole.length + 1)
    let line := if announced.stripTabs then whole.dropWhile (· = '\t') else whole
    if line = announced.ending ∧ ¬ joined then ([], 1, after)
    else
      let slashes := (line.reverse.takeWhile (· = '\\')).length
      let (text, lines, rest) :=
        documentLines announced fuel (!announced.quoted && slashes % 2 = 1) after
      (line ++ (if whole.length < s.length then ['\n'] else []) ++ text, lines + 1, rest)

/-- The redirect that starts with an angle bracket. -/
def redirectToken (descriptor : Option Nat) : Reader Token := do
  if ← takes '>' then
    let descriptor := descriptor.getD 1
    if ← takes '>' then return .file descriptor .append
    else if ← takes '|' then return .file descriptor .write
    else if ← takes '&' then return .copy descriptor
    else return .file descriptor .write
  else
    let _ ← takes '<'
    let descriptor := descriptor.getD 0
    if ← takes '<' then return .document descriptor (← takes '-')
    else if ← takes '&' then return .copy descriptor
    else if ← takes '>' then return .file descriptor .readWrite
    else return .file descriptor .read

variable (commands : Reader (List Command))

/-- The next token as it stands in the text. -/
def rawToken (literal : Bool) : (fuel : Nat) → Reader Token
  | 0 => return .stop
  | fuel + 1 => do
    match ← peek with
    | none => return .stop
    | some c =>
      if c = ' ' ∨ c = '\t' then
        let _ ← takeRaw
        rawToken literal fuel
      else if c = '#' then
        modify fun source => { source with rest := source.rest.dropWhile (· ≠ '\n') }
        rawToken literal fuel
      else if c = '<' ∨ c = '>' then redirectToken none
      else if isSeparator c then
        let _ ← takeRaw
        match c with
        | '\n' => return .newline
        | '&' => return if ← takes '&' then .andIf else .background
        | '|' => return if ← takes '|' then .orIf else .bar
        | ';' => return if ← takes ';' then .doubleSemicolon else .semicolon
        | '(' => return .opening
        | _ => return .closing
      else
        let before := (← get).rest
        let word ← pieces commands (.plain literal) {} fuel
        let after := (← get).rest
        let taken := before.take (before.length - after.length)
        match taken, after with
        | [d], c :: _ =>
          if d.isDigit ∧ (c = '<' ∨ c = '>') then
            return ← redirectToken (some (Octets.natural [d]))
        | _, _ => pure ()
        let quoted := word.any fun piece => match piece with
          | .text quoted _ => quoted
          | _ => false
        return .word word (!quoted)

/-- Read a document that has been announced. -/
def readDocument (announced : Announced) : Reader Unit := do
  let source ← get
  let (text, lines, rest) := documentLines announced (source.rest.length + 1) false source.rest
  set { source with rest, line := source.line + lines }
  let word ←
    if announced.quoted then pure [Piece.text true text]
    else within text source.line (pieces commands .document {} (wordFuel text))
  modify fun source => { source with documents := source.documents ++ [(announced.number, word)] }

/-- Read the documents that have been announced. -/
def readDocuments : Reader Unit := do
  let announced := (← get).announced
  modify fun source => { source with announced := [] }
  announced.forM (readDocument commands)

/-- The next token; `newlines` bounds how many newlines are passed. -/
def tokenAfter (request : Request) : (newlines : Nat) → Reader Token
  | 0 => return .stop
  | newlines + 1 => do
    let token ← match (← get).held with
      | some token =>
        modify fun source => { source with held := none }
        pure token
      | none => rawToken commands request.literal (wordFuel (← get).rest)
    match token with
    | .newline =>
      if request.newlines then
        readDocuments commands
        tokenAfter request newlines
      else return token
    | token => return if request.keywords then token.asKeyword else token

/-- The next token.  Documents are read where a newline is passed. -/
def readToken (request : Request) : Reader Token := do
  tokenAfter commands request ((← get).rest.length + 2)

end Unscramble.Script
