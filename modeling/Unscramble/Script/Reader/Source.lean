import Unscramble.Script.Basic

/-!
# The text of a script while it is read

A script is read from the front.  What is known of it, apart from the text to come,
is the line that has been reached, a token that has been looked at and not used, and
the documents that have been announced and those that have been read.
-/

namespace Unscramble.Script

/-- Why a script cannot be read on, and the line that was reached. -/
structure SyntaxFault where
  line : Nat
  text : String
deriving DecidableEq, Repr

inductive Token
  | newline
  | semicolon
  | background
  | andIf
  | orIf
  | bar
  | opening
  | closing
  | doubleSemicolon
  | stop
  | keyword (name : String)
  /-- `plain` tells whether nothing in the word was quoted. -/
  | word (pieces : Word) (plain : Bool)
  | file (descriptor : Nat) (mode : OpenMode)
  | copy (descriptor : Nat)
  | document (descriptor : Nat) (stripTabs : Bool)

/-- How a token is called in a message. -/
def Token.described : Token → String
  | newline => "newline"
  | semicolon => "\";\""
  | background => "\"&\""
  | andIf => "\"&&\""
  | orIf => "\"||\""
  | bar => "\"|\""
  | opening => "\"(\""
  | closing => "\")\""
  | doubleSemicolon => "\";;\""
  | stop => "end of file"
  | keyword name => "\"" ++ name ++ "\""
  | word .. => "word"
  | file .. | copy _ | document .. => "redirection"

def keywords : List String :=
  ["!", "case", "do", "done", "elif", "else", "esac", "fi", "for", "if", "in", "then", "until",
   "while", "\x7b", "\x7d"]

/-- The token ends a list of commands. -/
def Token.endsList : Token → Bool
  | stop | closing | doubleSemicolon => true
  | keyword name =>
    ["do", "done", "elif", "else", "esac", "fi", "then", "\x7d"].contains name
  | _ => false

def Token.isKeyword (token : Token) (name : String) : Bool :=
  match token with
  | keyword found => found = name
  | _ => false

/-- A document that has been announced. -/
structure Announced where
  number : Nat
  ending : Octets
  stripTabs : Bool
  quoted : Bool

/-- The text still to be read and what is known of it. -/
structure Source where
  rest : Octets
  line : Nat := 1
  held : Option Token := none
  announced : List Announced := []
  /-- Documents that have been read, by their numbers. -/
  documents : List (Nat × Word) := []
  nextNumber : Nat := 0

abbrev Reader := StateT Source (Except SyntaxFault)

def fault {α : Type} (text : String) : Reader α := do
  throw ⟨(← get).line, text⟩

/-- The longest part of a message about a token. -/
def messageMax : Nat := 63

def unexpected {α : Type} (token : Token) (wanted : Option Token) : Reader α :=
  let text := match wanted with
    | some wanted =>
      token.described ++ " unexpected (expecting " ++ wanted.described ++ ")"
    | none => token.described ++ " unexpected"
  fault (String.ofList (text.toList.take messageMax))

/-- Lines that a backslash joins to the next one are passed: how many, and the rest. -/
def dropJoins : Octets → Nat × Octets
  | '\\' :: '\n' :: rest =>
    let (lines, rest) := dropJoins rest
    (lines + 1, rest)
  | s => (0, s)

/-- The next character, which is not taken. -/
def peek : Reader (Option Char) := do
  let source ← get
  let (lines, rest) := dropJoins source.rest
  set { source with rest, line := source.line + lines }
  return rest.head?

/-- Take the next character as it stands. -/
def takeRaw : Reader (Option Char) := do
  let source ← get
  match source.rest with
  | c :: rest =>
    set { source with rest, line := if c = '\n' then source.line + 1 else source.line }
    return some c
  | [] => return none

def take : Reader (Option Char) := do
  let _ ← peek
  takeRaw

/-- Take a character if it comes next. -/
def takes (c : Char) : Reader Bool := do
  if (← peek) = some c then
    let _ ← takeRaw
    return true
  else return false

/-- Take the characters that satisfy `keep`. -/
def takeWhile (keep : Char → Bool) : (fuel : Nat) → Reader Octets
  | 0 => return []
  | fuel + 1 => do
    match ← peek with
    | some c =>
      if keep c then
        let _ ← takeRaw
        return c :: (← takeWhile keep fuel)
      else return []
    | none => return []

/-- Take the text up to a quote, and the quote. -/
def takeQuoted : Reader Octets := do
  let source ← get
  let text := source.rest.takeWhile (· ≠ '\'')
  let line := source.line + text.count '\n'
  match source.rest.drop text.length with
  | _ :: rest =>
    set { source with rest, line }
    return text
  | [] =>
    set { source with rest := [], line }
    fault "Unterminated quoted string"

def hold (token : Token) : Reader Unit := modify fun source => { source with held := some token }

/-- The token that has been looked at. -/
def takeHeld : Reader Token := do
  let source ← get
  set { source with held := none }
  return source.held.getD .stop

/-- Read another text with what is known so far; the present text is kept. -/
def within {α : Type} (text : Octets) (line : Nat) (reader : Reader α) : Reader α := do
  let outer ← get
  set { outer with rest := text, line, held := none, announced := [] }
  let result ← reader
  let inner ← get
  set { outer with documents := inner.documents, nextNumber := inner.nextNumber }
  return result

end Unscramble.Script
