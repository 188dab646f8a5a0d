import Unscramble.Script.Reader.Source

/-!
# Reading words

A word is read character by character in a setting that says what is quoted there
and what ends it.  Settings lie in one another: a value between braces may hold
quoted text, which may hold values again.  How commands inside a word are read is a
parameter.
-/

namespace Unscramble.Script

/-- The pieces of a word in reverse order; the last one may still grow. -/
structure Draft where
  pieces : List Piece := []
  chars : Octets := []
  quoted : Bool := false

namespace Draft

def close (draft : Draft) : List Piece :=
  if draft.chars = [] then draft.pieces
  else .text draft.quoted draft.chars.reverse :: draft.pieces

def add (draft : Draft) (quoted : Bool) (c : Char) : Draft :=
  if draft.quoted = quoted then { draft with chars := c :: draft.chars }
  else ⟨draft.close, [c], quoted⟩

def addAll (draft : Draft) (quoted : Bool) (chars : Octets) : Draft :=
  chars.foldl (fun draft c => draft.add quoted c) draft

def addPiece (draft : Draft) (piece : Piece) : Draft := ⟨piece :: draft.close, [], false⟩

/-- Quoted text makes a word even where it is empty. -/
def addMark (draft : Draft) : Draft := draft.addPiece (.text true [])

def addPieces (draft : Draft) (pieces : Word) : Draft := pieces.foldl addPiece draft

def word (draft : Draft) : Word := draft.close.reverse

end Draft

/-- Where characters of a word stand. -/
inductive Setting
  /-- A word by itself, ended by a separator; dollar signs may be plain characters. -/
  | plain (literal : Bool)
  /-- A word inside braces that are not quoted. -/
  | braced
  | quoted (inBraces : Bool)
  | bracedQuoted
  | arithmetic (depth : Nat)
  | document
deriving DecidableEq, Repr

/-- What stands in the setting is quoted. -/
def Setting.quotes : Setting → Bool
  | plain _ | braced => false
  | _ => true

/-- Characters that end a word by itself. -/
def isSeparator (c : Char) : Bool :=
  c = ' ' || c = '\t' || c = '\n' || c = ';' || c = '&' || c = '|' || c = '<' || c = '>'
    || c = '(' || c = ')'

/-- A backslash takes the meaning from this character. -/
def Setting.protects (setting : Setting) (c : Char) : Bool :=
  match setting with
  | plain _ | braced => true
  | quoted inBraces => "\\\x60$\"".toList.contains c || (inBraces && c = '}')
  | bracedQuoted => "\\\x60$\"\x7d".toList.contains c
  | arithmetic _ => "\\\x60$\"".toList.contains c
  | document => "\\\x60$".toList.contains c

/-- Names of single characters that have a value. -/
def isSpecial (c : Char) : Bool := "!#$*-?@".toList.contains c || c.isDigit

/-- The text between back quotes, with the backslashes that protect something dropped. -/
def backQuoted (quoted : Bool) : Octets → Option (Octets × Octets)
  | [] => none
  | '\x60' :: rest => some ([], rest)
  | '\\' :: '\n' :: rest => backQuoted quoted rest
  | '\\' :: c :: rest =>
    (backQuoted quoted rest).map fun (text, rest) =>
      if c = '\\' ∨ c = '\x60' ∨ c = '$' ∨ (quoted = true ∧ c = '"') then (c :: text, rest)
      else ('\\' :: c :: text, rest)
  | c :: rest => (backQuoted quoted rest).map fun (text, rest) => (c :: text, rest)

/-- The quoted text is all arguments and nothing else; it may make no word at all. -/
def isAllArguments : Word → Bool
  | [.value true "@" .plain] => true
  | _ => false

/-- How many steps reading a word of the text may take. -/
def wordFuel (text : Octets) : Nat := 2 * text.length + 8

variable (commands : Reader (List Command))

mutual

/-- The pieces of a word in a setting, up to what ends it. -/
def pieces (setting : Setting) (draft : Draft) : (fuel : Nat) → Reader Word
  | 0 => fault "Word too long"
  | fuel + 1 => do
    match ← peek with
    | none =>
      match setting with
      | .plain _ | .document => return draft.word
      | .braced => fault "Missing '\x7d'"
      | .quoted _ | .bracedQuoted => fault "Unterminated quoted string"
      | .arithmetic _ => fault "Missing '))'"
    | some c =>
      let quoted := setting.quotes
      if isSeparator c ∧ (setting = .plain true ∨ setting = .plain false) then return draft.word
      let _ ← takeRaw
      if c = '\\' then
        match ← takeRaw with
        | none => pieces setting (draft.add true '\\') fuel
        | some next =>
          let draft := if quoted then draft else draft.addMark
          if setting.protects next then pieces setting (draft.add true next) fuel
          else pieces setting ((draft.add true '\\').add true next) fuel
      else if c = '$' then
        if setting = .plain true then pieces setting (draft.add false c) fuel
        else
          match ← dollar setting fuel with
          | some piece => pieces setting (draft.addPiece piece) fuel
          | none => pieces setting (draft.add quoted '$') fuel
      else if c = '\x60' ∧ setting ≠ .plain true then
        let source ← get
        match backQuoted quoted source.rest with
        | none =>
          set { source with rest := [], line := source.line + source.rest.count '\n' }
          fault "EOF in backquote substitution"
        | some (text, rest) =>
          let taken := source.rest.take (source.rest.length - rest.length)
          set { source with rest, line := source.line + taken.count '\n' }
          let body ← within text 1 commands
          pieces setting (draft.addPiece (.output quoted body)) fuel
      else
        match setting with
        | .plain _ | .braced =>
          if c = '\'' then
            let text ← takeQuoted
            pieces setting (draft.addMark.addAll true text) fuel
          else if c = '"' then
            let inner ← pieces (.quoted (setting = .braced)) {} fuel
            let draft := if isAllArguments inner then draft else draft.addMark
            pieces setting (draft.addPieces inner) fuel
          else if c = '}' ∧ setting = .braced then return draft.word
          else pieces setting (draft.add false c) fuel
        | .quoted _ =>
          if c = '"' then return draft.word else pieces setting (draft.add true c) fuel
        | .bracedQuoted =>
          if c = '}' then return draft.word
          else if c = '"' then
            let inner ← pieces (.quoted true) {} fuel
            pieces setting (draft.addPieces inner) fuel
          else pieces setting (draft.add true c) fuel
        | .arithmetic depth =>
          if c = '(' then pieces (.arithmetic (depth + 1)) (draft.add true c) fuel
          else if c = ')' then
            match depth with
            | depth + 1 => pieces (.arithmetic depth) (draft.add true c) fuel
            | 0 =>
              if ← takes ')' then return draft.word
              else pieces setting (draft.add true c) fuel
          else pieces setting (draft.add true c) fuel
        | .document => pieces setting (draft.add true c) fuel

/-- What a dollar sign stands for with what follows it. -/
def dollar (setting : Setting) : (fuel : Nat) → Reader (Option Piece)
  | 0 => return none
  | fuel + 1 => do
    let quoted := setting.quotes
    match ← peek with
    | none => return none
    | some c =>
      if c = '(' then
        let _ ← takeRaw
        if ← takes '(' then
          return some (.sum quoted (← pieces (.arithmetic 0) {} fuel))
        else
          let announced := (← get).announced
          modify fun source => { source with announced := [] }
          let body ← commands
          match ← takeHeld with
          | .closing => pure ()
          | token => unexpected token (some .closing)
          modify fun source => { source with announced }
          return some (.output quoted body)
      else if c = '{' then
        let _ ← takeRaw
        return some (← parameter setting fuel)
      else if isNameStart c then
        let name ← takeWhile isNameChar (← get).rest.length
        return some (.value quoted (String.ofList name) .plain)
      else if isSpecial c then
        let _ ← takeRaw
        return some (.value quoted (String.singleton c) .plain)
      else return none

/-- A value between braces. -/
def parameter (setting : Setting) : (fuel : Nat) → Reader Piece
  | 0 => fault "Bad substitution"
  | fuel + 1 => do
    let quoted := setting.quotes
    let length := (← get).rest.length
    let bad : Reader Piece := do
      let _ ← pieces (if quoted then .bracedQuoted else .braced) {} fuel
      return .value quoted "" .bad
    let count (name : Octets) : Reader Piece := do
      if ← takes '}' then return .value quoted (String.ofList name) .length else bad
    match ← peek with
    | none => bad
    | some c =>
      if isNameStart c then
        let name ← takeWhile isNameChar length
        operation setting name fuel
      else if c.isDigit then
        let name ← takeWhile Char.isDigit length
        operation setting name fuel
      else if c = '}' then bad
      else
        let _ ← takeRaw
        if c = '#' then
          match ← peek with
          | some d =>
            if isNameStart d then
              let name ← takeWhile isNameChar length
              count name
            else if d.isDigit then
              let name ← takeWhile Char.isDigit length
              count name
            else
              let source ← get
              let _ ← takeRaw
              let ends := (← peek) = some '}'
              if d ≠ '}' ∧ ends then
                if isSpecial d then count [d] else bad
              else
                set source
                operation setting ['#'] fuel
          | none => bad
        else if isSpecial c then operation setting [c] fuel
        else bad

/-- What is made of a value between braces, after its name.  A newline in the place of
what is to be made does not count as a line. -/
def operation (setting : Setting) (name : Octets) : (fuel : Nat) → Reader Piece
  | 0 => fault "Bad substitution"
  | fuel + 1 => do
    let quoted := setting.quotes
    let value := Piece.value quoted (String.ofList name)
    let inner : Setting := if quoted then .bracedQuoted else .braced
    if ← takes '}' then return value .plain
    let orEmpty ← takes ':'
    match ← take with
    | some '-' => return value (.default orEmpty (← pieces inner {} fuel))
    | some '=' => return value (.assign orEmpty (← pieces inner {} fuel))
    | some '?' => return value (.require orEmpty (← pieces inner {} fuel))
    | some '+' => return value (.replace orEmpty (← pieces inner {} fuel))
    | some c =>
      if (c = '%' ∨ c = '#') ∧ ¬ orEmpty then
        let longest ← takes c
        return value (.trim (c = '%') longest (← pieces .braced {} fuel))
      else
        if c = '\n' then modify fun source => { source with line := source.line - 1 }
        let _ ← pieces inner {} fuel
        return value .bad
    | none => fault "Missing '\x7d'"

end

end Unscramble.Script
