import Unscramble.Text.Printable
import Unscramble.Text.Quoted
import Unscramble.Text.Word

/-!
# Tokens of a literal

The parameters of a handler are an expression: names, numbers, quoted text and
marks.  Cutting it into tokens stops at the first character that starts none, or
at a bracket that closes no open one.  A bracket that is still open at the end is
found only by a reader that gets there.
-/

namespace Unscramble.Console.Literal

open Text

inductive Token
  | name (text : String)
  | number (imaginary : Bool)
  | quoted (bytes formatted plain : Bool)
  | mark (text : String)
  | stop (complaint : String)
deriving DecidableEq, Repr

/-- A token with the number of brackets that are open after it. -/
structure Placed where
  token : Token
  depth : Nat
deriving DecidableEq, Repr

def isNameChar (c : Char) : Bool := c.isAlphanum || c = '_' || 128 ≤ c.toNat

/-- Words that may follow a number directly; the shorter ones may go on. -/
def mayFollowNumber (s : List Char) : Bool :=
  ["if", "in", "is"].any (fun word => word.toList.isPrefixOf s)
    || ["and", "else", "for", "not", "or"].contains (String.ofList (s.takeWhile isNameChar))

/-- No name may follow a number directly, apart from some words. -/
def endNumber (kind : String) (s : List Char) : Except String (List Char) :=
  match s with
  | c :: _ =>
    if isNameChar c ∧ c.toNat < 128 ∧ ¬ mayFollowNumber s then .error ("invalid " ++ kind ++ " literal") else .ok s
  | [] => .ok s

/-- The text after digits with single underscores between them. -/
def afterDigits (isDigit : Char → Bool) (complaint : String) :
    List Char → Except String (List Char)
  | '_' :: d :: rest =>
    if isDigit d then afterDigits isDigit complaint rest else .error complaint
  | c :: rest =>
    if isDigit c then afterDigits isDigit complaint rest
    else if c = '_' then .error complaint
    else .ok (c :: rest)
  | [] => .ok []

def afterDecimals : List Char → Except String (List Char) :=
  afterDigits Char.isDigit "invalid decimal literal"

/-- The digits of a number in base two, eight or sixteen, after its marker. -/
def afterBase (kind : String) (isDigit : Char → Bool) (s : List Char) :
    Except String (List Char) := do
  let complaint (s : List Char) : String :=
    match s with
    | c :: _ =>
      if c.isDigit ∧ kind ≠ "hexadecimal" then
        "invalid digit '" ++ c.toString ++ "' in " ++ kind ++ " literal"
      else "invalid " ++ kind ++ " literal"
    | [] => "invalid " ++ kind ++ " literal"
  let digits := if s.head? = some '_' then s.drop 1 else s
  if digits.head?.any isDigit then
    let rest ← afterDigits isDigit (complaint []) digits
    if rest.head?.any Char.isDigit then throw (complaint rest) else endNumber kind rest
  else throw (complaint digits)

/-- The end of a number that may be imaginary. -/
def numberTail (s : List Char) : Except String (Bool × List Char) := do
  match s with
  | c :: rest =>
    if c = 'j' ∨ c = 'J' then return (true, ← endNumber "imaginary" rest)
    else return (false, ← endNumber "decimal" s)
  | [] => return (false, [])

/-- An exponent, if there is one, and the end of a number. -/
def exponentTail (s : List Char) : Except String (Bool × List Char) := do
  match s with
  | e :: rest =>
    if e = 'e' ∨ e = 'E' then
      match rest with
      | c :: digits =>
        if c = '+' ∨ c = '-' then
          if digits.head?.any Char.isDigit then numberTail (← afterDecimals digits)
          else throw "invalid decimal literal"
        else if c.isDigit then numberTail (← afterDecimals rest)
        else return (false, ← endNumber "decimal" s)
      | [] => return (false, ← endNumber "decimal" s)
    else numberTail s
  | [] => return (false, [])

/-- The places after a point, an exponent, and the end of a number. -/
def fractionTail (s : List Char) : Except String (Bool × List Char) := do
  if s.head?.any Char.isDigit then exponentTail (← afterDecimals s) else exponentTail s

/-- The text after zeros with single underscores between them. -/
def afterZeros : List Char → Except String (List Char)
  | '0' :: rest => afterZeros rest
  | '_' :: d :: rest =>
    if d = '0' then afterZeros rest
    else if d.isDigit then .ok (d :: rest)
    else .error "invalid decimal literal"
  | ['_'] => .error "invalid decimal literal"
  | s => .ok s

def leadingZeros : String :=
  "leading zeros in decimal integer literals are not permitted; "
    ++ "use an 0o prefix for octal integers"

/-- A number in base ten.  Only zeros may follow a zero, unless the number has a
point, an exponent or an imaginary unit. -/
def decimalNumber (s : List Char) : Except String (Bool × List Char) := do
  let digits ← afterZeros s
  let octalStyle := s.head? = some '0' ∧ digits.head?.any Char.isDigit = true
  let rest ← if digits.head?.any Char.isDigit then afterDecimals digits else .ok digits
  match rest with
  | '.' :: places => fractionTail places
  | c :: _ =>
    if octalStyle ∧ c ∉ ['e', 'E', 'j', 'J'] then throw leadingZeros else exponentTail rest
  | [] => if octalStyle then throw leadingZeros else return (false, [])

/-- A number at the start of a text, which starts with a digit. -/
def number (s : List Char) : Except String (Bool × List Char) := do
  match s with
  | '0' :: x :: rest =>
    if x = 'x' ∨ x = 'X' then
      return (false, ← afterBase "hexadecimal"
        (fun c => c.isDigit || ('a' ≤ c && c ≤ 'f') || ('A' ≤ c && c ≤ 'F')) rest)
    else if x = 'o' ∨ x = 'O' then
      return (false, ← afterBase "octal" (fun c => '0' ≤ c && c ≤ '7') rest)
    else if x = 'b' ∨ x = 'B' then
      return (false, ← afterBase "binary" (fun c => c = '0' || c = '1') rest)
    else decimalNumber s
  | _ => decimalNumber s

/-- The text after quoted text on one line; the opening quote has been taken. -/
def afterQuoted (quote : Char) : List Char → Option (List Char)
  | [] => none
  | '\\' :: _ :: rest => afterQuoted quote rest
  | c :: rest =>
    if c = quote then some rest else if c = '\n' then none else afterQuoted quote rest

/-- The text after quoted text that three quotes end; `count` of them have been met. -/
def afterTripleQuoted (quote : Char) (count : Nat) : List Char → Option (List Char)
  | [] => none
  | '\\' :: _ :: rest => afterTripleQuoted quote 0 rest
  | c :: rest =>
    if c = quote then
      if count = 2 then some rest else afterTripleQuoted quote (count + 1) rest
    else afterTripleQuoted quote 0 rest

/-- Quoted text after its opening quote: what it covers, and the rest. -/
def quotedText (quote : Char) (s : List Char) : Except String (List Char × List Char) :=
  let lines := toString ((s.filter (· = '\n')).length + 1)
  match s with
  | c :: d :: rest =>
    if c = quote ∧ d = quote then
      match afterTripleQuoted quote 0 rest with
      | some after => .ok (rest.take (rest.length - after.length), after)
      | none =>
        .error ("unterminated triple-quoted string literal (detected at line " ++ lines ++ ")")
    else single
  | _ => single
where
  single : Except String (List Char × List Char) :=
    match afterQuoted quote s with
    | some after => .ok (s.take (s.length - after.length), after)
    | none =>
      let before := s.takeWhile (· ≠ '\n')
      let line := if before.length = s.length then (s.filter (· = '\n')).length + 1 else 1
      .error ("unterminated string literal (detected at line " ++ toString line ++ ")")

/-- Letters before quoted text that say how it is read. -/
def isQuoteSign (word : List Char) : Bool :=
  ["b", "r", "u", "f", "br", "rb", "fr", "rf"].contains (String.ofList (word.map Char.toLower))

/-- Marks of several characters, the longer ones first. -/
def longMarks : List String :=
  ["**=", "//=", ">>=", "<<=", "...", "!=", "%=", "&=", "**", "*=", "+=", "-=", "->", "//", "/=",
   ":=", "<<", "<=", "<>", "==", ">=", ">>", "@=", "^=", "|="]

/-- The bracket that closes another one. -/
def closing (bracket : Char) : Char :=
  if bracket = '(' then ')' else if bracket = '[' then ']' else '}'

/-- The most brackets that may be open at once. -/
def depthMax : Nat := 200

/-- A mark at the start of a text, with the brackets that are open after it. -/
def mark (brackets : List Char) (c : Char) (rest : List Char) :
    Except String (Token × List Char × List Char) :=
  if c = '(' ∨ c = '[' ∨ c = '{' then
    if depthMax ≤ brackets.length then .error "too many nested parentheses"
    else .ok (.mark c.toString, c :: brackets, rest)
  else if c = ')' ∨ c = ']' ∨ c = '}' then
    match brackets with
    | bracket :: outer =>
      if closing bracket = c then .ok (.mark c.toString, outer, rest)
      else .error ("closing parenthesis '" ++ c.toString ++ "' does not match opening parenthesis '"
        ++ bracket.toString ++ "'")
    | [] => .error ("unmatched '" ++ c.toString ++ "'")
  else
    match longMarks.find? fun long => long.toList.isPrefixOf (c :: rest) with
    | some long => .ok (.mark long, brackets, (c :: rest).drop long.length)
    | none => .ok (.mark c.toString, brackets, rest)

/-- A name, or quoted text with letters before its quote. -/
def named (s : List Char) : Except String (Token × List Char) :=
  let word := s.takeWhile isNameChar
  match s.drop word.length with
  | q :: rest =>
    if (q = '"' ∨ q = '\'') ∧ isQuoteSign word = true then do
      let (covered, after) ← quotedText q rest
      let letters := word.map Char.toLower
      return (.quoted (letters.contains 'b') (letters.contains 'f')
        (covered.all (·.toNat < 128)), after)
    else plain word (q :: rest)
  | [] => plain word []
where
  plain (word rest : List Char) : Except String (Token × List Char) :=
    match word.find? (!isWordChar ·) with
    | some c =>
      let code := (hexPadded 4 c.toNat).map Char.toUpper
      if isPrintable c then
        .error ("invalid character '" ++ c.toString ++ "' (U+" ++ String.ofList code ++ ")")
      else .error ("invalid non-printable character U+" ++ String.ofList code)
    | none => .ok (.name (String.ofList word), rest)

/-- The tokens of a text, in which `brackets` are open. -/
def tokensFrom (fuel : Nat) (brackets : List Char) (s : List Char) :
    Except String (List Placed) :=
  match fuel, s with
  | _, [] =>
    match brackets with
    | bracket :: _ =>
      .ok [⟨.stop ("'" ++ bracket.toString ++ "' was never closed"), brackets.length⟩]
    | [] => .ok []
  | 0, _ => .ok []
  | fuel + 1, c :: rest => do
    let place (token : Token) (brackets rest : List Char) : Except String (List Placed) := do
      return ⟨token, brackets.length⟩ :: (← tokensFrom fuel brackets rest)
    if c = ' ' ∨ c = '\t' ∨ c = '\x0c' then tokensFrom fuel brackets rest
    else if c = '\n' then
      if brackets = [] then place (.mark "\n") brackets rest else tokensFrom fuel brackets rest
    else if c = '#' then tokensFrom fuel brackets (rest.dropWhile (· ≠ '\n'))
    else if c = '\\' then
      match rest with
      | '\n' :: next :: more => tokensFrom fuel brackets (next :: more)
      | _ => return [⟨.stop "unexpected character after line continuation character",
          brackets.length⟩]
    else if c.isDigit ∨ (c = '.' ∧ rest.head?.any Char.isDigit) then
      let (imaginary, rest) ← if c = '.' then fractionTail rest else number s
      place (.number imaginary) brackets rest
    else if isNameChar c then
      let (token, rest) ← named s
      place token brackets rest
    else if c = '"' ∨ c = '\'' then
      let (covered, rest) ← quotedText c rest
      place (.quoted false false (covered.all (·.toNat < 128))) brackets rest
    else
      let (token, brackets, rest) ← mark brackets c rest
      place token brackets rest

/-- The tokens of a text. -/
def tokens (s : List Char) : Except String (List Placed) := tokensFrom s.length [] s

end Unscramble.Console.Literal
