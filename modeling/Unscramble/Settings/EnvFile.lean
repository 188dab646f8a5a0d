import Unscramble.Text.Blank

/-!
# Environment files

An environment file holds one variable a line, with an optional `export`, an
optional value, quotes with escapes, and comments.  A line that cannot be read
is skipped.  Values may refer to other variables as `${NAME}` or
`${NAME:-default}`.
-/

namespace Unscramble.EnvFile

open Text

/-- A blank that ends no line. -/
def isInlineBlank (c : Char) : Bool := isBlank c && c != '\n' && c != '\r'

def isLineEnd (c : Char) : Bool := c = '\n' || c = '\r'

/-- The text up to a closing quote, and what follows.  A backslash protects the
character after it. -/
def quotedBody (quote : Char) : List Char → Option (List Char × List Char)
  | [] => none
  | '\\' :: c :: rest => (quotedBody quote rest).map fun (body, after) => ('\\' :: c :: body, after)
  | c :: rest =>
    if c = quote then some ([], rest)
    else (quotedBody quote rest).map fun (body, after) => (c :: body, after)

def escapedChar? (c : Char) : Option Char :=
  match c with
  | '\\' => some '\\'
  | '\'' => some '\''
  | '"' => some '"'
  | 'a' => some '\x07'
  | 'b' => some '\x08'
  | 'f' => some '\x0c'
  | 'n' => some '\n'
  | 'r' => some '\r'
  | 't' => some '\t'
  | 'v' => some '\x0b'
  | _ => none

/-- Replace the escapes that `allowed` names; other backslashes stay. -/
def unescape (allowed : Char → Bool) : List Char → List Char
  | '\\' :: c :: rest =>
    match (if allowed c then escapedChar? c else none) with
    | some d => d :: unescape allowed rest
    | none => '\\' :: unescape allowed (c :: rest)
  | c :: rest => c :: unescape allowed rest
  | [] => []

/-- Text without a comment, which starts at a `#` after a blank. -/
def cutComment : List Char → List Char
  | [] => []
  | c :: rest =>
    if isBlank c ∧ (rest.dropWhile isBlank).head? = some '#' then []
    else c :: cutComment rest

/-- Reading gives a value with the rest of the text, or stops with what is left. -/
abbrev Reading (α : Type) := Except (List Char) (α × List Char)

/-- The name of a variable; none in a comment. -/
def key (s : List Char) : Reading (Option (List Char)) :=
  match s with
  | '#' :: _ => .ok (none, s)
  | '\'' :: rest =>
    let name := rest.takeWhile (· ≠ '\'')
    match rest.drop name.length with
    | _ :: after => if name = [] then .error s else .ok (some name, after)
    | [] => .error s
  | _ =>
    let name := s.takeWhile fun c => c ≠ '=' ∧ c ≠ '#' ∧ !isBlank c
    if name = [] then .error s else .ok (some name, s.drop name.length)

/-- The value after an equals sign.  A comment may come in its place after a blank. -/
def value (afterSign : List Char) : Reading (List Char) :=
  let s := afterSign.dropWhile isInlineBlank
  match s with
  | [] => .ok ([], s)
  | c :: rest =>
    if c = '#' ∧ s.length < afterSign.length then .ok ([], s.dropWhile (!isLineEnd ·))
    else if c = '\'' then
      match quotedBody '\'' rest with
      | some (body, after) => .ok (unescape (fun c => c = '\\' || c = '\'') body, after)
      | none => .error s
    else if c = '"' then
      match quotedBody '"' rest with
      | some (body, after) => .ok (unescape (fun _ => true) body, after)
      | none => .error s
    else if isLineEnd c then .ok ([], s)
    else
      let line := s.takeWhile (!isLineEnd ·)
      .ok (trimRight (cutComment line), s.drop line.length)

/-- What follows one line end. -/
def afterLineEnd (s : List Char) : List Char :=
  match s with
  | '\r' :: '\n' :: rest => rest
  | c :: rest => if isLineEnd c then rest else s
  | [] => []

/-- A comment and the end of the line. -/
def lineEnd (s : List Char) : Reading Unit :=
  let afterComment :=
    match s.dropWhile isInlineBlank with
    | '#' :: rest => rest.dropWhile (!isLineEnd ·)
    | _ => s
  match afterComment.dropWhile isInlineBlank with
  | [] => .ok ((), [])
  | c :: rest => if isLineEnd c then .ok ((), afterLineEnd (c :: rest)) else .error afterComment

def skipExport (s : List Char) : List Char :=
  let word := "export".toList
  let rest := s.drop word.length
  if s.take word.length = word ∧ (rest.head?.any isInlineBlank) then rest.dropWhile isInlineBlank
  else s

/-- One variable; its value is absent without an equals sign. -/
def binding (s : List Char) :
    Except (List Char) (Option (List Char × Option (List Char)) × List Char) := do
  let s := s.dropWhile isBlank
  if s = [] then return (none, [])
  let (name, s) ← key (skipExport s)
  let s := s.dropWhile isInlineBlank
  let (content, s) ← match s with
    | '=' :: rest => do
      let (content, rest) ← value rest
      pure (some content, rest)
    | _ => pure (none, s)
  let ((), s) ← lineEnd s
  return (name.map (·, content), s)

/-- The variables of a text in their order; each line takes a character. -/
def bindings : (fuel : Nat) → List Char → List (List Char × Option (List Char))
  | 0, _ => []
  | fuel + 1, s =>
    if s = [] then []
    else match binding s with
      | .ok (some found, rest) => found :: bindings fuel rest
      | .ok (none, rest) => bindings fuel rest
      | .error rest => bindings fuel (afterLineEnd (rest.dropWhile (!isLineEnd ·)))

/-- A reference at the start of the text: its name, its default, and the rest. -/
def reference? (s : List Char) : Option (List Char × List Char × List Char) :=
  match s with
  | '$' :: '{' :: rest =>
    let name := rest.takeWhile fun c => c ≠ '}' ∧ c ≠ ':'
    match rest.drop name.length with
    | '}' :: after => some (name, [], after)
    | ':' :: '-' :: more =>
      let fallback := more.takeWhile (· ≠ '}')
      match more.drop fallback.length with
      | _ :: after => some (name, fallback, after)
      | [] => none
    | _ => none
  | _ => none

/-- Replace the references in a value. -/
def resolve (known : List Char → Option (List Char)) :
    (fuel : Nat) → List Char → List Char
  | 0, _ => []
  | _, [] => []
  | fuel + 1, c :: rest =>
    match reference? (c :: rest) with
    | some (name, fallback, after) =>
      (known name).getD fallback ++ resolve known fuel after
    | none => c :: resolve known fuel rest

/-- A variable that is defined again keeps its place. -/
def define (name : String) (content : Option String) :
    List (String × Option String) → List (String × Option String)
  | [] => [(name, content)]
  | (n, old) :: rest =>
    if n = name then (name, content) :: rest else (n, old) :: define name content rest

/-- The mark that may stand before a text to tell its encoding. -/
def encodingMark : Char := '\ufeff'

/-- The variables that a file defines; later ones may refer to earlier ones and
to the environment. -/
def definitions (environment : List (String × String)) (text : String) :
    List (String × Option String) :=
  let text := match text.toList with
    | c :: rest => if c = encodingMark then rest else c :: rest
    | [] => []
  (bindings text.length text).foldl (fun known (name, content) =>
      let look (wanted : List Char) : Option (List Char) :=
        match known.lookup (String.ofList wanted) with
        | some found => some ((found.map String.toList).getD [])
        | none => (environment.lookup (String.ofList wanted)).map String.toList
      let content := content.map fun s => String.ofList (resolve look (s.length + 1) s)
      define (String.ofList name) content known)
    []

end Unscramble.EnvFile
