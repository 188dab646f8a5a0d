import Unscramble.Console.Literal
import Unscramble.Console.Tag

/-!
# Console markup

Text for the console may hold tags in square brackets.  A tag opens with a
small letter, `#`, `/` or `@`; backslashes before it are halved, and an odd one
makes the tag plain text.  Escaping writes any text so that no part of it is a
tag.
-/

namespace Unscramble.Console

open Text

/-- One character that belongs to no tag, or a tag with the number of
backslashes before it. -/
inductive Token
  | plain (c : Char)
  | tag (slashes : Nat) (body : List Char)
deriving DecidableEq, Repr

def opensTag (c : Char) : Bool :=
  ('a' ≤ c && c ≤ 'z') || c = '#' || c = '/' || c = '@'

/-- A tag at the start of the text, backslashes included, and what follows it. -/
def tag? (s : List Char) : Option (Nat × List Char × List Char) :=
  let slashes := (s.takeWhile (· = '\\')).length
  match s.drop slashes with
  | '[' :: c :: rest =>
    if opensTag c then
      let body := rest.takeWhile fun c => c ≠ ']' ∧ c ≠ '['
      match rest.drop body.length with
      | ']' :: after => some (slashes, c :: body, after)
      | _ => none
    else none
  | _ => none

theorem length_lt_of_tag? {s : List Char} {slashes : Nat} {body after : List Char}
    (h : tag? s = some (slashes, body, after)) : after.length < s.length := by
  unfold tag? at h
  dsimp only at h
  split at h
  · next c rest heq =>
    split at h
    · split at h
      · next rest' heq' =>
        have hfirst := congrArg List.length heq
        have hsecond := congrArg List.length heq'
        simp only [List.length_drop, List.length_cons] at hfirst hsecond
        simp only [Option.some.injEq, Prod.mk.injEq] at h
        obtain ⟨-, -, rfl⟩ := h
        omega
      · exact absurd h (by simp)
    · exact absurd h (by simp)
  · exact absurd h (by simp)

/-- The leftmost tags, and every other character by itself. -/
def tokens (s : List Char) : List Token :=
  match s with
  | [] => []
  | c :: rest =>
    match h : tag? (c :: rest) with
    | some (slashes, body, after) =>
      have : after.length < rest.length + 1 := length_lt_of_tag? h
      .tag slashes body :: tokens after
    | none => .plain c :: tokens rest
termination_by s.length

namespace Token

/-- The text that a token was read from. -/
def source : Token → List Char
  | plain c => [c]
  | tag slashes body => List.replicate slashes '\\' ++ '[' :: body ++ [']']

/-- A token written so that it is read as text. -/
def escaped : Token → List Char
  | plain c => [c]
  | tag slashes body => List.replicate (2 * slashes + 1) '\\' ++ '[' :: body ++ [']']

end Token

/-- A single backslash at the end would escape what is put after the text, so it is
doubled. -/
def closeSlashes (s : List Char) : List Char :=
  match s.reverse with
  | ['\\'] => s ++ ['\\']
  | '\\' :: c :: _ => if c = '\\' then s else s ++ ['\\']
  | _ => s

def escape (s : List Char) : List Char :=
  closeSlashes ((tokens s).flatMap Token.escaped)

/-- An open tag: its normal name and what stands after an equals sign in it. -/
structure OpenTag where
  name : List Char
  parameters : Option (List Char)
deriving DecidableEq, Repr

/-- The open tags, the innermost first. -/
abbrev OpenTags := List OpenTag

/-- The name of a tag, without its parameters. -/
def tagName (body : List Char) : List Char := body.takeWhile (· ≠ '=')

/-- The parameters of a tag, if it has any. -/
def tagParameters (body : List Char) : Option (List Char) :=
  match body.dropWhile (· ≠ '=') with
  | _ :: parameters => some parameters
  | [] => none

/-- Characters that the name of a handler is made of. -/
def isHandlerChar (c : Char) : Bool := isWordChar c || c = '.'

/-- The literal that the parameters of a handler hold: its bracketed arguments, or
none at all; parameters of another shape are the literal themselves. -/
def handlerExpression (parameters : List Char) : List Char :=
  match parameters.dropWhile isHandlerChar with
  | [] => ['(', ')']
  | c :: rest => if c = '(' ∧ rest.getLast? = some ')' then c :: rest else parameters

/-- Closing the tag of a handler reads its parameters. -/
def OpenTag.close (tag : OpenTag) : Except MarkupFault Unit :=
  match tag.name.head?, tag.parameters with
  | some '@', some (c :: rest) =>
    let parameters := c :: rest
    let expression := handlerExpression (trim parameters)
    match Literal.complaint? expression with
    | some (.form complaint) =>
      .error (.badParameters (some (String.ofList expression)) (String.ofList parameters) complaint)
    | some (.value complaint) => .error (.badParameters none (String.ofList parameters) complaint)
    | none => .ok ()
  | _, _ => .ok ()

/-- The innermost tag of a name is taken out. -/
def OpenTags.take? (name : List Char) : OpenTags → Option (OpenTag × OpenTags)
  | [] => none
  | tag :: rest =>
    if tag.name = name then some (tag, rest)
    else (OpenTags.take? name rest).map fun (found, others) => (found, tag :: others)

/-- Open or close a tag.  A closing tag without a name closes the innermost one. -/
def OpenTags.apply (stack : OpenTags) (position : Nat) (body : List Char) :
    Except MarkupFault OpenTags :=
  match tagName body with
  | '/' :: name =>
    if trim name = [] then
      match stack with
      | tag :: rest => do
        tag.close
        return rest
      | [] => .error (.nothingOpen position)
    else do
      match stack.take? (← normalName (trim name)) with
      | some (tag, rest) =>
        tag.close
        return rest
      | none => throw (.unmatched (String.ofList body) position)
  | name => do return ⟨← normalName name, tagParameters body⟩ :: stack

/-- The text that remains when the tags are taken out.  A backslash directly
before a bracket that opens no tag goes with them. -/
def strip (stack : OpenTags) (position : Nat) : List Token → Except MarkupFault (List Char)
  | [] => .ok []
  | .plain c :: rest => do
    let text ← strip stack (position + 1) rest
    if c = '\\' ∧ rest.head? = some (.plain '[') then .ok text else .ok (c :: text)
  | .tag slashes body :: rest => do
    let here := position + slashes
    let next := here + body.length + 2
    let kept := List.replicate (slashes / 2) '\\'
    if slashes % 2 = 1 then
      let text ← strip stack next rest
      .ok (kept ++ '[' :: body ++ ']' :: text)
    else
      let stack ← stack.apply here body
      let text ← strip stack next rest
      .ok (kept ++ text)

/-- A tag with parameters is shown in the style that both together name. -/
def Token.styled : Token → Except MarkupFault Unit
  | .tag slashes body =>
    match tagParameters body with
    | some parameters =>
      if slashes % 2 = 1 ∨ body.head? = some '/' then .ok ()
      else do
        let _ ← normalName (tagName body ++ ' ' :: parameters)
    | none => .ok ()
  | .plain _ => .ok ()

def render (s : List Char) : Except MarkupFault (List Char) := do
  let text ← strip [] 0 (tokens s)
  (tokens s).forM Token.styled
  return text

end Unscramble.Console
