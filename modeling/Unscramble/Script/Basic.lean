import Unscramble.Script.Octets

/-!
# Scripts

A script is a list of commands.  The words of a command are made of pieces, and
only pieces that were not quoted can be split into several words or act as a
pattern.
-/

namespace Unscramble.Script

/-- How a redirect opens its file. -/
inductive OpenMode
  | read
  | write
  | append
  | readWrite
deriving DecidableEq, Repr

mutual

/-- A part of a word. -/
inductive Piece
  | text (quoted : Bool) (chars : Octets)
  | value (quoted : Bool) (name : String) (operation : Operation)
  /-- What commands inside the word print. -/
  | output (quoted : Bool) (body : List Command)
  /-- The value of an arithmetic expression. -/
  | sum (quoted : Bool) (expression : List Piece)

/-- What is made of a value; `orEmpty` treats an empty value like a missing one. -/
inductive Operation
  | plain
  | length
  | bad
  | default (orEmpty : Bool) (word : List Piece)
  | assign (orEmpty : Bool) (word : List Piece)
  | require (orEmpty : Bool) (word : List Piece)
  | replace (orEmpty : Bool) (word : List Piece)
  | trim (fromEnd longest : Bool) (pattern : List Piece)

/-- Where a descriptor leads while a command runs. -/
inductive Redirect
  | file (descriptor : Nat) (mode : OpenMode) (name : List Piece)
  /-- The word is the number of another descriptor, or a dash. -/
  | copy (descriptor : Nat) (source : List Piece)
  /-- A document inside the script, by its number. -/
  | document (descriptor number : Nat)

inductive Command
  | simple (line : Nat) (assignments : List (String × List Piece)) (words : List (List Piece))
      (redirects : List Redirect)
  | pipeline (commands : List Command)
  | negation (command : Command)
  | andThen (first second : Command)
  | orElse (first second : Command)
  | background (command : Command)
  | subshell (line : Nat) (body : List Command) (redirects : List Redirect)
  | redirected (line : Nat) (body : Command) (redirects : List Redirect)
  | group (body : List Command)
  | branch (test yes no : List Command)
  /-- Repeat the body while the test succeeds, or until it does. -/
  | loop (untilTrue : Bool) (test body : List Command)
  | each (line : Nat) (name : String) (words : List (List Piece)) (body : List Command)
  /-- The first arm with a fitting pattern is taken. -/
  | choose (line : Nat) (subject : List Piece) (arms : List (List (List Piece) × List Command))
  | define (line : Nat) (name : String) (body : Command)

end

abbrev Word := List Piece

/-- All arguments of the script, each a word of its own. -/
def allArguments : Word := [.value true "@" .plain]

end Unscramble.Script
