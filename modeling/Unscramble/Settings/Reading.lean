import Unscramble.Json.Reader
import Unscramble.Settings.Basic
import Unscramble.Text.Casing
import Unscramble.Text.Digits

/-!
# Reading single settings

A setting may be given as the value it is or as text that stands for it.  Words
for yes and no are taken in any case; an integer may have blanks around it,
underscores inside, a plus sign, leading zeros, and a point with zeros only.
-/

namespace Unscramble.Settings

open Text

/-- One more than the largest integer of a machine word. -/
def wordLimit : Nat := 0x8000000000000000

/-- The integer that a number with a fraction or an exponent stands for; it has to
fit into a machine word. -/
def integerOf (x : Decimal) : Except Complaint Int :=
  match x.size with
  | .zero => .ok 0
  | .double d =>
    match d.whole? with
    | some n =>
      if n < wordLimit then .ok (if x.isNegative then -n else n) else .error .intSize
    | none => .error .intFraction
  | .infinite | .undefined => .error .intInfinite

def yesWords : List String := ["1", "on", "t", "true", "y", "yes"]

def noWords : List String := ["0", "off", "f", "false", "n", "no"]

def oneOrZero (n : Int) : Except Complaint Bool :=
  if n = 1 then .ok true else if n = 0 then .ok false else .error .boolText

def readBool : Json → Except Complaint Bool
  | .bool value => .ok value
  | .string text =>
    match text.toString? with
    | none => .error .stringUnicode
    | some text =>
      if lowerString text ∈ yesWords then .ok true
      else if lowerString text ∈ noWords then .ok false
      else .error .boolText
  | .int n => if -wordLimit ≤ n ∧ n < wordLimit then oneOrZero n else .error .boolKind
  | .number x =>
    match integerOf x with
    | .ok n => oneOrZero n
    | .error _ => .error .boolKind
  | _ => .error .boolKind

/-- The digits of an integer without the zeros before them; `none` if another
character stands where a digit or a minus sign should.  Underscores among the zeros
are dropped. -/
def stripLeadingZeros (s : List Char) : Option (List Char) :=
  match s with
  | [] => none
  | c :: rest =>
    if ('1' ≤ c ∧ c ≤ '9') ∨ c = '-' then some s
    else if c ≠ '0' then none
    else
      let zeros := rest.takeWhile fun c => c = '0' ∨ c = '_'
      let last := (c :: zeros).getLast?.toList
      match rest.drop zeros.length with
      | [] => some last
      | '.' :: places => some (last ++ '.' :: places)
      | d :: digits => if ('1' ≤ d ∧ d ≤ '9') ∨ d = '-' then some (d :: digits) else none

/-- Without a point and the zeros after it. -/
def stripPlaces (s : List Char) : List Char :=
  match s.dropWhile (· ≠ '.') with
  | _ :: c :: places =>
    if (c :: places).all (· = '0') then s.takeWhile (· ≠ '.') else s
  | _ => s

/-- Digits with a sign before them. -/
def plainInteger? : List Char → Option Int
  | '-' :: digits => (digits? digits).map fun n => -(n : Int)
  | digits => (digits? digits).map fun n => (n : Int)
where
  digits? (s : List Char) : Option Nat :=
    if s.all fun c => c.isDigit ∨ c = '_' then natural? s else none

/-- An integer written with the freedoms above. -/
def lenientInteger (s : List Char) : Except Complaint Int :=
  let trimmed := trimNumber s
  let unsigned := match trimmed with
    | '+' :: '-' :: _ => none
    | '+' :: rest => some rest
    | _ => some trimmed
  match (unsigned.bind stripLeadingZeros).map stripPlaces with
  | none => .error .intText
  | some digits =>
    if digitMax < (digits.filter (· ≠ '_')).length then .error .intSize
    else match plainInteger? digits with
      | some n => .ok n
      | none => .error .intText

def readInt : Json → Except Complaint Int
  | .int n => .ok n
  | .bool b => .ok (if b then 1 else 0)
  | .number x => integerOf x
  | .string text =>
    match text.toString? with
    | none => .error .stringUnicode
    | some text => lenientInteger text.toList
  | _ => .error .intKind

/-- Seconds of a limit, at least one. -/
def readTimeout : Json → Except Complaint (Option Int)
  | .null => .ok none
  | value => do
    let n ← readInt value
    if n < 1 then .error .belowOne else .ok (some n)

/-- Text is taken as it is, with lone surrogates. -/
def readText : Json → Except Complaint String
  | .string text => .ok text.toString
  | _ => .error .stringKind

def readPath : Json → Except Complaint (Option Path)
  | .null => .ok none
  | .string text => .ok (some (.ofString text.toString))
  | _ => .error .pathKind

def readScope : Json → Except Complaint CleanupScope
  | .string text =>
    match text.toString? with
    | some "file" => .ok .file
    | some "cwd" => .ok .workingDirectory
    | some _ => .error .scope
    | none => .error .stringUnicode
  | _ => .error .scope

/-- The issues of a list's items, by their places. -/
def itemIssues (field : String) : Nat → List Json → List Issue
  | _, [] => []
  | index, item :: rest =>
    match readText item with
    | .ok _ => itemIssues field (index + 1) rest
    | .error complaint => ⟨field, some index, complaint⟩ :: itemIssues field (index + 1) rest

def readTexts (field : String) : Json → Except (List Issue) (List String)
  | .array items =>
    match itemIssues field 0 items with
    | [] => .ok (items.filterMap fun item => (readText item).toOption)
    | issues => .error issues
  | _ => .error [⟨field, none, .listKind⟩]

/-- Extensions are compared in lower case and start with a dot. -/
def normalExtension (ext : String) : String :=
  if ext.toList.head? = some '.' then lowerString ext else "." ++ lowerString ext

end Unscramble.Settings
