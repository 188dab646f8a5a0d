import Unscramble.Script.Pattern

/-!
# Splitting words

An expanded word is a row of regions.  In a region that comes from an unquoted value,
separators cut the word into fields: blanks among them only between other text, the
others one by one.  The arguments of the script, quoted together, are cut between one
another and nowhere else.
-/

namespace Unscramble.Script

/-- One element of an expanded word: a character, or a place where quotes stood. -/
inductive Bit
  | char (c : Char) (quoted : Bool)
  | mark
deriving DecidableEq, Repr

def Bit.char? : Bit → Option Char
  | char c _ => some c
  | mark => none

/-- The element as part of a pattern. -/
def Bit.marked? : Bit → Option Marked
  | char c quoted => some ⟨c, quoted⟩
  | mark => none

/-- Where a region may be cut: nowhere, at separators, or between arguments. -/
inductive Division
  | whole
  | separators
  | arguments
deriving DecidableEq, Repr

structure Region where
  division : Division
  bits : List Bit

/-- What stands between two arguments. -/
def cut : Char := '\x00'

def bitsOf (quoted : Bool) (s : Octets) : List Bit := s.map (.char · quoted)

/-- The text of regions that are not cut. -/
def regionText (regions : List Region) : Octets :=
  regions.flatMap fun region => region.bits.filterMap Bit.char?

/-- Regions as a pattern. -/
def regionMarked (regions : List Region) : List Marked :=
  regions.flatMap fun region => region.bits.filterMap Bit.marked?

/-- The characters that separate fields as long as nothing else is said. -/
def defaultSeparators : Octets := [' ', '\t', '\n']

/-- Fields under construction.  The open field is kept in reverse order. -/
structure Fields where
  done : List (List Bit) := []
  current : List Bit := []
  /-- A separating blank has just been passed; one other separator belongs to it. -/
  afterBlank : Bool := false
  /-- The last region is cut between arguments. -/
  betweenArguments : Bool := false
  /-- How many fields may still be closed, if that is limited. -/
  left : Option Nat := none
  /-- Where the last field ends, if only separators follow. -/
  ending : Option Nat := none

namespace Fields

def push (f : Fields) (bit : Bit) : Fields :=
  { f with current := bit :: f.current, afterBlank := false }

def close (f : Fields) : Fields := { f with done := f.current.reverse :: f.done, current := [] }

/-- A character of the field that takes all the rest. -/
def pushLast (f : Fields) (separates blank : Bool) (bit : Bit) : Fields :=
  if blank then
    { f with current := bit :: f.current, ending := f.ending.or (some f.current.length) }
  else
    { f with
      current := bit :: f.current
      ending := if separates ∧ f.afterBlank then f.ending else none
      afterBlank := false }

/-- Take a separator; `solid` holds where blanks count like the others. -/
def separate (f : Fields) (blank solid : Bool) (bit : Bit) : Fields :=
  if f.afterBlank ∧ blank then f
  else if f.afterBlank then { f with afterBlank := false }
  else
    let blank := blank && !solid
    if blank ∧ f.current = [] then f
    else
      match f.left with
      | some (n + 1) =>
        if n = 0 then
          { f with
            left := some 0
            current := bit :: f.current
            ending := some f.current.length
            afterBlank := blank }
        else { f.close with left := some n, afterBlank := blank }
      | _ => { f.close with afterBlank := blank }

def addBit (separators : Octets) (division : Division) (after : Bool) (f : Fields) (bit : Bit) :
    Fields :=
  match bit with
  | .mark => f.push .mark
  | .char c quoted =>
    let separates := c = cut || (division = .separators && separators.contains c)
    let blank := separates && (c = cut || defaultSeparators.contains c)
    if f.left = some 0 then f.pushLast separates blank (.char c quoted)
    else if separates then f.separate blank (after || division = .arguments) bit
    else f.push bit

def addRegion (separators : Octets) (f : Fields) (region : Region) : Fields :=
  match region.division with
  | .whole => region.bits.foldl push f
  | division =>
    let after := f.betweenArguments
    region.bits.foldl (addBit separators division after)
      { f with afterBlank := false, betweenArguments := decide (division = .arguments) }

/-- The fields; the last one counts if there is anything in it, or if it is an
argument. -/
def toList (f : Fields) : List (List Bit) :=
  let last := match f.ending with
    | some length => f.current.drop (f.current.length - length)
    | none => f.current
  if last = [] ∧ ¬ f.betweenArguments then f.done.reverse
  else f.done.reverse ++ [last.reverse]

end Fields

/-- The fields of a word, at most `most` of them. -/
def split (separators : Octets) (most : Option Nat) (regions : List Region) : List (List Bit) :=
  (regions.foldl (Fields.addRegion separators) { left := most }).toList

/-- Text that stands whole is one field, unless it is empty. -/
theorem split_whole (separators s : Octets) (hs : s ≠ []) :
    split separators none [⟨.whole, bitsOf true s⟩] = [bitsOf true s] := by
  have hpush : ∀ (bits : List Bit) (f : Fields),
      (bits.foldl Fields.push f).current = bits.reverse ++ f.current ∧
      (bits.foldl Fields.push f).done = f.done ∧
      (bits.foldl Fields.push f).ending = f.ending ∧
      (bits.foldl Fields.push f).betweenArguments = f.betweenArguments := by
    intro bits
    induction bits with
    | nil => intro f; simp
    | cons bit bits ih =>
      intro f
      obtain ⟨hcurrent, hdone, hending, hbetween⟩ := ih (f.push bit)
      exact ⟨hcurrent.trans (by simp [Fields.push]), hdone, hending, hbetween⟩
  obtain ⟨hcurrent, hdone, hending, hbetween⟩ := hpush (bitsOf true s) { left := none }
  have hne : bitsOf true s ≠ [] := by simpa [bitsOf] using hs
  simp only [split, List.foldl_cons, List.foldl_nil, Fields.addRegion, Fields.toList, hcurrent,
    hdone, hending, hbetween]
  simp [hne]

end Unscramble.Script
