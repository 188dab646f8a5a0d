import Unscramble.Decimal.Shortest
import Unscramble.Script.Arithmetic

/-!
# Formatted output

The format of a printing command holds escapes and places for arguments.  It is
used again until all arguments are printed.
-/

namespace Unscramble.Script

def isOctal (c : Char) : Bool := '0' ≤ c && c ≤ '7'

/-- The character of a byte; larger numbers lose what does not fit. -/
def byteChar (n : Nat) : Char := Char.ofNat (n % 256)

/-- What stands after a backslash, as one character, and the rest.  Without a known
escape the backslash stands for itself. -/
def escape (s : Octets) : Char × Octets :=
  match s with
  | [] => ('\\', [])
  | c :: rest =>
    if isOctal c then
      let digits := (s.take 3).takeWhile isOctal
      (byteChar (Arithmetic.valueOf 8 digits), s.drop digits.length)
    else
      match [('\\', '\\'), ('a', '\x07'), ('b', '\x08'), ('e', '\x1b'), ('f', '\x0c'),
          ('n', '\n'), ('r', '\r'), ('t', '\t'), ('v', '\x0b')].lookup c with
      | some char => (char, rest)
      | none => ('\\', s)

/-- Text with its escapes replaced; `\c` ends the text and all that follows it. -/
def unescape : (fuel : Nat) → Octets → Octets × Bool
  | 0, _ => ([], false)
  | fuel + 1, s =>
    match s with
    | [] => ([], false)
    | '\\' :: 'c' :: _ => ([], true)
    | '\\' :: rest =>
      let start := match rest with
        | '0' :: c :: _ => if isOctal c then rest.drop 1 else rest
        | rest => rest
      let (char, rest) := escape start
      let (out, ended) := unescape fuel rest
      (char :: out, ended)
    | c :: rest =>
      let (out, ended) := unescape fuel rest
      (c :: out, ended)

/-- Arguments with blanks between them and a newline after them. -/
def printLine (args : List Octets) : Octets :=
  let (bare, args) := match args with
    | ['-', 'n'] :: rest => (true, rest)
    | args => (false, args)
  let line := [' '].intercalate args
  let (out, ended) := unescape (line.length + 1) line
  if bare ∨ ended then out else out ++ ['\n']

/-! ## Places -/

/-- How wide a place is: not said, a number, or the next argument. -/
inductive Extent
  | unsaid
  | number (n : Nat)
  | argument
deriving DecidableEq, Repr

/-- A place for an argument, as the format says it. -/
structure Place where
  flags : Octets
  width : Extent
  precision : Extent
  kind : Char
  /-- The place as it is written. -/
  source : Octets
deriving Repr

inductive Directive
  | char (c : Char)
  | place (place : Place)
  | fault (text : Octets)
deriving Repr

/-- A number or a star at the start of a text. -/
def readExtent (s : Octets) : Extent × Octets :=
  match s with
  | '*' :: rest => (.argument, rest)
  | s =>
    let digits := s.takeWhile Char.isDigit
    (if digits = [] then .unsaid else .number (Octets.natural digits), s.drop digits.length)

/-- The kinds of places that take an argument. -/
def placeKinds : List Char := "bcsdiouxXfFeEgG".toList

/-- The place after a percent sign, and the rest. -/
def readPlace (s : Octets) : Directive × Octets :=
  let flags := s.takeWhile ("#-+ 0".toList.contains ·)
  let (width, rest) := readExtent (s.drop flags.length)
  let (precision, rest) := match rest with
    | '.' :: rest =>
      let (extent, rest) := readExtent rest
      (if extent = .unsaid then .number 0 else extent, rest)
    | rest => (Extent.unsaid, rest)
  match rest with
  | [] => (.fault "missing format character".toList, [])
  | kind :: rest =>
    let source := '%' :: s.take (s.length - rest.length)
    if placeKinds.contains kind then (.place ⟨flags, width, precision, kind, source⟩, rest)
    else (.fault (source ++ ": invalid directive".toList), [])

def readFormat : (fuel : Nat) → Octets → List Directive
  | 0, _ => []
  | fuel + 1, s =>
    match s with
    | [] => []
    | '\\' :: rest =>
      let (char, rest) := escape rest
      .char char :: readFormat fuel rest
    | '%' :: '%' :: rest => .char '%' :: readFormat fuel rest
    | '%' :: rest =>
      let (directive, rest) := readPlace rest
      directive :: readFormat fuel rest
    | c :: rest => .char c :: readFormat fuel rest

/-! ## Numbers -/

/-- Digits of a number in a base up to sixteen. -/
def digitsIn (base n : Nat) : Octets := Nat.toDigits base n

/-- Text of a place whose width and precision are known. -/
structure Layout where
  flags : Octets
  width : Nat
  precision : Option Nat

namespace Layout

def has (layout : Layout) (flag : Char) : Bool := layout.flags.contains flag

def pad (layout : Layout) (s : Octets) : Octets :=
  let blanks := List.replicate (layout.width - s.length) ' '
  if layout.has '-' then s ++ blanks else blanks ++ s

/-- A sign or a mark of a base, then digits.  Zeros may stand between them. -/
def padNumber (layout : Layout) (zeros : Bool) (sign digits : Octets) : Octets :=
  if zeros ∧ layout.has '0' ∧ ¬ layout.has '-' then
    sign ++ List.replicate (layout.width - sign.length - digits.length) '0' ++ digits
  else layout.pad (sign ++ digits)

/-- A whole number: at least as many digits as the precision says. -/
def number (layout : Layout) (sign digits : Octets) : Octets :=
  let digits := match layout.precision with
    | some least =>
      if least = 0 ∧ digits = ['0'] then []
      else List.replicate (least - digits.length) '0' ++ digits
    | none => digits
  layout.padNumber layout.precision.isNone sign digits

/-- The sign of a number that has one. -/
def sign (layout : Layout) (negative : Bool) : Octets :=
  if negative then ['-'] else if layout.has '+' then ['+'] else if layout.has ' ' then [' '] else []

def signed (layout : Layout) (n : Int) : Octets :=
  layout.number (layout.sign (n < 0)) (digitsIn 10 n.natAbs)

def unsigned (layout : Layout) (kind : Char) (n : Nat) : Octets :=
  match kind with
  | 'o' =>
    let digits := digitsIn 8 n
    layout.number [] (if layout.has '#' ∧ n ≠ 0 then '0' :: digits else digits)
  | 'x' => layout.number (if layout.has '#' ∧ n ≠ 0 then ['0', 'x'] else []) (digitsIn 16 n)
  | 'X' =>
    layout.number (if layout.has '#' ∧ n ≠ 0 then ['0', 'X'] else [])
      ((digitsIn 16 n).map Char.toUpper)
  | _ => layout.number [] (digitsIn 10 n)

def text (layout : Layout) (s : Octets) : Octets :=
  layout.pad (match layout.precision with
    | some most => s.take most
    | none => s)

/-- A fraction with so many places. -/
def fixed (places : Nat) (x : Decimal.Ratio) : Octets :=
  let n := Decimal.Ratio.round ⟨x.num * Nat.pow 10 places, x.den⟩
  let digits := digitsIn 10 n
  let digits := List.replicate (places + 1 - digits.length) '0' ++ digits
  let whole := digits.take (digits.length - places)
  if places = 0 then whole else whole ++ '.' :: digits.drop whole.length

/-- The first digits of a fraction, with one more than `places`, and the power of ten
of the first. -/
def leading (places : Nat) (x : Decimal.Ratio) : Octets × Int :=
  if x.num = 0 then (List.replicate (places + 1) '0', 0)
  else
    let scaled (e : Int) : Nat :=
      let shift := (places : Int) - e
      if 0 ≤ shift then Decimal.Ratio.round ⟨x.num * Nat.pow 10 shift.toNat, x.den⟩
      else Decimal.Ratio.round ⟨x.num, x.den * Nat.pow 10 (-shift).toNat⟩
    let e := Decimal.magnitude x
    let e := if (digitsIn 10 (scaled e)).length ≤ places then e - 1 else e
    let e := if places + 1 < (digitsIn 10 (scaled e)).length then e + 1 else e
    (digitsIn 10 (scaled e), e)

def exponentText (e : Int) : Octets :=
  let digits := digitsIn 10 e.natAbs
  'e' :: (if e < 0 then '-' else '+') :: List.replicate (2 - digits.length) '0' ++ digits

def scientific (digits : Octets) (e : Int) : Octets :=
  digits.take 1 ++ (if digits.length ≤ 1 then [] else '.' :: digits.drop 1) ++ exponentText e

def trimFraction (s : Octets) : Octets :=
  if s.contains '.' then
    let s := (s.reverse.dropWhile (· = '0')).reverse
    if s.getLast? = some '.' then s.dropLast else s
  else s

/-- A fraction in the way that its kind asks for. -/
def fraction (layout : Layout) (kind : Char) (negative : Bool) (x : Decimal.Ratio) : Octets :=
  let places := layout.precision.getD 6
  let digits := match kind.toLower with
    | 'f' => fixed places x
    | 'e' =>
      let (digits, e) := leading places x
      scientific digits e
    | _ =>
      let count := max places 1
      let (digits, e) := leading (count - 1) x
      if e < -4 ∨ (count : Int) ≤ e then
        let digits := (digits.reverse.dropWhile (· = '0')).reverse
        scientific (if digits = [] then ['0'] else digits) e
      else trimFraction (fixed ((count : Int) - 1 - e).toNat x)
  let digits := if kind.isUpper then digits.map Char.toUpper else digits
  layout.padNumber true (layout.sign negative) digits

end Layout

/-! ## Arguments -/

/-- What has been printed, the complaints made and the arguments still to be used. -/
structure Printing where
  out : Octets := []
  complaints : List Octets := []
  args : List Octets := []
  /-- Nothing more is printed; a fault ends the command as well. -/
  ended : Bool := false
  failed : Bool := false

namespace Printing

def emit (p : Printing) (s : Octets) : Printing := { p with out := p.out ++ s }

def complain (p : Printing) (arg : Octets) (text : String) : Printing :=
  { p with complaints := p.complaints ++ [arg ++ text.toList] }

/-- The next argument, if there is one. -/
def next (p : Printing) : Option Octets × Printing :=
  (p.args.head?, { p with args := p.args.tail })

/-- The number that an argument spells between bounds, with a complaint if it is none
as a whole. -/
def integer (least greatest : Int) (p : Printing) : Int × Printing :=
  match p.next with
  | (none, p) => (0, p)
  | (some arg, p) =>
    match arg with
    | '"' :: rest | '\'' :: rest => (((rest.headD '\x00').toNat : Int), p)
    | arg =>
      let s := arg.dropWhile Octets.isSpace
      let (negative, digits) := match s with
        | '-' :: rest => (true, rest)
        | '+' :: rest => (false, rest)
        | rest => (false, rest)
      if ¬ digits.head?.any Char.isDigit then
        (0, if arg = [] then p else p.complain arg ": expected numeric value")
      else
        let (n, rest) := Arithmetic.magnitude digits
        let value : Int := if negative then -(n : Int) else n
        let fits := if least = 0 then (n : Int) ≤ greatest else least ≤ value ∧ value ≤ greatest
        let value :=
          if fits then (if least = 0 then value % (greatest + 1) else value)
          else if least < 0 ∧ negative then least else greatest
        if rest ≠ [] then (value, p.complain arg ": not completely converted")
        else if ¬ fits then (value, p.complain arg ": Numerical result out of range")
        else (value, p)

def signedArgument (p : Printing) : Int × Printing :=
  p.integer (-(Arithmetic.greatest : Int) - 1) Arithmetic.greatest

def unsignedArgument (p : Printing) : Nat × Printing :=
  let (n, p) := p.integer 0 (2 * (Arithmetic.greatest : Int) + 1)
  (n.toNat, p)

/-- Digits with a fraction and an exponent at the start of a text: their sign, their
value and the rest. -/
def readFraction (s : Octets) : Option (Bool × Decimal.Ratio × Octets) :=
  let s := s.dropWhile Octets.isSpace
  let (negative, s) := match s with
    | '-' :: rest => (true, rest)
    | '+' :: rest => (false, rest)
    | rest => (false, rest)
  let whole := s.takeWhile Char.isDigit
  let rest := s.drop whole.length
  let (places, rest) := match rest with
    | '.' :: rest =>
      let places := rest.takeWhile Char.isDigit
      if whole = [] ∧ places = [] then ([], '.' :: rest) else (places, rest.drop places.length)
    | rest => ([], rest)
  if whole = [] ∧ places = [] then none
  else
    let (exponent, rest) : Int × Octets := match rest with
      | 'e' :: tail | 'E' :: tail =>
        let (down, digits) := match tail with
          | '-' :: digits => (true, digits)
          | '+' :: digits => (false, digits)
          | digits => (false, digits)
        let number := digits.takeWhile Char.isDigit
        if number = [] then (0, rest)
        else
          let n : Int := min (Octets.natural number) 400
          (if down then -n else n, digits.drop number.length)
      | rest => (0, rest)
    let n := Octets.natural (whole ++ places)
    some (negative, Decimal.Ratio.scaled n 10 (exponent - places.length), rest)

def fractionArgument (p : Printing) : Bool × Decimal.Ratio × Printing :=
  match p.next with
  | (none, p) => (false, ⟨0, 1⟩, p)
  | (some arg, p) =>
    match arg with
    | '"' :: rest | '\'' :: rest => (false, ⟨(rest.headD '\x00').toNat, 1⟩, p)
    | arg =>
      match readFraction arg with
      | none => (false, ⟨0, 1⟩, if arg = [] then p else p.complain arg ": expected numeric value")
      | some (negative, x, rest) =>
        let nearest := if x.num = 0 then x else
          match Decimal.Double.nearest? x with
          | some d => Decimal.Ratio.scaled d.m 2 d.q
          | none => x
        (negative, nearest, if rest = [] then p else p.complain arg ": not completely converted")

/-- A width or a precision; a negative width asks for the left side. -/
def extent (p : Printing) : Extent → Option Int × Printing
  | .unsaid => (none, p)
  | .number n => (some n, p)
  | .argument =>
    let (n, p) := p.signedArgument
    (some n, p)

/-- Print the argument of a place. -/
def fill (p : Printing) (place : Place) : Printing :=
  let (width, p) := p.extent place.width
  let (precision, p) := p.extent place.precision
  let layout : Layout := {
    flags := if width.any (· < 0) then '-' :: place.flags else place.flags
    width := (width.getD 0).natAbs
    precision := (precision.filter (0 ≤ ·)).map Int.toNat }
  match place.kind with
  | 's' =>
    let (arg, p) := p.next
    p.emit (layout.text (arg.getD []))
  | 'b' =>
    let (arg, p) := p.next
    let arg := arg.getD []
    let (out, ended) := unescape (arg.length + 1) arg
    { p.emit (layout.text out) with ended }
  | 'c' =>
    let (arg, p) := p.next
    p.emit (layout.pad [(arg.getD []).headD '\x00'])
  | 'd' | 'i' =>
    let (n, p) := p.signedArgument
    p.emit (layout.signed n)
  | 'o' | 'u' | 'x' | 'X' =>
    let (n, p) := p.unsignedArgument
    p.emit (layout.unsigned place.kind n)
  | kind =>
    let (negative, x, p) := p.fractionArgument
    p.emit (layout.fraction kind negative x)

def step (p : Printing) (directive : Directive) : Printing :=
  if p.ended then p
  else
    match directive with
    | .char c => p.emit [c]
    | .place place => p.fill place
    | .fault text => { p with complaints := p.complaints ++ [text], ended := true, failed := true }

/-- Print the format until the arguments are used up, or once if it uses none. -/
def run (format : List Directive) : (rounds : Nat) → Printing → Printing
  | 0, p => p
  | rounds + 1, p =>
    let after := format.foldl step p
    if after.ended ∨ after.args = [] ∨ after.args.length = p.args.length then after
    else run format rounds after

/-- The status of the command that has printed. -/
def status (p : Printing) : Nat := if p.failed then 2 else if p.complaints = [] then 0 else 1

end Printing

def printFormat (format : Octets) (args : List Octets) : Printing :=
  Printing.run (readFormat (format.length + 1) format) (args.length + 1) { args }

end Unscramble.Script
