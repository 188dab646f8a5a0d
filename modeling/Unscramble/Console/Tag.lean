import Unscramble.Fault
import Unscramble.Text.Casing
import Unscramble.Text.Digits

/-!
# Style tags

A tag names a style.  Two spellings of one style close each other, so the names
are compared in a normal form: attributes by their full names in a fixed order,
then the colour, the background and the link.  A name that is no style is
compared in lower case.
-/

namespace Unscramble.Console

open Text

/-- Attribute spellings, with the full name that they stand for. -/
def attributeNames : List (String × String) :=
  [("dim", "dim"), ("d", "dim"), ("bold", "bold"), ("b", "bold"), ("italic", "italic"),
   ("i", "italic"), ("underline", "underline"), ("u", "underline"), ("blink", "blink"),
   ("blink2", "blink2"), ("reverse", "reverse"), ("r", "reverse"), ("conceal", "conceal"),
   ("c", "conceal"), ("overline", "overline"), ("o", "overline"), ("strike", "strike"),
   ("s", "strike"), ("underline2", "underline2"), ("uu", "underline2"), ("frame", "frame"),
   ("encircle", "encircle")]

/-- The order in which the attributes of a style are written. -/
def attributeOrder : List String :=
  ["bold", "dim", "italic", "underline", "blink", "blink2", "reverse", "conceal", "strike",
   "underline2", "frame", "encircle", "overline"]

def greyLevels : List Nat :=
  [0, 3, 7, 11, 15, 19, 23, 27, 30, 35, 37, 39, 42, 46, 50, 53, 54, 58, 62, 63, 66, 69, 70, 74,
   78, 82, 84, 85, 89, 93, 100]

def plainColours : List String :=
  ["black", "red", "green", "yellow", "blue", "magenta", "cyan", "white"]

def namedColours : List String :=
  ["navy_blue", "dark_blue", "blue3", "blue1", "dark_green", "deep_sky_blue4", "dodger_blue3",
   "dodger_blue2", "green4", "spring_green4", "turquoise4", "deep_sky_blue3", "dodger_blue1",
   "green3", "spring_green3", "dark_cyan", "light_sea_green", "deep_sky_blue2", "deep_sky_blue1",
   "spring_green2", "cyan3", "dark_turquoise", "turquoise2", "green1", "spring_green1",
   "medium_spring_green", "cyan2", "cyan1", "dark_red", "deep_pink4", "purple4", "purple3",
   "blue_violet", "orange4", "medium_purple4", "slate_blue3", "royal_blue1", "chartreuse4",
   "dark_sea_green4", "pale_turquoise4", "steel_blue", "steel_blue3", "cornflower_blue",
   "chartreuse3", "cadet_blue", "sky_blue3", "steel_blue1", "pale_green3", "sea_green3",
   "aquamarine3", "medium_turquoise", "chartreuse2", "sea_green2", "sea_green1", "aquamarine1",
   "dark_slate_gray2", "dark_magenta", "dark_violet", "purple", "light_pink4", "plum4",
   "medium_purple3", "slate_blue1", "yellow4", "wheat4", "light_slate_grey", "light_slate_gray",
   "medium_purple", "light_slate_blue", "dark_olive_green3", "dark_sea_green", "light_sky_blue3",
   "sky_blue2", "dark_sea_green3", "dark_slate_gray3", "sky_blue1", "chartreuse1", "light_green",
   "pale_green1", "dark_slate_gray1", "red3", "medium_violet_red", "magenta3", "dark_orange3",
   "indian_red", "hot_pink3", "medium_orchid3", "medium_orchid", "medium_purple2",
   "dark_goldenrod", "light_salmon3", "rosy_brown", "medium_purple1", "gold3", "dark_khaki",
   "navajo_white3", "light_steel_blue3", "light_steel_blue", "yellow3", "dark_sea_green2",
   "light_cyan3", "light_sky_blue1", "green_yellow", "dark_olive_green2", "dark_sea_green1",
   "pale_turquoise1", "deep_pink3", "magenta2", "hot_pink2", "orchid", "medium_orchid1", "orange3",
   "light_pink3", "pink3", "plum3", "violet", "light_goldenrod3", "tan", "misty_rose3", "thistle3",
   "plum2", "khaki3", "light_goldenrod2", "light_yellow3", "light_steel_blue1", "yellow2",
   "dark_olive_green1", "honeydew2", "light_cyan1", "red1", "deep_pink2", "deep_pink1", "magenta1",
   "orange_red1", "indian_red1", "hot_pink", "dark_orange", "salmon1", "light_coral",
   "pale_violet_red1", "orchid2", "orchid1", "orange1", "sandy_brown", "light_salmon1",
   "light_pink1", "pink1", "plum1", "gold1", "navajo_white1", "misty_rose1", "thistle1", "yellow1",
   "light_goldenrod1", "khaki1", "wheat1", "cornsilk1"]

def isHexDigit (c : Char) : Bool :=
  ('0' ≤ c && c ≤ '9') || ('a' ≤ c && c ≤ 'f')

/-- A number from 0 to 255. -/
def isByteNumber (s : List Char) : Bool :=
  0 < s.length && s.length ≤ 3 && s.all Char.isDigit
    && (s.foldl (fun n c => 10 * n + (c.toNat - 48)) 0) ≤ 255

/-- The text between an opening word and a closing bracket. -/
def bracketed? (opening : String) (s : List Char) : Option (List Char) :=
  let k := opening.length
  if s.take k = opening.toList ∧ s.getLast? = some ')' then some ((s.drop k).dropLast) else none

/-- Colours that have a name, a number or six hexadecimal digits. -/
def isNamedColour (word : List Char) : Bool :=
  let name := String.ofList word
  name == "default" || plainColours.contains name
    || plainColours.any (fun c => name == "bright_" ++ c)
    || greyLevels.any (fun n => name == "grey" ++ toString n || name == "gray" ++ toString n)
    || namedColours.contains name
    || (match word with
        | '#' :: digits => digits.length == 6 && digits.all isHexDigit
        | _ => false)
    || (match bracketed? "color(" word with
        | some number => isByteNumber number
        | none => false)

/-- The number that a part of a colour stands for. -/
def colourPart (digits : List Char) : Except MarkupFault Nat :=
  if digitMax < digits.length then .error (.longNumber digits.length)
  else match natural? digits with
    | some n => .ok n
    | none => .error .noNumber

/-- Three parts of a colour, each a number of any length in the digits of any
script; a part that is missing is a fault, one that is too large is no colour. -/
def isColourTriple (word : List Char) : Except MarkupFault Bool :=
  match bracketed? "rgb(" word with
  | none => .ok false
  | some inner =>
    if inner = [] ∨ ¬ inner.all (fun c => c = ',' ∨ (digitValue? c).isSome) then .ok false
    else
      let parts := inner.splitOn ','
      if parts.length = 3 then do
        let numbers ← parts.mapM colourPart
        return numbers.all (· ≤ 255)
      else .ok false

def isColour (word : List Char) : Except MarkupFault Bool :=
  if isNamedColour word then .ok true else isColourTriple word

/-- A style as it is read from a tag. -/
structure TagStyle where
  attributes : List (String × Bool) := []
  colour : Option (List Char) := none
  background : Option (List Char) := none
  link : Option (List Char) := none

/-- Words between blanks. -/
def words (s : List Char) : List (List Char) :=
  (s.splitOnP isBlank).filter (· ≠ [])

/-- Read words into a style; `none` if they make none. -/
def TagStyle.readWords (style : TagStyle) : List (List Char) → Except MarkupFault (Option TagStyle)
  | [] => .ok (some style)
  | first :: rest =>
    let word := lower first
    if word = "on".toList then
      match rest with
      | next :: rest => do
        if ← isColour (lower next) then
          TagStyle.readWords { style with background := some (lower next) } rest
        else return none
      | [] => .ok none
    else if word = "not".toList then
      match rest with
      | next :: rest =>
        match attributeNames.lookup (String.ofList next) with
        | some name => { style with attributes := (name, false) :: style.attributes }.readWords rest
        | none => .ok none
      | [] => .ok none
    else if word = "link".toList then
      match rest with
      | next :: rest => { style with link := some next }.readWords rest
      | [] => .ok none
    else
      match attributeNames.lookup (String.ofList word) with
      | some name => { style with attributes := (name, true) :: style.attributes }.readWords rest
      | none => do
        if ← isColour word then TagStyle.readWords { style with colour := some word } rest
        else return none

/-- The one spelling under which a style is known. -/
def TagStyle.text (style : TagStyle) : List Char :=
  let attributes := attributeOrder.filterMap fun name =>
    (style.attributes.lookup name).map fun on =>
      if on then name.toList else "not ".toList ++ name.toList
  let parts := attributes ++ style.colour.toList
    ++ (style.background.map ("on ".toList ++ ·)).toList
    ++ (style.link.map ("link ".toList ++ ·)).toList
  if parts = [] then "none".toList else [' '].intercalate parts

/-- The normal form of a tag's name. -/
def normalName (name : List Char) : Except MarkupFault (List Char) := do
  match ← TagStyle.readWords {} (words name) with
  | some style => return style.text
  | none => return lower (trim name)

end Unscramble.Console
