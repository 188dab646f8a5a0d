import Unscramble.Console.Markup
import Unscramble.Text.Wrap

/-!
# The console

What is printed on a console is markup: its tags are taken out, characters that
would move the cursor are dropped, and lines are wrapped to the console's width.
A coloured terminal is taken to be eighty columns wide and shows each line in
the style it is printed in.
-/

namespace Unscramble

structure Console where
  width : Nat
  coloured : Bool
deriving DecidableEq, Repr

namespace Console

open Text

def columns (console : Console) : Nat := if console.coloured then 80 else console.width

/-- Bell, backspace, vertical tab, form feed and carriage return are not printed. -/
def isDropped (c : Char) : Bool :=
  c.toNat = 7 || c.toNat = 8 || c.toNat = 11 || c.toNat = 12 || c.toNat = 13

/-- A line in a style, given by its terminal code. -/
def paint (console : Console) (style : Option String) (line : List Char) : List Char :=
  match style with
  | some code =>
    if console.coloured ∧ line ≠ [] then
      ['\x1b', '['] ++ code.toList ++ 'm' :: line ++ ['\x1b', '[', '0', 'm']
    else line
  | none => line

/-- The lines of plain text, each ended. -/
def layOut (console : Console) (style : Option String) (s : List Char) : String :=
  let lines := wrap .fold console.columns (s.filter (!isDropped ·))
  String.ofList (lines.flatMap fun line => console.paint style line ++ ['\n'])

/-- What printing markup shows. -/
def print (console : Console) (style : Option String) (markup : List Char) :
    Except MarkupFault String := do
  let plain ← render markup
  return console.layOut style plain

end Console

end Unscramble
