import Unscramble.Script.Octets

/-!
# Signals

Signals have numbers and short names; most of them end a process that does not expect
them.
-/

namespace Unscramble.Script

namespace Signal

def names : List (String × Nat) :=
  [("HUP", 1), ("INT", 2), ("QUIT", 3), ("ILL", 4), ("TRAP", 5), ("ABRT", 6), ("BUS", 7),
   ("FPE", 8), ("KILL", 9), ("USR1", 10), ("SEGV", 11), ("USR2", 12), ("PIPE", 13), ("ALRM", 14),
   ("TERM", 15), ("CHLD", 17), ("CONT", 18), ("STOP", 19), ("TSTP", 20), ("TTIN", 21),
   ("TTOU", 22), ("URG", 23), ("XCPU", 24), ("XFSZ", 25), ("VTALRM", 26), ("PROF", 27),
   ("WINCH", 28), ("IO", 29), ("PWR", 30), ("SYS", 31)]

/-- The end of a process is treated like a signal with the number zero. -/
def ending : String × Nat := ("EXIT", 0)

def count : Nat := 65

/-- The number of a signal that is given by its number or its name. -/
def ofText? (names : List (String × Nat)) (s : Octets) : Option Nat :=
  match Octets.natural? s with
  | some n => if n < count then some n else none
  | none => names.lookup (String.ofList (s.map Char.toUpper))

/-- The signals from 34 on are for programs to use; they are named from both ends. -/
def name (number : Nat) : String :=
  match (ending :: names).find? (·.2 = number) with
  | some (name, _) => name
  | none =>
    if number < 34 ∨ 64 < number then toString number
    else if number = 34 then "RTMIN"
    else if number < 50 then "RTMIN+" ++ toString (number - 34)
    else if number < 64 then "RTMAX-" ++ toString (64 - number)
    else "RTMAX"

/-- Signals that do nothing to a process that does not expect them. -/
def isHarmless (number : Nat) : Bool :=
  number = 0 || number = 17 || number = 18 || number = 23 || number = 28

/-- What is said of a process that a signal has ended. -/
def description (number : Nat) : String :=
  match number with
  | 1 => "Hangup"
  | 3 => "Quit"
  | 4 => "Illegal instruction"
  | 5 => "Trace/breakpoint trap"
  | 6 => "Aborted"
  | 7 => "Bus error"
  | 8 => "Floating point exception"
  | 9 => "Killed"
  | 10 => "User defined signal 1"
  | 11 => "Segmentation fault"
  | 12 => "User defined signal 2"
  | 14 => "Alarm clock"
  | 15 => "Terminated"
  | 16 => "Stack fault"
  | 24 => "CPU time limit exceeded"
  | 25 => "File size limit exceeded"
  | 26 => "Virtual timer expired"
  | 27 => "Profiling timer expired"
  | 29 => "I/O possible"
  | 30 => "Power failure"
  | 31 => "Bad system call"
  | n => "Unknown signal " ++ toString n

/-- An interrupt and a broken pipe are not spoken of. -/
def isSilent (number : Nat) : Bool := number = 2 || number = 13

end Signal

end Unscramble.Script
