import Unscramble.Decimal.Shortest

/-!
# Time limits

A command may be given a time, in seconds, after which it is stopped.
-/

namespace Unscramble

inductive TimeLimit
  | whole (seconds : Int)
  | decimal (seconds : Decimal)
deriving DecidableEq, Repr

namespace TimeLimit

def text : TimeLimit → String
  | whole seconds => toString seconds
  | decimal seconds => Decimal.toString seconds

/-- Parts of a second that time is counted in. -/
def ticks : Nat := 1000000000

/-- A command that takes so many ticks ends in time.  A limit that is not positive has
passed before the command starts. -/
def allows (limit : TimeLimit) (elapsed : Nat) : Bool :=
  match limit with
  | whole n => (elapsed : Int) < n * ticks
  | decimal (.finite negative digits exponent) =>
    !negative
      && (if 0 ≤ exponent then elapsed < digits * Nat.pow 10 exponent.toNat * ticks
          else elapsed * Nat.pow 10 (-exponent).toNat < digits * ticks)
  | decimal (.infinity negative) => !negative
  | decimal .nan => true

end TimeLimit

/-- Why a limit cannot be waited for. -/
inductive WaitFault
  | noDouble
  | infinite
  | notANumber
  | largeStamp
  | largeDelay
deriving DecidableEq, Repr

def WaitFault.message : WaitFault → String
  | noDouble => "int too large to convert to float"
  | infinite => "cannot convert float infinity to integer"
  | notANumber => "cannot convert float NaN to integer"
  | largeStamp => "timestamp too large to convert to C _PyTime_t"
  | largeDelay => "timeout is too large"

namespace TimeLimit

/-- The most milliseconds that a moment or a delay can be told in. -/
def stampMax : Nat := 9223372036854
def delayMax : Nat := 2147483647

/-- More milliseconds than `most`. -/
def exceeds (limit : TimeLimit) (most : Nat) : Bool :=
  match limit with
  | whole n => (most : Int) < n * 1000
  | decimal (.finite negative digits exponent) =>
    !negative
      && (if 0 ≤ exponent then most < digits * Nat.pow 10 exponent.toNat * 1000
          else most * Nat.pow 10 (-exponent).toNat < digits * 1000)
  | _ => false

/-- What keeps a limit from being waited for.  Streams are only waited for if they are
`watched`. -/
def fault? (limit : TimeLimit) (watched : Bool) : Option WaitFault :=
  match limit with
  | whole n =>
    if n ≠ 0 ∧ (Decimal.Double.nearest? ⟨n.natAbs, 1⟩).isNone then some .noDouble else delay
  | decimal (.infinity false) => if watched then some .infinite else none
  | decimal .nan => if watched then some .notANumber else none
  | decimal _ => delay
where
  delay : Option WaitFault :=
    if ¬ watched then none
    else if limit.exceeds stampMax then some .largeStamp
    else if limit.exceeds delayMax then some .largeDelay
    else none

end TimeLimit

end Unscramble
