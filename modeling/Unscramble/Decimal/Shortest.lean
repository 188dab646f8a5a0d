/-!
# Shortest decimals

A number with a fraction is kept as the decimal it was written as.  It is shown
as the double nearest to it, with the fewest digits that lead back to that
double.  All steps are exact: a double is `m * 2 ^ q`, and decimals are compared
with it by cross multiplication.
-/

namespace Unscramble

inductive Decimal
  | finite (negative : Bool) (digits : Nat) (exponent : Int)
  | infinity (negative : Bool)
  | nan
deriving DecidableEq, Repr

namespace Decimal

/-- A positive fraction. -/
structure Ratio where
  num : Nat
  den : Nat

/-- `n * b ^ e`. -/
def Ratio.scaled (n b : Nat) (e : Int) : Ratio :=
  if 0 ≤ e then ⟨n * Nat.pow b e.toNat, 1⟩ else ⟨n, Nat.pow b (-e).toNat⟩

def Ratio.le (x y : Ratio) : Bool := x.num * y.den ≤ y.num * x.den

def Ratio.lt (x y : Ratio) : Bool := x.num * y.den < y.num * x.den

/-- The nearest whole number, the even one of two that are equally near. -/
def Ratio.round (x : Ratio) : Nat :=
  let whole := x.num / x.den
  let twice := 2 * (x.num % x.den)
  if twice < x.den ∨ (twice = x.den ∧ whole % 2 = 0) then whole else whole + 1

/-- `x * 2 ^ -q`. -/
def Ratio.atScale (x : Ratio) (q : Int) : Ratio :=
  if 0 ≤ q then ⟨x.num, x.den * Nat.pow 2 q.toNat⟩ else ⟨x.num * Nat.pow 2 (-q).toNat, x.den⟩

/-- A positive double `m * 2 ^ q`. -/
structure Double where
  m : Nat
  q : Int
deriving DecidableEq, Repr

/-- The exponent of the smallest doubles. -/
def minScale : Int := -1074

/-- The exponent of the largest doubles. -/
def maxScale : Int := 971

/-- The double nearest to a positive fraction; `none` if that is too large. -/
def Double.nearest? (x : Ratio) : Option Double :=
  let guess : Int := (x.num.log2 : Int) - x.den.log2 - 53
  let q := max guess minScale
  let q := if Nat.pow 2 53 ≤ (x.atScale q).num / (x.atScale q).den then q + 1 else q
  let q := if Nat.pow 2 53 ≤ (x.atScale q).num / (x.atScale q).den then q + 1 else q
  let m := (x.atScale q).round
  let d : Double := if m = Nat.pow 2 53 then ⟨Nat.pow 2 52, q + 1⟩ else ⟨m, q⟩
  if maxScale < d.q then none else some d

/-- The decimals that are nearer to a double than to its neighbours; the ends
belong to it if `m` is even. -/
def Double.covers (d : Double) (x : Ratio) : Bool :=
  let upper := Ratio.scaled (2 * d.m + 1) 2 (d.q - 1)
  let lower :=
    if d.m = Nat.pow 2 52 ∧ minScale < d.q then Ratio.scaled (4 * d.m - 1) 2 (d.q - 2)
    else Ratio.scaled (2 * d.m - 1) 2 (d.q - 1)
  if d.m % 2 = 0 then lower.le x && x.le upper else lower.lt x && x.lt upper

/-- The digits before the point, of a positive fraction: `10 ^ (k-1) ≤ x < 10 ^ k`. -/
def magnitude (x : Ratio) : Int :=
  let digits (n : Nat) : Int := (toString n).length
  let k := digits x.num - digits x.den
  if (Ratio.scaled 1 10 k).le x then k + 1 else k

/-- A decimal of `count` digits that stands for `d`, the nearest if there are two. -/
def shortestAt? (d : Double) (k : Int) (count : Nat) : Option (Nat × Int) :=
  let x := Ratio.scaled d.m 2 d.q
  let step : Int := k - count
  let unit := Ratio.scaled 1 10 step
  let units : Ratio := ⟨x.num * unit.den, x.den * unit.num⟩
  let below := units.num / units.den
  let first := units.round
  let second := if first = below then below + 1 else below
  if d.covers (Ratio.scaled first 10 step) then some (first, step)
  else if d.covers (Ratio.scaled second 10 step) then some (second, step)
  else none

/-- The fewest digits that lead back to `d`, with the exponent of the last one. -/
def shortest (d : Double) : Nat × Int :=
  let k := magnitude (Ratio.scaled d.m 2 d.q)
  (((List.range 17).findSome? fun n => shortestAt? d k (n + 1))).getD (d.m, d.q)

/-- Digits without zeros at their end. -/
def trimZeros (digits : List Char) : List Char :=
  (digits.reverse.dropWhile (· = '0')).reverse

/-- Positional from `1e-4` up to `1e16`, otherwise with a signed exponent of at
least two digits; a positional whole number keeps one place. -/
def layOut (value : Nat × Int) : String :=
  let all := (toString value.1).toList
  let point : Int := all.length + value.2
  let digits := trimZeros all
  if -4 < point ∧ point ≤ 16 then
    if point ≤ 0 then
      String.ofList ('0' :: '.' :: List.replicate (-point).toNat '0' ++ digits)
    else
      let whole := digits.take point.toNat
      let zeros := List.replicate (point.toNat - digits.length) '0'
      let places := digits.drop point.toNat
      String.ofList (whole ++ zeros ++ '.' :: (if places = [] then ['0'] else places))
  else
    let e := point - 1
    let mark := if e < 0 then '-' else '+'
    let size := toString e.natAbs
    let size := if size.length < 2 then "0" ++ size else size
    String.ofList (digits.take 1 ++ (if digits.drop 1 = [] then [] else '.' :: digits.drop 1)
      ++ 'e' :: mark :: size.toList)

/-- Exponents beyond which every double is zero or infinite. -/
def extreme : Int := 400

/-- The distance of a number from zero, as a double knows it. -/
inductive Size
  | zero
  | double (d : Double)
  | infinite
  | undefined
deriving DecidableEq, Repr

/-- The double nearest to a decimal, without its sign. -/
def size : Decimal → Size
  | nan => .undefined
  | infinity _ => .infinite
  | finite _ digits exponent =>
    let point : Int := (toString digits).length + exponent
    if digits = 0 ∨ point < -extreme then .zero
    else if extreme < point then .infinite
    else match Double.nearest? (Ratio.scaled digits 10 exponent) with
      | none => .infinite
      | some ⟨0, _⟩ => .zero
      | some d => .double d

def isNegative : Decimal → Bool
  | finite negative _ _ | infinity negative => negative
  | nan => false

protected def toString (x : Decimal) : String :=
  (if x.isNegative then "-" else "")
    ++ match x.size with
      | .zero => "0.0"
      | .double d => layOut (shortest d)
      | .infinite => "inf"
      | .undefined => "nan"

/-- The whole number that a double is, if it is one. -/
def Double.whole? (d : Double) : Option Nat :=
  if 0 ≤ d.q then some (d.m * Nat.pow 2 d.q.toNat)
  else
    let unit := Nat.pow 2 (-d.q).toNat
    if d.m % unit = 0 then some (d.m / unit) else none

end Decimal

end Unscramble
