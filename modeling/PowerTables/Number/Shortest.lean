import PowerTables.Number.Binary

/-!
# The fewest digits that read back

Every double is the nearest double to a whole interval of real numbers.  Its shortest decimal
is the point of that interval on the coarsest decimal grid that has one, and of two such
points the one nearer to the double.

## Main definitions

* `Decimal` : a natural number times a power of ten.
* `Double.shortest` : the shortest decimal of a positive double.
-/

namespace PowerTables

/-- The decimal `significand * 10 ^ exponent`. -/
structure Decimal where
  significand : Nat
  exponent : Int
  deriving DecidableEq, Repr

namespace Decimal

/-- The same decimal without zeros at the end of its significand. -/
def stripZeros (significand : Nat) (exponent : Int) : Decimal :=
  if h : significand ≠ 0 ∧ significand % 10 = 0 then
    stripZeros (significand / 10) (exponent + 1)
  else ⟨significand, exponent⟩
termination_by significand
decreasing_by omega

end Decimal

namespace Double

/-- Which of two neighbours on a grid is taken when both are equally near. -/
inductive Tie
  | upper
  | even
  deriving DecidableEq, Repr

/-- The reals that are nearest to one double, as multiples of one unit: the double itself, and
the ends of its interval, which belong to it when `closed` is set. -/
structure Rounding where
  value : Nat
  lower : Nat
  upper : Nat
  closed : Bool
  /-- The unit is `num / den`. -/
  num : Nat
  den : Nat

/-- The interval of a positive double `mantissa * 2 ^ exponent`.  Below a power of two the
doubles lie twice as dense, so there the interval reaches down half as far. -/
def Rounding.of (mantissa : Nat) (exponent : Int) : Rounding :=
  let below := if mantissa = normalMantissa ∧ leastExponent < exponent then 1 else 2
  let (num, den) := scaleTwo 1 1 (exponent - 2)
  { value := 4 * mantissa, lower := 4 * mantissa - below, upper := 4 * mantissa + 2
    closed := mantissa % 2 == 0, num := num, den := den }

/-- Whether `a / b ≤ c / d`, or `a / b < c / d` when ends do not count. -/
def fractionLe (closed : Bool) (a b c d : Nat) : Bool :=
  if closed then a * d ≤ c * b else a * d < c * b

/-- The power `k` with `10 ^ (k - 1) ≤ num / den < 10 ^ k`. -/
def decimalMagnitude (num den : Nat) : Int :=
  let reaches (k : Int) : Bool :=
    let (a, b) := scaleTen 1 1 k
    a * den ≤ num * b
  let start := ((num.log2 : Int) - den.log2 - 1) * 30103 / 100000
  if reaches (start + 2) then start + 3
  else if reaches (start + 1) then start + 2
  else if reaches start then start + 1
  else start

/-- The point of the grid of multiples of `10 ^ power` that lies in the interval; the nearer
one when there are two. -/
def Rounding.onGrid? (r : Rounding) (tie : Tie) (power : Int) : Option Nat :=
  let (unitNum, unitDen) := scaleTen 1 1 power
  -- in multiples of the grid, the double is `num / den`
  let num := r.value * r.num * unitDen
  let den := r.den * unitNum
  let below := num / den
  let above := below + 1
  let low := fractionLe r.closed (r.lower * r.num * unitDen) den below 1
  let high := fractionLe r.closed above 1 (r.upper * r.num * unitDen) den
  let nearerAbove : Bool := match tie with
    | .upper => (2 * below + 1) * den ≤ 2 * num
    | .even => (2 * below + 1) * den < 2 * num ||
        ((2 * below + 1) * den == 2 * num && below % 2 == 1)
  if below = 0 then if high then some above else none
  else if low && high then some (if nearerAbove then above else below)
  else if low then some below
  else if high then some above
  else none

/-- The first grid that has a point in the interval, from the coarsest on; seventeen digits
are always enough. -/
def Rounding.search (r : Rounding) (tie : Tie) (power : Int) : Nat → Decimal
  | 0 =>
    let (unitNum, unitDen) := scaleTen 1 1 power
    .stripZeros (r.value * r.num * unitDen / (r.den * unitNum)) power
  | steps + 1 =>
    match r.onGrid? tie power with
    | some n => .stripZeros n power
    | none => r.search tie (power - 1) steps

/-- The shortest decimal that is nearest to the double `mantissa * 2 ^ exponent`, for a
positive mantissa. -/
def shortest (tie : Tie) (mantissa : Nat) (exponent : Int) : Decimal :=
  let r := Rounding.of mantissa exponent
  r.search tie (decimalMagnitude (r.value * r.num) r.den) 18

end Double

end PowerTables
