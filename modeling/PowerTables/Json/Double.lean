import PowerTables.Json.Value
import PowerTables.Number.Reading
import PowerTables.Number.Shortest

/-!
# Numbers of JSON as integers and doubles

A double is written with its shortest digits.  It is read in two steps that round: the digits
are gathered into a significand of 64 bits, and that is multiplied or divided by one power of
ten.  So a double that is written and read again need not be the same.

## Main definitions

* `Json.ofDouble` : a double as a value; what is not finite becomes `null`.
* `Json.Number.int64?` : a number written as an integer that fits 64 bits.
* `Json.Number.double?` : the double of a number, if it is in range.
-/

namespace PowerTables.Json

/-! ### Writing -/

/-- The least and the greatest exponent of the first digit of a number that is written without
an exponent. -/
def positionalExponents : Int × Int := (-5, 15)

/-- The number with these digits, whose point stands after the first `point` of them. -/
def Number.ofDigits (negative : Bool) (ds : List Digit) (point : Int) : Number :=
  let first := point - 1
  if positionalExponents.1 ≤ first ∧ first ≤ positionalExponents.2 then
    if point ≤ 0 then
      { negative := negative, whole := [Digit.zero]
        fraction := List.replicate (-point).toNat Digit.zero ++ ds }
    else
      let places := point.toNat
      if ds.length ≤ places then
        { negative := negative, whole := ds ++ List.replicate (places - ds.length) Digit.zero
          fraction := [Digit.zero] }
      else { negative := negative, whole := ds.take places, fraction := ds.drop places }
  else
    { negative := negative, whole := ds.take 1, fraction := ds.drop 1
      exponent := some ⟨if first < 0 then .minus else .plus, Digits.ofNat first.natAbs⟩ }

/-- The number of a finite double. -/
def Number.ofDyadic (x : Double.Dyadic) : Number :=
  if x.mantissa = 0 then { negative := x.negative, whole := [Digit.zero], fraction := [Digit.zero] }
  else
    let d := Double.shortest .even x.mantissa x.exponent
    let ds := Digits.ofNat d.significand
    .ofDigits x.negative ds (d.exponent + ds.length)

/-- The value of a double: a number when it is finite and `null` otherwise. -/
def ofDouble (x : Float) : Json :=
  match Double.parts x with
  | .finite value => .number (.ofDyadic value)
  | _ => .null

/-! ### Reading -/

/-- The integer a number denotes when it is written without point and exponent.  `-0` is not an
integer. -/
def Number.int? (n : Number) : Option Int :=
  if n.fraction.isEmpty && n.exponent.isNone then
    let magnitude := Digits.toNat n.whole
    if n.negative then
      if magnitude = 0 then none else some (-(magnitude : Int))
    else some magnitude
  else none

/-- The integer of 64 bits a number denotes. -/
def Number.int64? (n : Number) : Option Int64 :=
  n.int?.bind fun i => if fitsInt64 i then some (Int64.ofInt i) else none

/-- Appends digits to a significand as long as it stays below 64 bits; gives the significand
and how many digits were taken. -/
def gather (significand taken : Nat) : List Digit → Nat × Nat
  | [] => (significand, taken)
  | d :: ds =>
    let next := significand * 10 + d.val
    if next < UInt64.size then gather next (taken + 1) ds else (significand, taken)

/-- The power of ten as a double. -/
def tenTo (n : Nat) : Float := Float.ofScientific 1 false n

/-- The greatest exponent of a power of ten among the doubles. -/
def greatestPower : Nat := 308

/-- Divides by `10 ^ n`, in steps of at most `10 ^ 308`; zero stays. -/
def divideTen (x : Float) (n : Nat) : Float :=
  if _h : greatestPower < n then
    if x == 0.0 then x else divideTen (x / tenTo greatestPower) (n - greatestPower)
  else x / tenTo n
termination_by n
decreasing_by simp only [greatestPower] at *; omega

/-- Multiplies by `10 ^ n`; a product that is not finite is refused. -/
def multiplyTen? (x : Float) (n : Nat) : Option Float :=
  if greatestPower < n then if x == 0.0 then some x else none
  else
    let product := x * tenTo n
    if product.isInf then none else some product

/-- The significand times a power of ten, rounded at each step. -/
def scale? (significand : Nat) (exponent : Int) : Option Float :=
  let x := significand.toUInt64.toFloat
  match exponent with
  | .ofNat n => multiplyTen? x n
  | .negSucc n => some (divideTen x (n + 1))

/-- The greatest exponent that is computed with. -/
def greatestExponent : Nat := 2147483647

/-- The magnitude of a number as a double.  A written exponent above the greatest one gives zero,
or is refused when the number would be huge. -/
def Number.magnitude? (n : Number) : Option Float :=
  let (whole, wholeTaken) := gather 0 0 n.whole
  let (significand, fractionTaken) := gather whole 0 n.fraction
  let exponent : Int := (n.whole.length - wholeTaken : Nat) - (fractionTaken : Int)
  match n.exponent with
  | none => scale? significand exponent
  | some e =>
    let written := Digits.toNat e.digits
    if greatestExponent < written then
      if significand ≠ 0 ∧ e.sign ≠ .minus then none else some 0.0
    else if e.sign = .minus then scale? significand (exponent - written)
    else scale? significand (exponent + written)

/-- The double of a number; `none` when it is out of range. -/
def Number.double? (n : Number) : Option Float :=
  n.magnitude?.map (Double.withSign n.negative)

end PowerTables.Json
