/-!
# The parts of a double

A finite double is a natural number times a power of two, with a sign.  Everything that is
written about a double is computed exactly from these parts.

## Main definitions

* `Double.Dyadic` : sign, mantissa and exponent of a finite double.
* `Double.parts` : the parts of a double, or which special value it is.
* `Double.nan`, `Double.infinity` : the special values.
-/

namespace PowerTables.Double

/-- A finite double: `mantissa * 2 ^ exponent`, negated when `negative` is set. -/
structure Dyadic where
  negative : Bool
  mantissa : Nat
  exponent : Int
  deriving DecidableEq, Repr

/-- A double, taken apart. -/
inductive Parts
  | nan
  | infinite (negative : Bool)
  | finite (value : Dyadic)
  deriving DecidableEq, Repr

/-- The least exponent of a double. -/
def leastExponent : Int := -1074

/-- The mantissa of the powers of two among the normal doubles. -/
def normalMantissa : Nat := Nat.pow 2 52

/-- The parts of a double. -/
def parts (x : Float) : Parts :=
  let bits := x.toBits.toNat
  let negative := bits / Nat.pow 2 63 == 1
  let field : Nat := bits / normalMantissa % 2048
  let fraction : Nat := bits % normalMantissa
  if field = 2047 then
    if fraction = 0 then .infinite negative else .nan
  else if field = 0 then .finite ⟨negative, fraction, leastExponent⟩
  else .finite ⟨negative, fraction + normalMantissa, Int.ofNat field - 1075⟩

/-- The missing value. -/
def nan : Float := 0.0 / 0.0

/-- The value above all finite ones. -/
def infinity : Float := 1.0 / 0.0

/-- The product with a power of ten, as a fraction of natural numbers. -/
def scaleTen (num den : Nat) (power : Int) : Nat × Nat :=
  match power with
  | .ofNat n => (num * Nat.pow 10 n, den)
  | .negSucc n => (num, den * Nat.pow 10 (n + 1))

/-- The product with a power of two, as a fraction of natural numbers. -/
def scaleTwo (num den : Nat) (power : Int) : Nat × Nat :=
  match power with
  | .ofNat n => (num * Nat.pow 2 n, den)
  | .negSucc n => (num, den * Nat.pow 2 (n + 1))

end PowerTables.Double
