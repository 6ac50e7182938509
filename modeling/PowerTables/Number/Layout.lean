import PowerTables.Number.Fixed
import PowerTables.Number.Shortest

/-!
# Writing a double

Three ways to set the shortest digits of a double: always positional, as a person reads a
table; positional with a point, as a configuration file has it; and with an exponent for very
small and very large values.

## Main definitions

* `Double.Layout` : the choices one way of writing makes.
* `Double.text` : a double written in a layout.
* `Double.plain`, `Double.pointed`, `Double.scientific` : the three layouts.
-/

namespace PowerTables.Double

/-- The choices made by one way of writing finite doubles. -/
structure Layout where
  /-- Whether a whole number keeps `.0`. -/
  point : Bool
  /-- The least exponent of the first digit that is still written positionally. -/
  positionalFrom : Option Int
  /-- The first exponent of the first digit that is no longer written positionally. -/
  positionalBelow : Option Int

/-- The shortest digits, always positional: `100`, `0.0000001`. -/
def plain : Layout := ⟨false, none, none⟩

/-- The shortest digits, always positional and with a point: `100.0`. -/
def pointed : Layout := ⟨true, none, none⟩

/-- The shortest digits, with an exponent below `1e-4` and from `1e16` on. -/
def scientific : Layout := ⟨true, some (-4), some 16⟩

/-- Whether the layout writes a number positionally whose first digit has this exponent. -/
def Layout.isPositional (layout : Layout) (exponent : Int) : Bool :=
  layout.positionalFrom.all (· ≤ exponent) && layout.positionalBelow.all (exponent < ·)

/-- Digits with the point after the first `point` of them; zeros fill the places between the
digits and the point.  `keepPoint` puts a zero after the point of a whole number. -/
def positionalText (keepPoint : Bool) (ds : List Digit) (point : Int) : String :=
  if point ≤ 0 then
    "0." ++ Digits.text (List.replicate (-point).toNat Digit.zero ++ ds)
  else
    let places := point.toNat
    if ds.length ≤ places then
      Digits.text (ds ++ List.replicate (places - ds.length) Digit.zero) ++
        (if keepPoint then ".0" else "")
    else Digits.text (ds.take places) ++ "." ++ Digits.text (ds.drop places)

/-- Digits with the point after the first of them and an exponent. -/
def exponentText (ds : List Digit) (exponent : Int) : String :=
  let tail := if ds.length ≤ 1 then "" else "." ++ Digits.text (ds.drop 1)
  Digits.text (ds.take 1) ++ tail ++ "e" ++ toString exponent

/-- A positive finite double in a layout. -/
def Layout.positiveText (layout : Layout) (mantissa : Nat) (exponent : Int) : String :=
  let d := shortest .upper mantissa exponent
  let ds := Digits.ofNat d.significand
  let point := d.exponent + ds.length
  if layout.isPositional (point - 1) then positionalText layout.point ds point
  else exponentText ds (point - 1)

/-- A double in a layout. -/
def text (layout : Layout) (x : Float) : String :=
  match parts x with
  | .nan => "NaN"
  | .infinite negative => infinityText negative
  | .finite ⟨negative, mantissa, exponent⟩ =>
    let sign := if negative then "-" else ""
    if mantissa = 0 then sign ++ (if layout.point then "0.0" else "0")
    else sign ++ layout.positiveText mantissa exponent

end PowerTables.Double
