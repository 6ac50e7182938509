import PowerTables.Number.Binary
import PowerTables.Number.Digits

/-!
# A fixed number of places

The decimal with a given number of places that is nearest to a double, computed on the exact
value of the double; a value halfway between two such decimals goes to the even one.

## Main definitions

* `roundHalfEven` : the natural number nearest to a fraction.
* `Double.fixedText` : a double with a fixed number of places.
-/

namespace PowerTables

/-- The natural number nearest to `num / den`; of two equally near ones the even one. -/
def roundHalfEven (num den : Nat) : Nat :=
  let below := num / den
  let twice := 2 * (num % den)
  if twice < den then below
  else if den < twice then below + 1
  else if below % 2 = 0 then below else below + 1

namespace Double

/-- The text of a special value. -/
def infinityText (negative : Bool) : String := if negative then "-inf" else "inf"

/-- A double with `places` digits after the point; the sign of a negative zero stays. -/
def fixedText (places : Nat) (x : Float) : String :=
  match parts x with
  | .nan => "NaN"
  | .infinite negative => infinityText negative
  | .finite ⟨negative, mantissa, exponent⟩ =>
    let (num, den) := scaleTwo (mantissa * Nat.pow 10 places) 1 exponent
    let ds := Digits.padded (places + 1) (roundHalfEven num den)
    let whole := ds.take (ds.length - places)
    let fraction := ds.drop (ds.length - places)
    let sign := if negative then "-" else ""
    let tail := if places = 0 then "" else "." ++ Digits.text fraction
    sign ++ Digits.text whole ++ tail

end Double

end PowerTables
