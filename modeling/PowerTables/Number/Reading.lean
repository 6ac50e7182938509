import PowerTables.Number.Binary
import PowerTables.Number.Digits
import PowerTables.Text.Blank

/-!
# Reading numbers

Decimal texts as integers of 64 bits and as doubles.  A double is the one nearest to the exact
value of the text.

## Main definitions

* `readInt64?` : an integer with an optional sign, refused when it does not fit.
* `Double.ofDecimal` : the double nearest to a decimal.
* `Double.read?` : a double in decimal or exponent form, or one of the special values.
-/

namespace PowerTables

/-- Whether an integer fits 64 bits. -/
def fitsInt64 (n : Int) : Bool := Int64.minValue.toInt ≤ n && n ≤ Int64.maxValue.toInt

/-- Splits an optional sign off; the flag tells whether it was a minus. -/
def takeSign : List Char → Bool × List Char
  | '+' :: cs => (false, cs)
  | '-' :: cs => (true, cs)
  | cs => (false, cs)

/-- Reads an integer: an optional sign and digits, with a value that fits 64 bits. -/
def readInt64? (s : String) : Option Int64 :=
  let (negative, rest) := takeSign s.toList
  (Digits.read? rest).bind fun ds =>
    let magnitude : Int := Digits.toNat ds
    let n := if negative then -magnitude else magnitude
    if fitsInt64 n then some (Int64.ofInt n) else none

namespace Double

/-- The double nearest to `significand * 10 ^ exponent`.  A first digit above `10 ^ 309` or
below `10 ^ -330` settles the value without computing the power. -/
def ofDecimal (significand : Nat) (exponent : Int) : Float :=
  if significand = 0 then 0.0
  else
    let first := exponent + (Digits.ofNat significand).length
    if 310 < first then infinity
    else if first < -330 then 0.0
    else match exponent with
      | .ofNat n => Float.ofScientific significand false n
      | .negSucc n => Float.ofScientific significand true (n + 1)

/-- The double or its negative. -/
def withSign (negative : Bool) (x : Float) : Float := if negative then -x else x

/-- Reads `e` or `E` with an optional sign and digits; an absent exponent is zero. -/
def readExponent? : List Char → Option Int
  | [] => some 0
  | c :: cs =>
    if c = 'e' ∨ c = 'E' then
      let (negative, rest) := takeSign cs
      (Digits.read? rest).map fun ds =>
        if negative then -(Digits.toNat ds : Int) else Digits.toNat ds
    else none

/-- Reads an unsigned decimal number: digits with an optional point, at least one digit, and an
optional exponent. -/
def readMagnitude? (cs : List Char) : Option Float :=
  let (whole, rest) := Digits.takeFront cs
  let (fraction, rest) := match rest with
    | '.' :: rest => Digits.takeFront rest
    | _ => ([], rest)
  if whole.length + fraction.length = 0 then none
  else (readExponent? rest).map fun e =>
    ofDecimal (Digits.toNat (whole ++ fraction)) (e - fraction.length)

/-- Reads a double: an optional sign, and a decimal number, `inf`, `infinity` or `nan` in
letters of any size. -/
def read? (s : String) : Option Float :=
  let (negative, rest) := takeSign s.toList
  let word := String.ofList (rest.map Char.toLower)
  if word = "inf" ∨ word = "infinity" then some (withSign negative infinity)
  else if word = "nan" then some nan
  else (readMagnitude? rest).map (withSign negative)

end Double

end PowerTables
