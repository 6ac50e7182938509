import PowerTables.Number.Digits

/-!
# JSON values

The syntax of a JSON text.  An object keeps its fields in order and with repetitions, and a
number keeps the digits it was written with: whether a field may occur twice, and which double
or integer a number stands for, is decided by who reads it.

## Main definitions

* `Json.Number` : a number as it is written.
* `Json.Text` : the content of a string, which may fail to be Unicode text.
* `Json` : a JSON value.
-/

namespace PowerTables

namespace Json

/-- How the sign of an exponent is written. -/
inductive ExponentSign
  | absent
  | plus
  | minus
  deriving DecidableEq, Repr

/-- An exponent as it is written. -/
structure Exponent where
  sign : ExponentSign
  digits : List Digit
  deriving DecidableEq, Repr

/-- A number as it is written: an optional minus, whole digits, the digits after the point when
there is one, and an optional exponent. -/
structure Number where
  negative : Bool
  whole : List Digit
  fraction : List Digit := []
  exponent : Option Exponent := none
  deriving DecidableEq, Repr

/-- The content of a string.  It is `none` when an escape names half of a surrogate pair: such
a string can be skipped, but it has no text. -/
abbrev Text := Option String

end Json

/-- A JSON value. -/
inductive Json
  | null
  | bool (value : Bool)
  | number (value : Json.Number)
  | string (value : Json.Text)
  | array (items : List Json)
  | object (fields : List (Json.Text × Json))

namespace Json

/-- The value of a text. -/
def ofText (s : String) : Json := .string (some s)

/-- The array of texts. -/
def ofTexts (texts : List String) : Json := .array (texts.map ofText)

/-- The object with the given fields. -/
def record (fields : List (String × Json)) : Json :=
  .object (fields.map fun (name, value) => (some name, value))

/-- The number of an integer. -/
def Number.ofInt (n : Int) : Number := { negative := n < 0, whole := Digits.ofNat n.natAbs }

/-- The value of an integer. -/
def ofInt (n : Int) : Json := .number (.ofInt n)

/-- The value of a natural number. -/
def ofNat (n : Nat) : Json := ofInt n

/-- The text of an exponent with its `e`. -/
def Exponent.text (e : Exponent) : String :=
  let sign := match e.sign with
    | .absent => ""
    | .plus => "+"
    | .minus => "-"
  "e" ++ sign ++ Digits.text e.digits

/-- The text of a number. -/
def Number.text (n : Number) : String :=
  (if n.negative then "-" else "") ++ Digits.text n.whole ++
    (if n.fraction.isEmpty then "" else "." ++ Digits.text n.fraction) ++
    (match n.exponent with
      | none => ""
      | some e => e.text)

end Json

end PowerTables
