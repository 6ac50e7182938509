import PowerTables.Number.Fixed

/-!
# Physical quantities

A quantity is a double with a unit in its type, so that a voltage cannot stand where a power is
expected.

## Main definitions

* `PhysicalUnit` : the units of electrical quantities.
* `Quantity` : a value in a unit.
-/

namespace PowerTables

/-- A unit of an electrical quantity. -/
inductive PhysicalUnit
  | megavoltAmpere
  | kilovolt
  | ampere
  | ohm
  | siemens
  deriving DecidableEq, Repr

/-- The symbol of a unit. -/
def PhysicalUnit.symbol : PhysicalUnit → String
  | megavoltAmpere => "MVA"
  | kilovolt => "kV"
  | ampere => "A"
  | ohm => "Ω"
  | siemens => "S"

/-- A value in a unit. -/
structure Quantity (unit : PhysicalUnit) where
  value : Float

namespace Quantity

variable {unit : PhysicalUnit}

/-- The quantity multiplied by a number. -/
def scale (q : Quantity unit) (factor : Float) : Quantity unit := ⟨q.value * factor⟩

/-- The quantity divided by a number. -/
def divide (q : Quantity unit) (divisor : Float) : Quantity unit := ⟨q.value / divisor⟩

/-- The ratio of two quantities of one unit. -/
def ratio (a b : Quantity unit) : Float := a.value / b.value

/-- Whether a quantity is below another one. -/
def isLess (a b : Quantity unit) : Bool := a.value < b.value

/-- Whether two quantities have the same value; one that is not a number equals none. -/
def isEqual (a b : Quantity unit) : Bool := a.value == b.value

/-- The quantity with four places and its unit. -/
def text (q : Quantity unit) : String := s!"{Double.fixedText 4 q.value} {unit.symbol}"

end Quantity

end PowerTables
