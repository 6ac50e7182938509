import PowerTables.PerUnit.Quantity

/-!
# Bases of the per-unit system

In per-unit a quantity is expressed as a multiple of a base.  All bases at one nominal voltage
follow from that voltage and from one power base.

## Main definitions

* `PerUnitBases` : power and voltage base, with the bases that follow from them.
* `PerUnitContext` : whether tables are in per-unit, and the power base.
* `PerUnitContext.withPowerBase?` : another power base, which has to be positive and finite.
-/

namespace PowerTables

/-- The bases at one nominal voltage. -/
structure PerUnitBases where
  power : Quantity .megavoltAmpere
  voltage : Quantity .kilovolt

namespace PerUnitBases

/-- The square root of three. -/
def sqrtThree : Float := 1.7320508075688772

/-- The base of currents. -/
def current (b : PerUnitBases) : Quantity .ampere :=
  ⟨b.power.value * 1000.0 / (sqrtThree * b.voltage.value)⟩

/-- The base of impedances. -/
def impedance (b : PerUnitBases) : Quantity .ohm :=
  ⟨b.voltage.value * b.voltage.value / (b.power.value * 1000.0)⟩

/-- The base of admittances. -/
def admittance (b : PerUnitBases) : Quantity .siemens :=
  ⟨b.power.value * 1000.0 / (b.voltage.value * b.voltage.value)⟩

/-- The base of the resistance of a direct-current line. -/
def dcResistance (b : PerUnitBases) : Quantity .ohm :=
  ⟨b.voltage.value * b.voltage.value / b.power.value⟩

end PerUnitBases

/-- Whether tables are expressed in per-unit, and against which power base. -/
structure PerUnitContext where
  /-- The power base in MVA. -/
  powerBase : Float := 1.0
  enabled : Bool := false

namespace PerUnitContext

/-- Whether a value can be a power base. -/
def isPowerBase (value : Float) : Bool := 0.0 < value && value.isFinite

/-- The same context with another power base, unless that is not positive and finite. -/
def withPowerBase? (ctx : PerUnitContext) (value : Float) : Option PerUnitContext :=
  if isPowerBase value then some { ctx with powerBase := value } else none

/-- The bases at a nominal voltage. -/
def bases (ctx : PerUnitContext) (nominalVoltage : Float) : PerUnitBases :=
  ⟨⟨ctx.powerBase⟩, ⟨nominalVoltage⟩⟩

end PerUnitContext

end PowerTables
