import PowerTables.Category
import PowerTables.PerUnit.Context

/-!
# Conversion rules

A rule says which column of a category is converted between physical units and per-unit, what
its values measure, and where the nominal voltage of a row is found.

## Main definitions

* `Dimension` : what the values of a column measure.
* `Dimension.divisor` : the base of a dimension.
* `BaseSource` : where the nominal voltage of a row is found.
* `Category.rules` : the rules of a category.
* `Category.baseColumns` : the columns some rules read a voltage from.
-/

namespace PowerTables

/-- What the values of a converted column measure. -/
inductive Dimension
  | power
  | voltage
  | ratio
  | current
  | impedance
  | admittance
  | dcResistance
  deriving DecidableEq, Repr

namespace Dimension

/-- All dimensions. -/
def all : List Dimension :=
  [power, voltage, ratio, current, impedance, admittance, dcResistance]

/-- The name of a dimension. -/
def name : Dimension → String
  | power => "Power"
  | voltage => "Voltage"
  | ratio => "Ratio"
  | current => "Current"
  | impedance => "Impedance"
  | admittance => "Admittance"
  | dcResistance => "DcResistance"

/-- The base that values of a dimension are divided by at a nominal voltage.  The power base
does not depend on the voltage. -/
def divisor (d : Dimension) (ctx : PerUnitContext) (nominalVoltage : Float) : Float :=
  let bases := ctx.bases nominalVoltage
  match d with
  | power => ctx.powerBase
  | voltage | ratio => nominalVoltage
  | current => bases.current.value
  | impedance => bases.impedance.value
  | admittance => bases.admittance.value
  | dcResistance => bases.dcResistance.value

/-- Whether the base of a dimension depends on the voltage. -/
def needsVoltage (d : Dimension) : Bool := d != power

end Dimension

/-- Where the nominal voltage of a row is found. -/
inductive BaseSource
  /-- No voltage is needed. -/
  | none
  /-- The voltage level whose id is in this column. -/
  | voltageLevel (column : String)
  /-- This column of the row itself. -/
  | rowColumn (column : String)
  deriving DecidableEq, Repr

/-- The column a voltage is read from. -/
def BaseSource.column? : BaseSource → Option String
  | none => Option.none
  | voltageLevel column => some column
  | rowColumn column => some column

/-- How one column is converted. -/
structure ConversionRule where
  column : String
  dimension : Dimension
  source : BaseSource
  deriving DecidableEq, Repr

namespace ConversionRule

/-- The rule of a power column. -/
def power (column : String) : ConversionRule := ⟨column, .power, .none⟩

/-- The rule of a column whose voltage is that of a voltage level. -/
def atLevel (dimension : Dimension) (column idColumn : String) : ConversionRule :=
  ⟨column, dimension, .voltageLevel idColumn⟩

/-- The rule of a column whose voltage is in the row itself. -/
def ownVoltage (dimension : Dimension) (column voltageColumn : String) : ConversionRule :=
  ⟨column, dimension, .rowColumn voltageColumn⟩

end ConversionRule

namespace Category

/-- The conversion rules of a category. -/
def rules : Category → List ConversionRule
  | bus =>
    [.atLevel .voltage "v_mag" "voltage_level_id"]
  | generator =>
    [.power "target_p", .power "target_q", .power "min_p", .power "max_p", .power "min_q",
     .power "max_q", .power "p", .power "q", .atLevel .voltage "target_v" "voltage_level_id",
     .atLevel .current "i" "voltage_level_id"]
  | load =>
    [.power "p0", .power "q0", .power "p", .power "q"]
  | battery =>
    [.power "p0", .power "q0", .power "min_p", .power "max_p", .power "min_q", .power "max_q",
     .power "p", .power "q"]
  | line =>
    [.power "p1", .power "q1", .power "p2", .power "q2",
     .atLevel .current "i1" "voltage_level1_id", .atLevel .current "i2" "voltage_level2_id",
     .atLevel .impedance "r" "voltage_level1_id", .atLevel .impedance "x" "voltage_level1_id",
     .atLevel .admittance "g1" "voltage_level1_id",
     .atLevel .admittance "b1" "voltage_level1_id",
     .atLevel .admittance "g2" "voltage_level2_id",
     .atLevel .admittance "b2" "voltage_level2_id"]
  | twoWindingsTransformer =>
    [.power "p1", .power "q1", .power "p2", .power "q2", .power "rated_s",
     .atLevel .current "i1" "voltage_level1_id", .atLevel .current "i2" "voltage_level2_id",
     .atLevel .impedance "r" "voltage_level2_id", .atLevel .impedance "x" "voltage_level2_id",
     .atLevel .admittance "g" "voltage_level2_id", .atLevel .admittance "b" "voltage_level2_id",
     .atLevel .ratio "rated_u1" "voltage_level1_id",
     .atLevel .ratio "rated_u2" "voltage_level2_id"]
  | threeWindingsTransformer =>
    [.power "p1", .power "q1", .atLevel .current "i1" "voltage_level1_id",
     .atLevel .impedance "r1" "voltage_level1_id", .atLevel .impedance "x1" "voltage_level1_id",
     .atLevel .admittance "g1" "voltage_level1_id",
     .atLevel .admittance "b1" "voltage_level1_id",
     .atLevel .ratio "rated_u1" "voltage_level1_id", .power "p2", .power "q2",
     .atLevel .current "i2" "voltage_level2_id", .atLevel .impedance "r2" "voltage_level2_id",
     .atLevel .impedance "x2" "voltage_level2_id",
     .atLevel .admittance "g2" "voltage_level2_id",
     .atLevel .admittance "b2" "voltage_level2_id",
     .atLevel .ratio "rated_u2" "voltage_level2_id", .power "p3", .power "q3",
     .atLevel .current "i3" "voltage_level3_id", .atLevel .impedance "r3" "voltage_level3_id",
     .atLevel .impedance "x3" "voltage_level3_id",
     .atLevel .admittance "g3" "voltage_level3_id",
     .atLevel .admittance "b3" "voltage_level3_id",
     .atLevel .ratio "rated_u3" "voltage_level3_id"]
  | shuntCompensator =>
    [.power "p", .power "q", .atLevel .current "i" "voltage_level_id"]
  | danglingLine =>
    [.power "p0", .power "q0", .power "p", .power "q", .atLevel .current "i" "voltage_level_id",
     .atLevel .impedance "r" "voltage_level_id", .atLevel .impedance "x" "voltage_level_id",
     .atLevel .admittance "g" "voltage_level_id", .atLevel .admittance "b" "voltage_level_id"]
  | lccConverterStation =>
    [.power "p", .power "q", .atLevel .current "i" "voltage_level_id"]
  | vscConverterStation =>
    [.power "p", .power "q", .power "reactive_power_setpoint",
     .atLevel .voltage "voltage_setpoint" "voltage_level_id",
     .atLevel .current "i" "voltage_level_id"]
  | staticVarCompensator =>
    [.power "p", .power "q", .power "reactive_power_setpoint",
     .atLevel .voltage "voltage_setpoint" "voltage_level_id",
     .atLevel .current "i" "voltage_level_id"]
  | voltageLevel =>
    [.ownVoltage .voltage "high_voltage_limit" "nominal_v",
     .ownVoltage .voltage "low_voltage_limit" "nominal_v"]
  | busbarSection =>
    [.atLevel .voltage "v" "voltage_level_id"]
  | hvdcLine =>
    [.power "max_p", .power "active_power_setpoint", .ownVoltage .dcResistance "r" "nominal_v"]
  | reactiveCapabilityCurvePoint =>
    [.power "p", .power "min_q", .power "max_q"]
  | substation | switch | ratioTapChanger | phaseTapChanger |
    ratioTapChangerStep | phaseTapChangerStep => []

/-- Whether converting a category needs the table of voltage levels. -/
def needsVoltageLevels (c : Category) : Bool :=
  c.rules.any fun rule => match rule.source with
    | .voltageLevel _ => true
    | _ => false

/-- The columns that the rules of the given columns read voltages from, each once, in the order
of the rules. -/
def baseColumns (c : Category) (present : List String) : List String :=
  ((c.rules.filter fun rule => present.contains rule.column).filterMap
    fun rule => rule.source.column?).eraseDups

end Category

end PowerTables
