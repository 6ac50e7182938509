import PowerTables.Category
import PowerTables.Table.Basic

/-!
# The columns of each category

Every category has a fixed list of columns, each with a type.  Columns that hold identifiers,
topology or computed results can be read but not written.

## Main definitions

* `ColumnSpec` : name, type and writability of a column.
* `Category.schema` : the columns of a category, in display order.
* `Category.column?` : one column of a category.
* `Category.connectionColumns` : the columns that say whether an element is connected.
* `Category.emptyTable` : the table of a category without rows.
-/

namespace PowerTables

/-- The declaration of a column. -/
structure ColumnSpec where
  name : String
  type : CellType
  writable : Bool := true
  deriving DecidableEq, Repr

namespace ColumnSpec

/-- A column of texts. -/
def string (name : String) : ColumnSpec := ⟨name, .string, true⟩

/-- A column of doubles. -/
def double (name : String) : ColumnSpec := ⟨name, .double, true⟩

/-- A column of integers. -/
def int (name : String) : ColumnSpec := ⟨name, .int, true⟩

/-- A column of truth values. -/
def boolean (name : String) : ColumnSpec := ⟨name, .boolean, true⟩

/-- The same column, closed to writes. -/
def readOnly (spec : ColumnSpec) : ColumnSpec := { spec with writable := false }

end ColumnSpec

namespace Category

/-- The columns of a category, in display order. -/
def schema : Category → List ColumnSpec
  | bus =>
    [.double "v_mag", .double "v_angle", .readOnly (.int "connected_component"),
     .readOnly (.int "synchronous_component"), .readOnly (.string "voltage_level_id")]
  | generator =>
    [.string "name", .string "energy_source", .double "target_p", .double "min_p",
     .double "max_p", .double "min_q", .double "max_q", .double "target_v", .double "target_q",
     .boolean "voltage_regulator_on", .double "p", .double "q", .readOnly (.double "i"),
     .readOnly (.string "voltage_level_id"), .readOnly (.string "bus_id"), .boolean "connected"]
  | load =>
    [.string "name", .string "type", .double "p0", .double "q0", .double "p", .double "q",
     .readOnly (.string "voltage_level_id"), .readOnly (.string "bus_id"), .boolean "connected"]
  | battery =>
    [.string "name", .double "max_p", .double "min_p", .double "min_q", .double "max_q",
     .double "p0", .double "q0", .double "p", .double "q",
     .readOnly (.string "voltage_level_id"), .readOnly (.string "bus_id"), .boolean "connected"]
  | line =>
    [.string "name", .double "r", .double "x", .double "g1", .double "b1", .double "g2",
     .double "b2", .double "p1", .double "q1", .readOnly (.double "i1"), .double "p2",
     .double "q2", .readOnly (.double "i2"), .readOnly (.string "voltage_level1_id"),
     .readOnly (.string "voltage_level2_id"), .readOnly (.string "bus1_id"),
     .readOnly (.string "bus2_id"), .boolean "connected1", .boolean "connected2"]
  | twoWindingsTransformer =>
    [.string "name", .double "r", .double "x", .double "g", .double "b", .double "rated_u1",
     .double "rated_u2", .double "rated_s", .double "p1", .double "q1",
     .readOnly (.double "i1"), .double "p2", .double "q2", .readOnly (.double "i2"),
     .readOnly (.string "voltage_level1_id"), .readOnly (.string "voltage_level2_id"),
     .readOnly (.string "bus1_id"), .readOnly (.string "bus2_id"), .boolean "connected1",
     .boolean "connected2"]
  | threeWindingsTransformer =>
    [.string "name", .double "rated_u0", .double "r1", .double "x1", .double "g1", .double "b1",
     .double "rated_u1", .double "rated_s1", .double "p1", .double "q1",
     .readOnly (.double "i1"), .readOnly (.string "voltage_level1_id"),
     .readOnly (.string "bus1_id"), .boolean "connected1", .double "r2", .double "x2",
     .double "g2", .double "b2", .double "rated_u2", .double "rated_s2", .double "p2",
     .double "q2", .readOnly (.double "i2"), .readOnly (.string "voltage_level2_id"),
     .readOnly (.string "bus2_id"), .boolean "connected2", .double "r3", .double "x3",
     .double "g3", .double "b3", .double "rated_u3", .double "rated_s3", .double "p3",
     .double "q3", .readOnly (.double "i3"), .readOnly (.string "voltage_level3_id"),
     .readOnly (.string "bus3_id"), .boolean "connected3"]
  | shuntCompensator =>
    [.string "name", .readOnly (.string "model_type"), .readOnly (.int "max_section_count"),
     .int "section_count", .double "p", .double "q", .readOnly (.double "i"),
     .readOnly (.string "voltage_level_id"), .readOnly (.string "bus_id"), .boolean "connected"]
  | danglingLine =>
    [.string "name", .double "r", .double "x", .double "g", .double "b", .double "p0",
     .double "q0", .double "p", .double "q", .readOnly (.double "i"),
     .readOnly (.string "voltage_level_id"), .readOnly (.string "bus_id"), .boolean "connected"]
  | lccConverterStation =>
    [.string "name", .double "power_factor", .double "loss_factor", .double "p", .double "q",
     .readOnly (.double "i"), .readOnly (.string "voltage_level_id"),
     .readOnly (.string "bus_id"), .boolean "connected"]
  | vscConverterStation =>
    [.string "name", .double "loss_factor", .double "voltage_setpoint",
     .double "reactive_power_setpoint", .boolean "voltage_regulator_on", .double "p",
     .double "q", .readOnly (.double "i"), .readOnly (.string "voltage_level_id"),
     .readOnly (.string "bus_id"), .boolean "connected"]
  | staticVarCompensator =>
    [.string "name", .double "voltage_setpoint", .double "reactive_power_setpoint",
     .string "regulation_mode", .double "p", .double "q", .readOnly (.double "i"),
     .readOnly (.string "voltage_level_id"), .readOnly (.string "bus_id"), .boolean "connected"]
  | voltageLevel =>
    [.string "name", .readOnly (.string "substation_id"), .double "nominal_v",
     .double "high_voltage_limit", .double "low_voltage_limit"]
  | busbarSection =>
    [.string "name", .readOnly (.boolean "fictitious"), .double "v", .double "angle",
     .readOnly (.string "voltage_level_id"), .boolean "connected"]
  | substation =>
    [.string "name", .string "TSO", .string "geo_tags", .string "country"]
  | hvdcLine =>
    [.string "name", .string "converters_mode", .double "active_power_setpoint",
     .double "max_p", .double "nominal_v", .double "r",
     .readOnly (.string "converter_station1_id"), .readOnly (.string "converter_station2_id"),
     .boolean "connected1", .boolean "connected2"]
  | switch =>
    [.string "name", .readOnly (.string "kind"), .boolean "open", .boolean "retained",
     .readOnly (.string "voltage_level_id"), .readOnly (.string "bus_breaker_bus1_id"),
     .readOnly (.string "bus_breaker_bus2_id")]
  | ratioTapChanger =>
    [.int "tap", .readOnly (.int "low_tap"), .readOnly (.int "high_tap"),
     .readOnly (.int "step_count"), .boolean "on_load", .boolean "regulating",
     .double "target_v", .double "target_deadband", .readOnly (.string "regulating_bus_id")]
  | phaseTapChanger =>
    [.int "tap", .readOnly (.int "low_tap"), .readOnly (.int "high_tap"),
     .readOnly (.int "step_count"), .boolean "regulating", .string "regulation_mode",
     .double "regulation_value", .double "target_deadband",
     .readOnly (.string "regulating_bus_id")]
  | ratioTapChangerStep =>
    [.double "rho", .double "r", .double "x", .double "g", .double "b"]
  | phaseTapChangerStep =>
    [.double "rho", .double "alpha", .double "r", .double "x", .double "g", .double "b"]
  | reactiveCapabilityCurvePoint =>
    [.double "p", .double "min_q", .double "max_q"]

/-- The declaration of a column, if the category has one of that name. -/
def column? (c : Category) (name : String) : Option ColumnSpec :=
  c.schema.find? fun spec => spec.name == name

/-- Whether a column of this name says that an element, or one end of it, is connected. -/
def isConnectionName (name : String) : Bool :=
  "connected".toList.isPrefixOf name.toList && name != "connected_component"

/-- The columns that say whether an element, or each end of it, is connected. -/
def connectionColumns (c : Category) : List String :=
  (c.schema.map (·.name)).filter isConnectionName

/-- The table of a category without rows. -/
def emptyTable (c : Category) : Table :=
  ⟨[], c.schema.map fun spec => .empty spec.name spec.type⟩

end Category

end PowerTables
