import PowerTables.Text.Blank

/-!
# Element categories

The elements of a network fall into categories, and each category has a table of its own.

## Main definitions

* `Category` : the categories, with their names.
* `Category.hasNumberedRows` : the categories whose rows are numbered parts of an element.
* `Category.parse` : the category of a name as a person writes it.
-/

namespace PowerTables

/-- The category of an element. -/
inductive Category
  | bus
  | generator
  | load
  | battery
  | line
  | twoWindingsTransformer
  | threeWindingsTransformer
  | shuntCompensator
  | danglingLine
  | lccConverterStation
  | vscConverterStation
  | staticVarCompensator
  | voltageLevel
  | busbarSection
  | substation
  | hvdcLine
  | switch
  | ratioTapChanger
  | phaseTapChanger
  | ratioTapChangerStep
  | phaseTapChangerStep
  | reactiveCapabilityCurvePoint
  deriving DecidableEq, Repr

namespace Category

/-- All categories, in their order. -/
def all : List Category :=
  [bus, generator, load, battery, line, twoWindingsTransformer, threeWindingsTransformer,
   shuntCompensator, danglingLine, lccConverterStation, vscConverterStation,
   staticVarCompensator, voltageLevel, busbarSection, substation, hvdcLine, switch,
   ratioTapChanger, phaseTapChanger, ratioTapChangerStep, phaseTapChangerStep,
   reactiveCapabilityCurvePoint]

/-- The name of a category. -/
def name : Category → String
  | bus => "bus"
  | generator => "generator"
  | load => "load"
  | battery => "battery"
  | line => "line"
  | twoWindingsTransformer => "two_windings_transformer"
  | threeWindingsTransformer => "three_windings_transformer"
  | shuntCompensator => "shunt_compensator"
  | danglingLine => "dangling_line"
  | lccConverterStation => "lcc_converter_station"
  | vscConverterStation => "vsc_converter_station"
  | staticVarCompensator => "static_var_compensator"
  | voltageLevel => "voltage_level"
  | busbarSection => "busbar_section"
  | substation => "substation"
  | hvdcLine => "hvdc_line"
  | switch => "switch"
  | ratioTapChanger => "ratio_tap_changer"
  | phaseTapChanger => "phase_tap_changer"
  | ratioTapChangerStep => "ratio_tap_changer_step"
  | phaseTapChangerStep => "phase_tap_changer_step"
  | reactiveCapabilityCurvePoint => "reactive_capability_curve_point"

/-- The place of a category in the order of all categories. -/
def ordinal (c : Category) : Nat := all.idxOf c

/-- Whether the rows of a category are numbered parts of an element, such as the steps of a tap
changer. -/
def hasNumberedRows : Category → Bool
  | ratioTapChangerStep | phaseTapChangerStep | reactiveCapabilityCurvePoint => true
  | _ => false

/-- The category of an exact name. -/
def ofName? (name : String) : Option Category := all.find? fun c => c.name == name

/-- A category as a person writes it: blanks around it do not count, nor does the size of
letters, and a hyphen stands for an underscore. -/
def parse? (raw : String) : Option Category :=
  let chars := (Text.lower (Text.trim raw)).toList
  ofName? (String.ofList (chars.map fun c => if c = '-' then '_' else c))

/-- What is said about a text that names no category. -/
def unknownMessage (raw : String) : String :=
  let names := Text.joinWith ", " (all.map name)
  s!"unknown element category '{raw}'; supported values: {names}"

end Category

end PowerTables
