import PowerTables.Session.Elements

/-!
# Finding elements

The ids of a category, all of them or those at certain voltage levels.  A voltage level is
chosen by its nominal voltage and by the country of its substation.

## Main definitions

* `ElementFilter` : the nominal voltages and the countries to keep.
* `ElementFilter.acceptedLevels` : the voltage levels that satisfy a filter.
* `Session.elementIds` : the ids of a category that pass a filter.
-/

namespace PowerTables

/-- What elements are kept by; an absent criterion is satisfied by all. -/
structure ElementFilter where
  /-- The nominal voltages to keep. -/
  nominalVoltages : Option (List Float) := none
  /-- The countries to keep. -/
  countries : Option (List String) := none

namespace ElementFilter

/-- Whether there is no criterion at all. -/
def isEmpty (f : ElementFilter) : Bool := f.nominalVoltages.isNone && f.countries.isNone

/-- How near two voltages have to be to count as the same, in kV. -/
def voltageTolerance : Float := 1e-9

/-- Whether a nominal voltage is among the wanted ones. -/
def acceptsVoltage (f : ElementFilter) (nominal : Option Float) : Bool :=
  match f.nominalVoltages with
  | none => true
  | some wanted => nominal.any fun v => wanted.any fun w => (w - v).abs < voltageTolerance

/-- Whether a country is among the wanted ones. -/
def acceptsCountry (f : ElementFilter) (country : Option String) : Bool :=
  match f.countries with
  | none => true
  | some wanted => country.any wanted.contains

/-- The country of a substation; of several rows for one id the last counts. -/
def countryOf? (substations : Table) (id : String) : Option String :=
  match substations.strings? "country" with
  | none => none
  | some countries =>
    (((substations.index.map (·.id)).zip countries).reverse.find? (·.1 == id)).map (·.2)

/-- The ids of the voltage levels that satisfy every criterion. -/
def acceptedLevels (f : ElementFilter) (levels substations : Table) : List String :=
  let nominal := (levels.doubles? "nominal_v").getD []
  let substationIds := (levels.strings? "substation_id").getD []
  let accepted := levels.index.zipIdx.filter fun (_, position) =>
    f.acceptsVoltage nominal[position]? &&
      f.acceptsCountry (substationIds[position]?.bind (countryOf? substations))
  accepted.map (·.1.id)

end ElementFilter

/-- Whether a column of this name holds the id of a voltage level. -/
def isLevelColumn (name : String) : Bool :=
  "voltage_level".toList.isPrefixOf name.toList && "_id".toList.isSuffixOf name.toList

/-- Whether one of the voltage levels of a row is accepted. -/
def Table.isAtLevel (t : Table) (accepted : List String) (position : Nat) : Bool :=
  (t.columnNames.filter isLevelColumn).any fun name =>
    (((t.strings? name).getD [])[position]?).any accepted.contains

/-- The ids of the rows that pass, each once, in the order in which they first occur. -/
def Table.idsWhere (t : Table) (passes : RowKey → Nat → Bool) : List String :=
  ((t.index.zipIdx.filter fun (key, position) => passes key position).map (·.1.id)).eraseDups

namespace Session

/-- The ids of a category that pass a filter. -/
def elementIds (c : Category) (f : ElementFilter) : SessionM (List String) := do
  let t ← storedTable c
  if f.isEmpty then return t.idsWhere fun _ _ => true
  else
    let accepted := f.acceptedLevels (← storedTable .voltageLevel) (← storedTable .substation)
    return t.idsWhere fun key position =>
      if c = .voltageLevel then accepted.contains key.id else t.isAtLevel accepted position

end Session

end PowerTables
