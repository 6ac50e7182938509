import PowerTables.Session.Basic
import PowerTables.Table.Relational

/-!
# Reading and writing elements

A reading gives the table of a category, in per-unit when that is on.  A writing hands a table
over column by column, each in the way that suits its declared type.  In per-unit the values are
converted back first: columns that voltages are read from are brought in from the store and
taken out again, and rows of known elements whose voltage cannot be found are left out.

Columns are written in order and without going back: when one is refused, those before it have
been written.

## Main definitions

* `Column.batch` : the values of a column, as they are handed over.
* `Session.writeTable` : the columns of a table, one after another.
* `Session.elements` : a reading.
* `Session.toPhysical` : the table that is written for a table in per-unit.
* `Session.update` : a writing.
-/

namespace PowerTables

/-- A truth value as an integer. -/
def ofTruth (b : Bool) : Int64 := if b then 1 else 0

/-- The values of a column, as they are handed over to a store. -/
def Column.batch : Column → Batch
  | ⟨_, .string, values⟩ => .strings values
  | ⟨_, .double, values⟩ => .doubles values
  | ⟨_, .int, values⟩ => .ints values
  | ⟨_, .boolean, values⟩ => .ints (values.map ofTruth)

namespace Session

/-- The table of a category as the store has it. -/
def storedTable (c : Category) : SessionM Table := onNetwork fun h => Store.table h c

/-! ### Writing columns -/

/-- Writes one column, if its values have the declared type. -/
def writeColumn (c : Category) (keys : List RowKey) (column : Column) : SessionM Unit := do
  let code ← onStore (Store.typeCode c column.name)
  match CellType.ofCode? code with
  | none => throw (.unsupportedType c column.name code)
  | some declared =>
    if declared = column.type then
      onNetwork fun h => Store.write h c column.name keys column.batch
    else throw (.typeMismatch c column.name declared column.type)

/-- Writes the columns of a table in order. -/
def writeTable (c : Category) (t : Table) : SessionM Unit :=
  t.columns.forM (writeColumn c t.index)

/-! ### Conversion -/

/-- The nominal voltages that the rules of a category need; none are read without need. -/
def voltageLevels (c : Category) : SessionM VoltageLevels := do
  if c.needsVoltageLevels then return .ofTable (← storedTable .voltageLevel) else return {}

/-- A table converted with the settings of the session. -/
def converted (c : Category) (direction : Direction) (t : Table) :
    SessionM (Table × ConversionReport) := do
  let levels ← voltageLevels c
  ofTable (convert (← context) c levels direction t)

/-- Keeps what a conversion met. -/
def record (report : ConversionReport) : SessionM Unit :=
  modifySession fun s =>
    { s with
      missingBases := s.missingBases + report.missingBases
      diagnostics := report.diagnostics }

/-- Forgets the issues of the latest reading or writing. -/
def clearDiagnostics : SessionM Unit := modifySession fun s => { s with diagnostics := [] }

/-- The table of a category, in per-unit when that is on. -/
def elements (c : Category) : SessionM Table := do
  let stored ← storedTable c
  if (← context).enabled then
    let (t, report) ← converted c .toPerUnit stored
    record report
    return t
  else
    clearDiagnostics
    return stored

/-- A table with the columns brought in that its voltages are read from, and their names. -/
def withBaseColumns (c : Category) (t : Table) : SessionM (Table × List String) := do
  let needed := c.baseColumns t.columnNames
  if needed.isEmpty then return (t, [])
  else
    let joined := t.join (← storedTable c) needed
    match joined.failure with
    | some e => throw (.table e)
    | none => return (joined.table, joined.added)

/-- The table without the rows of known elements whose voltage was not found. -/
def withoutUnresolved (c : Category) (unresolved : List RowKey) (t : Table) :
    SessionM Table := do
  if unresolved.isEmpty then return t
  else
    let known := (← storedTable c).index
    let skipped := unresolved.filter known.contains
    ofTable (t.filterRows fun key => !skipped.contains key)

/-- The table in physical units that is written for a table in per-unit, with the report of its
conversion. -/
def toPhysical (c : Category) (t : Table) : SessionM (Table × ConversionReport) := do
  let (joined, added) ← withBaseColumns c t
  let (physical, report) ← converted c .fromPerUnit joined
  let physical ← withoutUnresolved c report.unresolved (added.foldl Table.removeColumn physical)
  return (physical, report)

/-- Writes the columns of a table to the elements named by its index. -/
def update (c : Category) (t : Table) : SessionM Unit := do
  if (← context).enabled then
    let (physical, report) ← toPhysical c t
    writeTable c physical
    record report
  else
    clearDiagnostics
    writeTable c t

end Session

end PowerTables
