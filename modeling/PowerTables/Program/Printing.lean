import PowerTables.PerUnit.Rules
import PowerTables.Network.Samples
import PowerTables.Table.Json
import PowerTables.Text.Columns

/-!
# Printed tables

The tables a run prints, with the columns aligned and a header line.

## Main definitions

* `Table.printed` : the rows of a table of elements.
* `Category.printedList`, `Category.printedColumns` : the categories, and the columns of one.
* `Sample.printedList` : the samples.
-/

namespace PowerTables

/-- The lines of a table of elements: the id, the number where rows are numbered, and the
cells. -/
def Table.printed (t : Table) (numbered : Bool) (places : Nat) : String :=
  let header := "ID" :: ((if numbered then ["NUM"] else []) ++ t.columnNames)
  let row (entry : RowKey × Nat) : List String :=
    let number := if numbered then [(entry.1.number.map fun n => toString n.toInt).getD ""] else []
    let cells := t.columns.map fun c => ((c.cell? entry.2).map (Cell.fixedText places)).getD ""
    entry.1.id :: (number ++ cells)
  Text.table (header :: t.index.zipIdx.map row)

namespace Category

/-- The categories, with the parts of their keys and the number of converted columns. -/
def printedList : String :=
  let row (c : Category) : List String :=
    [c.name, if c.hasNumberedRows then "id, num" else "id", toString c.rules.length]
  Text.table (["CATEGORY", "KEY", "CONVERTED COLUMNS"] :: all.map row)

/-- What the values of a converted column measure, and a hyphen for the other columns. -/
def dimensionText (c : Category) (column : String) : String :=
  match c.rules.find? (·.column == column) with
  | some rule => Text.lower rule.dimension.name
  | none => "-"

/-- The columns of a category. -/
def printedColumns (c : Category) : String :=
  let row (spec : ColumnSpec) : List String :=
    [spec.name, spec.type.name, if spec.writable then "yes" else "no", c.dimensionText spec.name]
  Text.table (["COLUMN", "TYPE", "WRITABLE", "PER-UNIT"] :: c.schema.map row)

end Category

namespace Sample

/-- The number of elements of a category in a network. -/
def countText (ts : Tables) (c : Category) : String := toString (ts c).size

/-- One sample, with the sizes of some of its tables. -/
def printedRow (s : Sample) (n : Network) (ts : Tables) : List String :=
  [s.name, n.metadata.id, n.metadata.caseDate.minuteText] ++
    [Category.substation, .generator, .load, .line].map (countText ts)

/-- The samples. -/
def printedList : Except NetworkError String := do
  let rows ← all.mapM fun s => do
    let n ← s.network
    return s.printedRow n (← n.tables)
  return Text.table
    (["NAME", "ID", "CASE DATE", "SUBSTATIONS", "GENERATORS", "LOADS", "LINES"] :: rows)

end Sample

end PowerTables
