import PowerTables.Json.Decode
import PowerTables.Json.Writer
import PowerTables.Schema

/-!
# Tables in JSON

How keys, cells, columns and tables are written as JSON values, and how they are read back.  A
table that is read need not have columns of the length of its index, nor distinct names.

## Main definitions

* `RowKey.toJson`, `RowKey.ofJson?` : row keys.
* `Cell.toJson`, `Cell.ofJson?` : cells; the type follows from the form of the value.
* `Table.toJson`, `Table.ofJson?` : tables.
* `ColumnSpec.toJson`, `ColumnSpec.ofJson?`, `Category.ofJson?` : parts of a schema.
-/

namespace PowerTables

/-! ### Row keys -/

/-- A key as a record; a plain key has no number. -/
def RowKey.toJson (key : RowKey) : Json :=
  .record (("id", .ofText key.id) ::
    (key.number.map fun n => ("num", Json.ofInt n.toInt)).toList)

/-- Reads a key; a number that is absent or `null` is none. -/
def RowKey.ofJson? (j : Json) : Option RowKey := do
  match ← j.fields? ["id", "num"] with
  | [some id, some number] => return ⟨← id.text?, ← number.optional? Json.int64?⟩
  | [some id, none] => return ⟨← id.text?, none⟩
  | _ => none

/-! ### Cells -/

/-- A value of a type. -/
def CellType.valueToJson : (type : CellType) → type.Value → Json
  | .string, s => .ofText s
  | .double, x => .ofDouble x
  | .int, n => .ofInt n.toInt
  | .boolean, b => .bool b

/-- A cell as its bare value. -/
def Cell.toJson (cell : Cell) : Json := cell.type.valueToJson cell.value

/-- Reads a cell: a truth value, an integer of 64 bits, another number as a double, or a
text. -/
def Cell.ofJson? : Json → Option Cell
  | .bool b => some (.ofBool b)
  | .number n =>
    match n.int64? with
    | some i => some (.ofInt i)
    | none => n.double?.map .ofDouble
  | .string s => s.map .ofString
  | _ => none

/-- Reads a type by its name. -/
def CellType.ofJson? (j : Json) : Option CellType := j.choice?.bind CellType.ofName?

/-! ### Columns and tables -/

/-- Reads a value of a column; `null` is a missing double. -/
def CellType.valueOfJson? : (type : CellType) → Json → Option type.Value
  | .string, j => j.text?
  | .double, j => j.doubleOrMissing?
  | .int, j => j.int64?
  | .boolean, j => j.bool?

/-- The values of a column with their type. -/
def Column.dataToJson (c : Column) : Json :=
  .record [("type", .ofText c.type.name), ("values", .array (c.values.map c.type.valueToJson))]

/-- A column as a record. -/
def Column.toJson (c : Column) : Json :=
  .record [("name", .ofText c.name), ("data", c.dataToJson)]

/-- Reads the type in the data of a column.  In a list it is a bare name; in a record it may have
any form of a type. -/
def Column.typeOfJson? (data type : Json) : Option CellType :=
  match data with
  | .array _ => type.text?.bind CellType.ofName?
  | _ => CellType.ofJson? type

/-- Reads a column. -/
def Column.ofJson? (j : Json) : Option Column := do
  match ← j.fields? ["name", "data"] with
  | [some name, some data] =>
    let name ← name.text?
    match ← data.fields? ["type", "values"] with
    | [some type, some values] =>
      let type ← Column.typeOfJson? data type
      return ⟨name, type, ← values.items? type.valueOfJson?⟩
    | _ => none
  | _ => none

/-- A table as a record. -/
def Table.toJson (t : Table) : Json :=
  .record [("index", .array (t.index.map RowKey.toJson)),
    ("columns", .array (t.columns.map Column.toJson))]

/-- Reads a table as it is given: the lengths and names of its columns are not compared. -/
def Table.ofJson? (j : Json) : Option Table := do
  match ← j.fields? ["index", "columns"] with
  | [some index, some columns] =>
    return ⟨← index.items? RowKey.ofJson?, ← columns.items? Column.ofJson?⟩
  | _ => none

/-! ### Schemas -/

/-- The declaration of a column as a record. -/
def ColumnSpec.toJson (spec : ColumnSpec) : Json :=
  .record [("name", .ofText spec.name), ("series_type", .ofText spec.type.name),
    ("writable", .bool spec.writable)]

/-- Reads the declaration of a column. -/
def ColumnSpec.ofJson? (j : Json) : Option ColumnSpec := do
  match ← j.fields? ["name", "series_type", "writable"] with
  | [some name, some type, some writable] =>
    return ⟨← name.text?, ← CellType.ofJson? type, ← writable.bool?⟩
  | _ => none

/-- Reads a category by its exact name. -/
def Category.ofJson? (j : Json) : Option Category := j.choice?.bind Category.ofName?

end PowerTables
