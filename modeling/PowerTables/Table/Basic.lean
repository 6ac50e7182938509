import PowerTables.Table.Cell
import PowerTables.Table.RowKey

/-!
# Tables

A table has named and typed columns over one list of row keys.  The operations of this module
keep every column as long as that list and the names apart; a table that was read from a text
need not have either property, and every operation says what it does then.

## Main definitions

* `Column` : a named list of values of one type.
* `Table` : row keys and columns.
* `Table.insertColumn`, `Table.removeColumn`, `Table.setCell`, `Table.pushRow` : changes.
* `Table.column?`, `Table.cell?`, `Table.valuesAs?` : views.
* `TableError` : why a table refuses an operation.
-/

namespace PowerTables

/-- Why a table refuses an operation. -/
inductive TableError
  | duplicateColumn (name : String)
  | columnLength (name : String) (values rows : Nat)
  | positionOutside (position length : Nat)
  | storeType (given column : CellType)
  | unknownRow (key : RowKey)
  | unknownColumn (name : String)
  | duplicateRow (key : RowKey)
  | rowLength (key : RowKey) (cells columns : Nat)
  | rowType (key : RowKey) (column : String) (expected given : CellType)
  | joinSource (name : String)
  | invalidValue (raw : String) (type : CellType)
  /-- A row that an operation has to copy lies past the end of a column. -/
  | shortColumn (name : String)
  deriving DecidableEq, Repr

namespace TableError

/-- The error in words. -/
def message : TableError → String
  | duplicateColumn name => s!"duplicate column '{name}'"
  | columnLength name values rows =>
    s!"column '{name}' has {values} values but the table has {rows} rows"
  | positionOutside position length =>
    s!"row position {position} out of bounds for column of length {length}"
  | storeType given column =>
    s!"cannot store a {given.name} value in a {column.name} column"
  | unknownRow key => s!"row '{key.text}' not found"
  | unknownColumn name => s!"column '{name}' not found"
  | duplicateRow key => s!"duplicate row '{key.text}'"
  | rowLength key cells columns =>
    s!"row '{key.text}' has {cells} cells but the table has {columns} columns"
  | rowType key column expected given =>
    s!"row '{key.text}': column '{column}' expects {expected.name} but got {given.name}"
  | joinSource name => s!"join source has no column '{name}'"
  | invalidValue raw type => s!"'{raw}' is not a valid {type.name} value"
  | shortColumn name => s!"column '{name}' is shorter than the table"

end TableError

/-- A named column with values of one type. -/
structure Column where
  name : String
  type : CellType
  values : List type.Value

namespace Column

/-- The number of values. -/
def length (c : Column) : Nat := c.values.length

/-- The cell at a position. -/
def cell? (c : Column) (position : Nat) : Option Cell :=
  (c.values[position]?).map (Cell.mk c.type)

/-- The values, if they have the given type. -/
def valuesAs? (c : Column) (type : CellType) : Option (List type.Value) :=
  if h : c.type = type then some (h ▸ c.values) else none

/-- Replaces the cell at a position by one of the same type. -/
def setCell (c : Column) (position : Nat) (cell : Cell) : Except TableError Column :=
  if c.length ≤ position then .error (.positionOutside position c.length)
  else match cell.as? c.type with
    | some value => .ok { c with values := c.values.set position value }
    | none => .error (.storeType cell.type c.type)

/-- Appends a cell; one of another type is left out. -/
def append (c : Column) (cell : Cell) : Column :=
  match cell.as? c.type with
  | some value => { c with values := c.values ++ [value] }
  | none => c

/-- The values at some positions, with a missing value for each `none`; refused when a position
lies past the end. -/
def gather? (c : Column) (positions : List (Option Nat)) : Option Column :=
  let value? (position : Option Nat) : Option c.type.Value :=
    match position with
    | none => some c.type.missing
    | some position => c.values[position]?
  (positions.mapM value?).map fun values => { c with values := values }

/-- A column without values. -/
def empty (name : String) (type : CellType) : Column := ⟨name, type, []⟩

/-- A column of missing values. -/
def missing (name : String) (type : CellType) (length : Nat) : Column :=
  ⟨name, type, List.replicate length type.missing⟩

end Column

/-- Row keys with named columns. -/
structure Table where
  index : List RowKey
  columns : List Column

namespace Table

/-- The table of some rows without columns. -/
def ofIndex (index : List RowKey) : Table := ⟨index, []⟩

/-- The number of rows. -/
def size (t : Table) : Nat := t.index.length

/-- The names of the columns, in order. -/
def columnNames (t : Table) : List String := t.columns.map (·.name)

/-- The first column of a name. -/
def column? (t : Table) (name : String) : Option Column := t.columns.find? (·.name == name)

/-- Whether there is a column of a name. -/
def hasColumn (t : Table) (name : String) : Bool := t.columns.any (·.name == name)

/-- The values of a column, if it has the given type. -/
def valuesAs? (t : Table) (name : String) (type : CellType) : Option (List type.Value) :=
  (t.column? name).bind (·.valuesAs? type)

/-- The values of a column of doubles. -/
def doubles? (t : Table) (name : String) : Option (List Float) := t.valuesAs? name .double

/-- The values of a column of texts. -/
def strings? (t : Table) (name : String) : Option (List String) := t.valuesAs? name .string

/-- The position of the first row with a key. -/
def position? (t : Table) (key : RowKey) : Option Nat := t.index.findIdx? (· == key)

/-- The cell of a row in a column. -/
def cell? (t : Table) (key : RowKey) (name : String) : Option Cell :=
  (t.position? key).bind fun position => (t.column? name).bind (·.cell? position)

/-- The double of an element in a column. -/
def double? (t : Table) (id name : String) : Option Float :=
  (t.cell? (.plain id) name).bind (·.as? .double)

/-- Applies a change to the first column of a name. -/
def mapColumn (t : Table) (name : String) (f : Column → Column) : Table :=
  { t with columns := go t.columns }
where
  /-- Applies the change to the first column that has the name. -/
  go : List Column → List Column
    | [] => []
    | c :: cs => if c.name = name then f c :: cs else c :: go cs

/-- Appends a column; a second one of the same name and one of another length are refused. -/
def insertColumn (t : Table) (c : Column) : Except TableError Table :=
  if t.hasColumn c.name then .error (.duplicateColumn c.name)
  else if c.length ≠ t.size then .error (.columnLength c.name c.length t.size)
  else .ok { t with columns := t.columns ++ [c] }

/-- The table of some rows with the given columns; the first column that does not fit is
refused. -/
def ofColumns (index : List RowKey) (columns : List Column) : Except TableError Table :=
  columns.foldlM insertColumn (ofIndex index)

/-- Takes the first column of a name out. -/
def removeColumn (t : Table) (name : String) : Table :=
  { t with columns := t.columns.eraseP (·.name == name) }

/-- Applies a function to the values of a column of doubles, if there is one of that name. -/
def mapDoubles? (t : Table) (name : String) (f : Float → Float) : Option Table :=
  (t.doubles? name).map fun values => t.mapColumn name fun _ => ⟨name, .double, values.map f⟩

/-- Replaces the cell at a position of a column. -/
def setAt (t : Table) (name : String) (position : Nat) (cell : Cell) : Except TableError Table :=
  match t.column? name with
  | none => .error (.unknownColumn name)
  | some c => (c.setCell position cell).map fun c => t.mapColumn name fun _ => c

/-- Replaces the cell of a row in a column. -/
def setCell (t : Table) (key : RowKey) (name : String) (cell : Cell) : Except TableError Table :=
  match t.position? key with
  | none => .error (.unknownRow key)
  | some position => t.setAt name position cell

/-- Appends a row with one cell for each column, in order. -/
def pushRow (t : Table) (key : RowKey) (cells : List Cell) : Except TableError Table :=
  if (t.position? key).isSome then .error (.duplicateRow key)
  else if cells.length ≠ t.columns.length then
    .error (.rowLength key cells.length t.columns.length)
  else match (t.columns.zip cells).find? fun (c, cell) => c.type ≠ cell.type with
    | some (c, cell) => .error (.rowType key c.name c.type cell.type)
    | none => .ok ⟨t.index ++ [key], t.columns.zipWith Column.append cells⟩

end Table

end PowerTables
