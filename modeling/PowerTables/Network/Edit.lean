import PowerTables.Network.Basic

/-!
# Changes of element tables

Elements are appended one by one, with a value for some of their columns.  Existing cells are
written column by column: a batch of values of one type, with the keys of the rows they go to.
Switches are opened and closed, and elements connected and disconnected, by id.

## Main definitions

* `Entry` : a value for a column.
* `Category.newRow` : the cells of a new element, or why they are refused.
* `Batch` : the values of one write, with the three ways of handing them over.
* `Category.cellsFor` : the cells of a write, or why it is refused.
* `Tables.push`, `Tables.write`, `Tables.setSwitch`, `Tables.setConnected` : the changes.
-/

namespace PowerTables

/-- A value for a column. -/
structure Entry where
  column : String
  cell : Cell

namespace Category

/-! ### New elements -/

/-- Checks the value of a new element for one column. -/
def checkEntry (c : Category) (entry : Entry) : Except NetworkError Unit :=
  match c.column? entry.column with
  | none => .error (.unknownColumn c entry.column)
  | some spec =>
    if spec.type = entry.cell.type then .ok ()
    else .error (.cellType entry.column c spec.type entry.cell.type)

/-- The cell a column takes from some entries: the first one for it, or a missing value. -/
def cellFrom (entries : List Entry) (spec : ColumnSpec) : Cell :=
  match entries.find? (·.column == spec.name) with
  | some entry => entry.cell
  | none => ⟨spec.type, spec.type.missing⟩

/-- The cells of a new element, one for each column.  The key must have a number exactly where
the category asks for one, and every value must suit its column. -/
def newRow (c : Category) (key : RowKey) (entries : List Entry) :
    Except NetworkError (List Cell) := do
  if c.hasNumberedRows ≠ key.number.isSome then throw (.keyShape key c)
  entries.forM c.checkEntry
  return c.schema.map (cellFrom entries)

end Category

/-- Appends a row to the table of a category. -/
def Tables.push (ts : Tables) (c : Category) (key : RowKey) (cells : List Cell) :
    Except NetworkError Tables :=
  match (ts c).pushRow key cells with
  | .ok t => .ok (ts.set c t)
  | .error e => .error (.table e)

/-! ### Writing a column -/

/-- The values of one write.  Truth values are handed over as integers, of which zero is
false. -/
inductive Batch
  | strings (values : List String)
  | ints (values : List Int64)
  | doubles (values : List Float)

namespace Batch

/-- The name of the way the values are handed over. -/
def primitive : Batch → String
  | strings _ => "string"
  | ints _ => "integer"
  | doubles _ => "double"

/-- The number of values. -/
def size : Batch → Nat
  | strings values => values.length
  | ints values => values.length
  | doubles values => values.length

/-- The cells of the values in a column of a type, if that type can be written this way. -/
def cells? : Batch → CellType → Option (List Cell)
  | strings values, .string => some (values.map .ofString)
  | ints values, .int => some (values.map .ofInt)
  | ints values, .boolean => some (values.map fun n => .ofBool (n != 0))
  | doubles values, .double => some (values.map .ofDouble)
  | _, _ => none

end Batch

/-- The cells of a write.  The column must be known, of a type that the batch suits, and
writable, and there must be as many keys as values. -/
def Category.cellsFor (c : Category) (column : String) (keys : List RowKey) (batch : Batch) :
    Except NetworkError (List Cell) :=
  match c.column? column with
  | none => .error (.unknownColumn c column)
  | some spec =>
    match batch.cells? spec.type with
    | none => .error (.primitive column c spec.type batch.primitive)
    | some cells =>
      if !spec.writable then .error (.readOnlyColumn c column)
      else if keys.length ≠ batch.size then
        .error (.lengthMismatch column keys.length batch.size)
      else .ok cells

/-- Writes cells one after another, each to the row of a key. -/
def Table.setCells (t : Table) (column : String) (entries : List (RowKey × Cell)) :
    Except TableError Table :=
  entries.foldlM (fun t (key, cell) => t.setCell key column cell) t

/-- Writes cells into a column of a category, each to the row of a key.  All keys have to be
known before the first cell is written. -/
def Tables.write (ts : Tables) (c : Category) (column : String) (keys : List RowKey)
    (cells : List Cell) : Except NetworkError Tables :=
  let t := ts c
  match keys.find? fun key => (t.position? key).isNone with
  | some key => .error (.unknownElement c key.text)
  | none =>
    if !t.hasColumn column then .error (.unknownColumn c column)
    else match t.setCells column (keys.zip cells) with
      | .ok t => .ok (ts.set c t)
      | .error e => .error (.table e)

/-! ### Switches and connections -/

/-- The column that says whether a switch is open. -/
def openColumn : String := "open"

/-- Sets a truth value of a row; the flag tells whether it had another value. -/
def Table.setFlag (t : Table) (key : RowKey) (column : String) (value : Bool) :
    Except TableError (Bool × Table) :=
  if (t.cell? key column).bind (·.as? .boolean) = some value then .ok (false, t)
  else (t.setCell key column (.ofBool value)).map fun t => (true, t)

/-- Opens or closes a switch; the flag tells whether it was in the other position. -/
def Tables.setSwitch (ts : Tables) (id : String) (isOpen : Bool) :
    Except NetworkError (Bool × Tables) :=
  let t := ts .switch
  let key := RowKey.plain id
  if (t.cell? key openColumn).isNone then .error (.unknownElement .switch id)
  else match t.setFlag key openColumn isOpen with
    | .ok (changed, t) => .ok (changed, ts.set .switch t)
    | .error e => .error (.table e)

/-- The first category with connections that has an element of an id. -/
def Tables.connectableCategory? (ts : Tables) (id : String) : Option Category :=
  Category.all.find? fun c =>
    !c.connectionColumns.isEmpty && ((ts c).position? (.plain id)).isSome

/-- Sets several truth values of a row; the flag tells whether any of them had another value. -/
def Table.setFlags (t : Table) (key : RowKey) (columns : List String) (value : Bool) :
    Except TableError (Bool × Table) :=
  columns.foldlM (fun (changed, t) column =>
    (t.setFlag key column value).map fun (changedHere, t) => (changed || changedHere, t))
    (false, t)

/-- Connects or disconnects an element at all its ends; the flag tells whether any of them
changed. -/
def Tables.setConnected (ts : Tables) (id : String) (connected : Bool) :
    Except NetworkError (Bool × Tables) :=
  match ts.connectableCategory? id with
  | none => .error (.unknownConnectable id)
  | some c =>
    match (ts c).setFlags (.plain id) c.connectionColumns connected with
    | .ok (changed, t) => .ok (changed, ts.set c t)
    | .error e => .error (.table e)

end PowerTables
