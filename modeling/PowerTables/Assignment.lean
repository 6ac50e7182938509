import PowerTables.Schema
import PowerTables.Table.Cell

/-!
# Assignments

A change can be typed as `ID.COLUMN=VALUE`, or `ID[NUMBER].COLUMN=VALUE` for a numbered row.
The target ends at the first equals sign, the column starts after the last point of the target,
and the value is everything after the equals sign.

Many assignments make one table for each column, with the rows that are assigned in it.

## Main definitions

* `Assignment`, `Assignment.parse` : one assignment and its reading.
* `AssignmentError` : what can be wrong with assignments.
* `updateTables` : the tables of many assignments.
-/

namespace PowerTables

/-- A value for the cell of a row in a column, as it was typed. -/
structure Assignment where
  key : RowKey
  column : String
  raw : String
  deriving DecidableEq, Repr

/-- What can be wrong with assignments. -/
inductive AssignmentError
  | malformed (input : String)
  | rowNumber (number key : String)
  | unknownColumn (category : Category) (column : String)
  | repeated (key : RowKey) (column : String)
  | value (cause : TableError)
  deriving DecidableEq, Repr

/-- The error in words. -/
def AssignmentError.message : AssignmentError → String
  | malformed input => s!"expected ID.COLUMN=VALUE, got '{input}'"
  | rowNumber number key => s!"'{number}' is not a valid sequence number in '{key}'"
  | unknownColumn category column => s!"{category.name} has no column '{column}'"
  | repeated key column => s!"{key.text}.{column} is assigned more than once"
  | value cause => s!"table error: {cause.message}"

/-- The parts of a key that ends in a bracket: what stands before and after the last opening
one. -/
def splitBracket? (key : List Char) : Option (List Char × List Char) :=
  if key.getLast? = some ']' then Text.splitLast? '[' key.dropLast else none

/-- Reads a row key as it is typed: `ID` or `ID[NUMBER]`. -/
def RowKey.parse (key : List Char) : Except AssignmentError RowKey :=
  match splitBracket? key with
  | none => .ok (.plain (String.ofList key))
  | some (id, digits) =>
    let number := String.ofList digits
    match readInt64? number with
    | some n => .ok (.numbered (String.ofList id) n)
    | none => .error (.rowNumber number (String.ofList key))

/-- Reads an assignment. -/
def Assignment.parse (input : String) : Except AssignmentError Assignment :=
  match Text.splitFirst? '=' input.toList with
  | none => .error (.malformed input)
  | some (target, raw) =>
    match Text.splitLast? '.' (Text.trimChars target) with
    | none => .error (.malformed input)
    | some (key, column) =>
      if key.isEmpty || column.isEmpty then .error (.malformed input)
      else (RowKey.parse key).map fun key => ⟨key, String.ofList column, String.ofList raw⟩

/-- Adds the value of one assignment to those of its column; every key is assigned once. -/
def addValue (spec : ColumnSpec) (entries : List (RowKey × spec.type.Value)) (a : Assignment) :
    Except AssignmentError (List (RowKey × spec.type.Value)) :=
  if entries.any (·.1 == a.key) then .error (.repeated a.key spec.name)
  else
    let raw := Text.trim a.raw
    match Cell.readValue? spec.type raw with
    | some value => .ok (entries ++ [(a.key, value)])
    | none => .error (.value (.invalidValue raw spec.type))

/-- The table of one column with the values of some rows.  The column comes in with missing values,
and each value is put into the row of its key after that. -/
def filledTable (spec : ColumnSpec) (entries : List (RowKey × spec.type.Value)) :
    Except TableError Table := do
  let t ← (Table.ofIndex (entries.map (·.1))).insertColumn
    (.missing spec.name spec.type entries.length)
  entries.foldlM (fun t (key, value) => t.setCell key spec.name ⟨spec.type, value⟩) t

/-- The table of the assignments of one column. -/
def columnTable (c : Category) (schema : List ColumnSpec) (assignments : List Assignment)
    (column : String) : Except AssignmentError Table :=
  match schema.find? (·.name == column) with
  | none => .error (.unknownColumn c column)
  | some spec => do
    let entries ← (assignments.filter (·.column == column)).foldlM (addValue spec) []
    (filledTable spec entries).mapError .value

/-- One table for each assigned column, in the order in which the columns first occur. -/
def updateTables (c : Category) (schema : List ColumnSpec) (assignments : List Assignment) :
    Except AssignmentError (List Table) :=
  (assignments.map (·.column)).eraseDups.mapM (columnTable c schema assignments)

end PowerTables
