import PowerTables.Table.Basic

/-!
# Choosing and joining

New tables out of old ones: some of the columns, some of the rows, and the columns of another
table brought in by row key.

## Main definitions

* `Table.select` : some of the columns, in a given order.
* `Table.filterRows` : the rows whose key satisfies a condition.
* `Table.join` : columns of another table, matched on row key.
-/

namespace PowerTables.Table

/-- The table with the same rows and only the named columns, in the order of the names. -/
def select (t : Table) (names : List String) : Except TableError Table :=
  names.foldlM (fun selected name =>
    match t.column? name with
    | none => .error (.unknownColumn name)
    | some c => selected.insertColumn c) (ofIndex t.index)

/-- Copies rows of a column by position; a position past its end is refused. -/
def gatherColumn (positions : List (Option Nat)) (c : Column) : Except TableError Column :=
  match c.gather? positions with
  | some c => .ok c
  | none => .error (.shortColumn c.name)

/-- The positions of the rows whose key satisfies a condition. -/
def positionsWhere (index : List RowKey) (keep : RowKey → Bool) : List Nat :=
  (index.zipIdx.filter fun (key, _) => keep key).map (·.2)

/-- The table of the rows whose key satisfies a condition. -/
def filterRows (t : Table) (keep : RowKey → Bool) : Except TableError Table := do
  let positions := (positionsWhere t.index keep).map some
  let columns ← t.columns.mapM (gatherColumn positions)
  return ⟨t.index.filter keep, columns⟩

/-- The position of the last row with a key. -/
def lastPosition? (index : List RowKey) (key : RowKey) : Option Nat :=
  (index.zipIdx.reverse.find? fun (k, _) => k == key).map (·.2)

/-- What a join did: the table so far, the columns it added, and why it stopped early if it
did. -/
structure Joined where
  table : Table
  added : List String := []
  failure : Option TableError := none

/-- Adds one column of another table, unless the table has a column of that name. -/
def Joined.addColumn (source : Table) (positions : List (Option Nat)) (joined : Joined)
    (name : String) : Joined :=
  if joined.failure.isSome || joined.table.hasColumn name then joined
  else match source.column? name with
    | none => { joined with failure := some (.joinSource name) }
    | some c =>
      match gatherColumn positions c with
      | .error e => { joined with failure := some e }
      | .ok c =>
        { joined with
          table := { joined.table with
            columns := joined.table.columns ++ [⟨name, c.type, c.values⟩] }
          added := joined.added ++ [name] }

/-- Brings the named columns of another table in, matched on row key; of several rows with one
key the last counts.  Columns that are there already stay, and a row without partner gets
missing values.  A name the other table does not have ends the join. -/
def join (t source : Table) (names : List String) : Joined :=
  names.foldl (Joined.addColumn source (t.index.map (lastPosition? source.index))) ⟨t, [], none⟩

end PowerTables.Table
