/-!
# TOML documents

A document is a tree of tables.  A table is made by a header, by being on the way to another
table, or by a key with points; how it was made decides what may be added to it later.  A value
after an equals sign, an inline table included, is closed.

## Main definitions

* `Toml` : a value or a table.
* `Toml.TableKind` : how a table was made.
* `Toml.descend?` : a change of the table at the end of a path.
* `Toml.insert?` : a value put at a key with points.
* `Toml.Document` : a document that is being read, with its headers.
-/

namespace PowerTables

namespace Toml

/-- How a table was made. -/
inductive TableKind
  /-- By a header of its own. -/
  | header
  /-- On the way to the table of a header. -/
  | implied
  /-- By a key with points. -/
  | dotted
  deriving DecidableEq, Repr

end Toml

/-- A value or a table.  Of a date or a time only the fact is kept. -/
inductive Toml
  | string (value : String)
  | integer (value : Int)
  | float (value : Float)
  | boolean (value : Bool)
  | moment
  | array (items : List Toml)
  | inline (entries : List (String × Toml))
  | table (kind : Toml.TableKind) (entries : List (String × Toml))
  | tables (items : List (List (String × Toml)))

namespace Toml

/-- The entries of a table. -/
abbrev Entries := List (String × Toml)

/-- The value of a key. -/
def lookup? (entries : Entries) (key : String) : Option Toml :=
  (entries.find? (·.1 == key)).map (·.2)

/-- Puts another value in the place of the one of a key. -/
def replace (entries : Entries) (key : String) (value : Toml) : Entries :=
  entries.map fun entry => if entry.1 = key then (key, value) else entry

/-- Changes the table at the end of a path, which starts from a table of some kind.  Tables
that are not there are made.  A key with points does not reach into a table that has a header;
a path leads into the last one of several tables of one name. -/
def descend? (dotted : Bool) (change : TableKind → Entries → Option Entries) :
    List String → TableKind → Entries → Option Entries
  | [], kind, entries => change kind entries
  | key :: path, _, entries =>
    match lookup? entries key with
    | none =>
      let kind := if dotted then .dotted else .implied
      (descend? dotted change path kind []).map fun inner =>
        entries ++ [(key, .table kind inner)]
    | some (.table kind inner) =>
      if dotted && kind == .header then none
      else (descend? dotted change path kind inner).map fun inner =>
        replace entries key (.table kind inner)
    | some (.tables items) =>
      (items.getLast?.bind (descend? dotted change path .header)).map fun last =>
        replace entries key (.tables (items.dropLast ++ [last]))
    | some _ => none

/-- Puts a value under a new key. -/
def insertNew? (key : String) (value : Toml) (entries : Entries) : Option Entries :=
  if (lookup? entries key).isSome then none else some (entries ++ [(key, value)])

/-- Puts a value at a key with points.  The table that takes it must have been made by such a
key, unless there are no points. -/
def insert? (path : List String) (key : String) (value : Toml) (entries : Entries) :
    Option Entries :=
  descend? true (fun kind entries =>
    if (kind == .dotted) == path.isEmpty then none else insertNew? key value entries)
    path .header entries

/-! ### Headers -/

/-- What a header opens. -/
inductive Heading
  | table
  | tables
  deriving DecidableEq, Repr

/-- A document that is being read: all but the table of the latest header, that table, and
where it goes. -/
structure Document where
  root : Entries := []
  current : Entries := []
  /-- The latest header; there is none at the start. -/
  heading : Option (Heading × List String × String) := none

namespace Document

/-- Puts a table at the end of the tables of one name. -/
def append? (key : String) (table : Entries) (entries : Entries) : Option Entries :=
  match lookup? entries key with
  | some (.tables items) => some (replace entries key (.tables (items ++ [table])))
  | none => some (entries ++ [(key, .tables [table])])
  | some _ => none

/-- The entries of the document when the table of the latest header is put where it goes. -/
def finish? (d : Document) : Option Entries :=
  match d.heading with
  | none => some d.current
  | some (.table, path, key) =>
    descend? false (fun _ => insertNew? key (.table .header d.current)) path .header d.root
  | some (.tables, path, key) =>
    descend? false (fun _ => append? key d.current) path .header d.root

/-- The table at a path, which may be made for it, and what is at a key in it. -/
def inside? (path : List String) (key : String) (root : Entries) : Option (Option Toml) :=
  match path with
  | [] => some (lookup? root key)
  | step :: path =>
    match lookup? root step with
    | none => some none
    | some (.table _ inner) => inside? path key inner
    | some (.tables items) => items.getLast?.bind (inside? path key)
    | some _ => none

/-- Opens the table of a header.  A table that was only implied so far keeps its entries; any
other one of that name is refused. -/
def openTable? (d : Document) (path : List String) (key : String) : Option Document := do
  let root ← d.finish?
  match ← inside? path key root with
  | none => return ⟨root, [], some (.table, path, key)⟩
  | some (.table .implied entries) =>
    let root ← descend? false (fun _ entries => some (entries.filter (·.1 != key))) path .header
      root
    return ⟨root, entries, some (.table, path, key)⟩
  | some _ => none

/-- Opens one more of the tables of a header. -/
def openTables? (d : Document) (path : List String) (key : String) : Option Document := do
  let root ← d.finish?
  match ← inside? path key root with
  | none => return ⟨root, [], some (.tables, path, key)⟩
  | some (.tables _) => return ⟨root, [], some (.tables, path, key)⟩
  | some _ => none

/-- Puts a value into the table of the latest header. -/
def insert? (d : Document) (path : List String) (key : String) (value : Toml) :
    Option Document :=
  (Toml.insert? path key value d.current).map fun entries => { d with current := entries }

end Document

end Toml

end PowerTables
