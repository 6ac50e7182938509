import PowerTables.Calendar.Timestamp
import PowerTables.Json.Reader
import PowerTables.Network.Basic
import PowerTables.Table.Json

/-!
# Snapshots

A snapshot is a text that holds a whole network.  A snapshot that is read must have the version
that is written, its working variant among its variants, and in every table the columns of the
schema, all as long as the index.  Tables that are absent are empty.

## Main definitions

* `Metadata.toJson`, `Metadata.ofJson?` : the metadata of a network.
* `Network.snapshot` : the text of a network.
* `Network.ofSnapshot` : the network of a text.
* `Network.check` : what a network that was read has to satisfy.
-/

namespace PowerTables

/-! ### Metadata -/

/-- The metadata as a record. -/
def Metadata.toJson (m : Metadata) : Json :=
  .record [("id", .ofText m.id), ("name", .ofText m.name),
    ("source_format", .ofText m.sourceFormat), ("case_date", .ofText m.caseDate.text),
    ("forecast_distance", .ofInt m.forecastDistance.toInt)]

/-- Reads metadata. -/
def Metadata.ofJson? (j : Json) : Option Metadata := do
  match ← j.fields? ["id", "name", "source_format", "case_date", "forecast_distance"] with
  | [some id, some name, some sourceFormat, some caseDate, some forecastDistance] =>
    return ⟨← id.text?, ← name.text?, ← sourceFormat.text?,
      ← Instant.parse? (← caseDate.text?), ← forecastDistance.int64?⟩
  | _ => none

/-! ### Writing -/

/-- The tables as a record, in the order of the categories. -/
def Tables.toJson (ts : Tables) : Json :=
  .record (Category.all.map fun c => (c.name, (ts c).toJson))

/-- A variant as a record. -/
def Variant.toJson (v : Variant) : Json :=
  .record [("id", .ofText v.id), ("tables", v.tables.toJson)]

namespace Network

/-- The version of the snapshots that are written and read. -/
def snapshotVersion : Nat := 1

/-- A network as a record. -/
def toJson (n : Network) : Json :=
  .record [("format_version", .ofNat snapshotVersion), ("metadata", n.metadata.toJson),
    ("working_variant", .ofText n.working), ("variants", .array (n.variants.map Variant.toJson))]

/-- The text of a network. -/
def snapshot (n : Network) : String := n.toJson.pretty

end Network

/-! ### Reading -/

/-- Reads the table of a category. -/
def readTable? (field : Json.Text × Json) : Option (Category × Table) := do
  return (← Category.ofName? (← field.1), ← Table.ofJson? field.2)

/-- The tables given for some categories; of several for one category the last counts, and a
category without one has an empty table. -/
def Tables.ofList (entries : List (Category × Table)) : Tables := fun c =>
  match entries.reverse.find? (·.1 == c) with
  | some (_, t) => t
  | none => c.emptyTable

/-- Reads tables by the names of their categories. -/
def Tables.ofJson? : Json → Option Tables
  | .object fields => (fields.mapM readTable?).map Tables.ofList
  | _ => none

/-- Reads a variant. -/
def Variant.ofJson? (j : Json) : Option Variant := do
  match ← j.fields? ["id", "tables"] with
  | [some id, some tables] => return ⟨← id.text?, ← Tables.ofJson? tables⟩
  | _ => none

/-- Reads a version: a natural number of 32 bits. -/
def readVersion? (j : Json) : Option Nat :=
  j.int64?.bind fun v =>
    if 0 ≤ v.toInt ∧ v.toInt < UInt32.size then some v.toInt.toNat else none

namespace Network

/-- Reads a network, with the version of the snapshot. -/
def ofJson? (j : Json) : Option (Nat × Network) := do
  match ← j.fields? ["format_version", "metadata", "working_variant", "variants"] with
  | [some version, some metadata, some working, some variants] =>
    return (← readVersion? version,
      ⟨← Metadata.ofJson? metadata, ← working.text?, ← variants.items? Variant.ofJson?⟩)
  | _ => none

/-- Checks a table against the schema of its category: first names and types of its columns,
then their lengths. -/
def checkTable (v : Variant) (c : Category) : Except SnapshotError Unit :=
  let t := v.tables c
  if c.schema.map (fun spec => (spec.name, spec.type)) ≠
      t.columns.map (fun col => (col.name, col.type))
  then .error (.schema c v.id)
  else if t.columns.any (fun col => col.length != t.size) then .error (.columnLengths c v.id)
  else .ok ()

/-- Checks a network that was read: its version, its working variant, and then the tables of
every variant. -/
def check (version : Nat) (n : Network) : Except SnapshotError Unit := do
  if version ≠ snapshotVersion then throw (.version version)
  if !n.hasVariant n.working then throw (.workingVariant n.working)
  n.variants.forM fun v => Category.all.forM (checkTable v)

/-- The network of a snapshot. -/
def ofSnapshot (text : String) : Except SnapshotError Network :=
  match (Json.parse? text).bind ofJson? with
  | none => .error .malformed
  | some (version, n) => (check version n).map fun _ => n

end Network

end PowerTables
