import PowerTables.Calendar.Instant
import PowerTables.Network.Error
import PowerTables.Schema

/-!
# Networks

A network is a list of named variants in the order of their creation.  Each variant has one
table for each category, and the working variant is the one that is read and changed.

## Main definitions

* `Metadata` : what describes a network as a whole.
* `Tables` : one table for each category.
* `Network` : metadata, variants and the name of the working variant.
* `Network.tables?`, `Network.changeTables` : a look at the working variant, and a change of it.
-/

namespace PowerTables

/-- What describes a network as a whole. -/
structure Metadata where
  id : String
  name : String
  sourceFormat : String
  caseDate : Instant
  /-- The minutes from the case date to the time that is forecast. -/
  forecastDistance : Int64

/-- One table for each category. -/
abbrev Tables := Category → Table

namespace Tables

/-- The tables without rows. -/
def empty : Tables := Category.emptyTable

/-- The same tables with another one for one category. -/
def set (ts : Tables) (c : Category) (t : Table) : Tables := fun d => if d = c then t else ts d

@[simp] theorem set_self (ts : Tables) (c : Category) (t : Table) : ts.set c t c = t := by
  simp [set]

theorem set_of_ne (ts : Tables) {c d : Category} (t : Table) (h : d ≠ c) :
    ts.set c t d = ts d := by
  simp [set, h]

end Tables

/-- A named state of the tables. -/
structure Variant where
  id : String
  tables : Tables

/-- A network with its variants. -/
structure Network where
  metadata : Metadata
  /-- The id of the working variant. -/
  working : String
  variants : List Variant

namespace Network

/-- The id of the variant every network starts with. -/
def initialVariant : String := "InitialState"

/-- A network without elements. -/
def new (metadata : Metadata) : Network :=
  ⟨metadata, initialVariant, [⟨initialVariant, .empty⟩]⟩

/-- The metadata of a network that is known by its id only. -/
def plainMetadata (id : String) (caseDate : Instant) : Metadata := ⟨id, id, "", caseDate, 0⟩

/-- The ids of the variants. -/
def variantIds (n : Network) : List String := n.variants.map (·.id)

/-- The first variant of an id. -/
def variant? (n : Network) (id : String) : Option Variant := n.variants.find? (·.id == id)

/-- Whether there is a variant of an id. -/
def hasVariant (n : Network) (id : String) : Bool := n.variants.any (·.id == id)

/-- The tables of the working variant. -/
def tables? (n : Network) : Option Tables := (n.variant? n.working).map (·.tables)

/-- The tables of the working variant, or the refusal when there is no such variant. -/
def tables (n : Network) : Except NetworkError Tables :=
  match n.tables? with
  | some ts => .ok ts
  | none => .error (.unknownVariant n.working)

/-- Puts other tables into the first variant of an id. -/
def setTables (n : Network) (id : String) (ts : Tables) : Network :=
  { n with
    variants := n.variants.modify (n.variants.findIdx (·.id == id)) fun v =>
      { v with tables := ts } }

/-- Changes the tables of the working variant, and gives what the change gives. -/
def changeTables {α : Type} (n : Network) (change : Tables → Except NetworkError (α × Tables)) :
    Except NetworkError (α × Network) := do
  let (result, ts) ← change (← n.tables)
  return (result, n.setTables n.working ts)

/-- Changes the tables of the working variant. -/
def updateTables (n : Network) (change : Tables → Except NetworkError Tables) :
    Except NetworkError Network := do
  return n.setTables n.working (← change (← n.tables))

end Network

end PowerTables
