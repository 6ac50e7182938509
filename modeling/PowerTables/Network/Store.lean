import PowerTables.Network.Edit
import PowerTables.Network.Snapshot
import PowerTables.Network.Variants

/-!
# The store of networks

A store holds networks under handles, which are numbered in the order in which the networks
came in and never given out again.  An operation on a store runs in `StoreM`; it says what is
refused and leaves the store in a state in either case.

What a store answers about its columns can be made to differ from what it holds: it may report
another type for a column name, and keep columns out of the tables it shows.

## Main definitions

* `Store`, `StoreM` : stores and operations on them.
* `Store.create`, `Store.load`, `Store.release` : networks come and go.
* `Store.table`, `Store.typeCode` : what a store shows.
* `Store.addElement`, `Store.write`, `Store.setSwitch`, `Store.setConnected` : changes.
* `Store.cloneVariant`, `Store.selectVariant`, `Store.removeVariant` : variants.
-/

namespace PowerTables

/-- What a store answers differently from what it holds. -/
structure Reporting where
  /-- The type code that is reported for a column name, in every category. -/
  typeCode : Option (String × Int32) := none
  /-- The columns that are kept out of the tables that are shown. -/
  hidden : List (Category × String) := []

namespace Reporting

/-- A table without the columns that are kept out of a category. -/
def visible (r : Reporting) (c : Category) (t : Table) : Table :=
  r.hidden.foldl (fun t entry => if entry.1 = c then t.removeColumn entry.2 else t) t

/-- The type code that is reported for a column. -/
def typeCode? (r : Reporting) (c : Category) (column : String) : Option Int32 :=
  match r.typeCode.filter (·.1 == column) with
  | some (_, code) => some code
  | none => (c.column? column).map (·.type.code)

end Reporting

/-- Networks under handles. -/
structure Store where
  networks : List (Nat × Network) := []
  /-- The next handle to be given out. -/
  next : Nat := 1
  reporting : Reporting := {}

/-- An operation on a store. -/
abbrev StoreM := EStateM NetworkError Store

namespace Store

/-- The name by which a store is known. -/
def name : String := "memory"

/-- The network of a handle. -/
def network? (s : Store) (handle : Nat) : Option Network :=
  (s.networks.find? (·.1 == handle)).map (·.2)

/-- Puts a network in the place of the one of a handle. -/
def setNetwork (s : Store) (handle : Nat) (n : Network) : Store :=
  { s with networks := s.networks.map fun entry =>
      if entry.1 = handle then (handle, n) else entry }

/-- Takes a network in under the next handle. -/
def insertNetwork (s : Store) (n : Network) : Store :=
  { s with networks := s.networks ++ [(s.next, n)], next := s.next + 1 }

/-- Takes the network of a handle out. -/
def eraseNetwork (s : Store) (handle : Nat) : Store :=
  { s with networks := s.networks.filter fun entry => entry.1 != handle }

/-- The number of networks. -/
def size (s : Store) : Nat := s.networks.length

/-- The outcome of a computation that does not touch the store. -/
def ofResult {α : Type} : Except NetworkError α → StoreM α
  | .ok a => pure a
  | .error e => throw e

/-- The network of a handle, or the refusal of an unknown handle. -/
def get (handle : Nat) : StoreM Network := do
  match (← MonadState.get).network? handle with
  | some n => return n
  | none => throw (.unknownHandle handle)

/-- Changes the network of a handle, and gives what the change gives. -/
def change {α : Type} (handle : Nat) (f : Network → Except NetworkError (α × Network)) :
    StoreM α := do
  let (result, n) ← ofResult (f (← get handle))
  modify fun s => s.setNetwork handle n
  return result

/-- Changes the network of a handle by an operation without an answer. -/
def update (handle : Nat) (f : Network → Except NetworkError Network) : StoreM Unit :=
  change handle fun n => (f n).map fun n => ((), n)

/-! ### Networks come and go -/

/-- Takes a network in and gives its handle. -/
def insert (n : Network) : StoreM Nat := do
  let s ← MonadState.get
  set (s.insertNetwork n)
  return s.next

/-- Creates a network without elements, known by its id only. -/
def create (id : String) (now : Instant) : StoreM Nat :=
  insert (.new (Network.plainMetadata id now))

/-- Takes the network of a snapshot in. -/
def load (text : String) : StoreM Nat := do
  match Network.ofSnapshot text with
  | .ok n => insert n
  | .error e => throw (.snapshot e)

/-- The snapshot of a network. -/
def dump (handle : Nat) : StoreM String := return (← get handle).snapshot

/-- Lets a network go. -/
def release (handle : Nat) : StoreM Unit := do
  let _ ← get handle
  modify fun s => s.eraseNetwork handle

/-! ### Metadata and tables -/

/-- The metadata of a network. -/
def metadata (handle : Nat) : StoreM Metadata := return (← get handle).metadata

/-- Replaces the metadata of a network. -/
def setMetadata (handle : Nat) (m : Metadata) : StoreM Unit :=
  update handle fun n => .ok { n with metadata := m }

/-- The table of a category in the working variant. -/
def table (handle : Nat) (c : Category) : StoreM Table := do
  let ts ← ofResult (← get handle).tables
  return (← MonadState.get).reporting.visible c (ts c)

/-- The type code of a column. -/
def typeCode (c : Category) (column : String) : StoreM Int32 := do
  match (← MonadState.get).reporting.typeCode? c column with
  | some code => return code
  | none => throw (.unknownColumn c column)

/-! ### Changes -/

/-- Appends an element to the working variant. -/
def addElement (handle : Nat) (c : Category) (key : RowKey) (entries : List Entry) :
    StoreM Unit := do
  let cells ← ofResult (c.newRow key entries)
  update handle fun n => n.updateTables fun ts => ts.push c key cells

/-- Writes values into a column of the working variant, each to the row of a key. -/
def write (handle : Nat) (c : Category) (column : String) (keys : List RowKey) (batch : Batch) :
    StoreM Unit := do
  let cells ← ofResult (c.cellsFor column keys batch)
  update handle fun n => n.updateTables fun ts => ts.write c column keys cells

/-- Opens or closes a switch; the flag tells whether it moved. -/
def setSwitch (handle : Nat) (id : String) (isOpen : Bool) : StoreM Bool :=
  change handle fun n => n.changeTables fun ts => ts.setSwitch id isOpen

/-- Connects or disconnects an element; the flag tells whether anything changed. -/
def setConnected (handle : Nat) (id : String) (connected : Bool) : StoreM Bool :=
  change handle fun n => n.changeTables fun ts => ts.setConnected id connected

/-! ### Variants -/

/-- The ids of the variants, in order. -/
def variantIds (handle : Nat) : StoreM (List String) := return (← get handle).variantIds

/-- The id of the working variant. -/
def workingVariant (handle : Nat) : StoreM String := return (← get handle).working

/-- Copies a variant. -/
def cloneVariant (handle : Nat) (source target : String) (mayOverwrite : Bool) : StoreM Unit :=
  update handle fun n => n.cloneVariant source target mayOverwrite

/-- Makes a variant the working one. -/
def selectVariant (handle : Nat) (id : String) : StoreM Unit :=
  update handle fun n => n.selectVariant id

/-- Drops a variant. -/
def removeVariant (handle : Nat) (id : String) : StoreM Unit :=
  update handle fun n => n.removeVariant id

end Store

end PowerTables
