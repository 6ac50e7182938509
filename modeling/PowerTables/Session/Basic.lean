import PowerTables.Network.Store
import PowerTables.PerUnit.Conversion

/-!
# Sessions

A session looks at one network of a store as tables.  It has its own per-unit settings, counts
the cells that were missing for want of a voltage, and keeps the issues of the latest reading or
writing.

An operation runs in `SessionM`, on the session and its store together; when it fails, what was
done before stays done.

## Main definitions

* `SessionError` : why an operation of a session fails.
* `Session`, `SessionState`, `SessionM` : sessions and operations on them.
* `Session.onStore` : an operation of the store as one of the session.
* `Session.open`, `Session.close` : the start and the end of a session.
-/

namespace PowerTables

/-- Why an operation of a session fails. -/
inductive SessionError
  | powerBase (value : Float)
  | unsupportedType (category : Category) (column : String) (code : Int32)
  | typeMismatch (category : Category) (column : String) (declared given : CellType)
  | unknownVariant (id : String)
  | variantExists (id : String)
  | variantInUse (id : String)
  | table (cause : TableError)
  | network (cause : NetworkError)

/-- The error in words.  An error of the store keeps its own words. -/
def SessionError.message : SessionError → String
  | powerBase value =>
    s!"invalid power base {Double.text Double.plain value}: must be strictly positive"
  | unsupportedType category column code =>
    s!"unsupported series type {code.toInt}, element type: {category.name}, series_name: {column}"
  | typeMismatch category column declared given =>
    s!"column '{column}' of {category.name} is declared {declared.name} " ++
      s!"but {given.name} values were given"
  | unknownVariant id => (NetworkError.unknownVariant id).message
  | variantExists id => (NetworkError.variantExists id).message
  | variantInUse id => (NetworkError.variantInUse id).message
  | table cause => (NetworkError.table cause).message
  | network cause => cause.message

/-- The look of one client at a network. -/
structure Session where
  /-- The handle of the network. -/
  handle : Nat
  perUnit : PerUnitContext := {}
  /-- The number of cells that were missing so far because no voltage was found. -/
  missingBases : Nat := 0
  /-- The issues of the latest reading or writing. -/
  diagnostics : Diagnostics := []

/-- A session with the store of its network. -/
structure SessionState where
  session : Session
  store : Store

/-- An operation of a session. -/
abbrev SessionM := EStateM SessionError SessionState

namespace Session

/-- An operation of the store; its refusals are passed on unchanged. -/
def onStore {α : Type} (op : StoreM α) : SessionM α := fun state =>
  match op state.store with
  | .ok a store => .ok a { state with store := store }
  | .error e store => .error (.network e) { state with store := store }

/-- An operation of the store on the network of the session. -/
def onNetwork {α : Type} (op : Nat → StoreM α) : SessionM α := do
  onStore (op (← get).session.handle)

/-- The outcome of an operation on tables. -/
def ofTable {α : Type} : Except TableError α → SessionM α
  | .ok a => pure a
  | .error e => throw (.table e)

/-- Changes the session and leaves the store alone. -/
def modifySession (f : Session → Session) : SessionM Unit :=
  modify fun state => { state with session := f state.session }

/-- The per-unit settings. -/
def context : SessionM PerUnitContext := return (← get).session.perUnit

/-! ### Start and end -/

/-- A session with a network that is in the store. -/
def «open» (handle : Nat) : Session := { handle := handle }

/-- Ends the session: the network leaves the store. -/
def close : SessionM Unit := onNetwork Store.release

/-! ### The network as a whole -/

/-- The metadata of the network. -/
def metadata : SessionM Metadata := onNetwork Store.metadata

/-- The snapshot of the network. -/
def dump : SessionM String := onNetwork Store.dump

/-- Opens a switch; the flag tells whether it was closed. -/
def openSwitch (id : String) : SessionM Bool := onNetwork fun h => Store.setSwitch h id true

/-- Closes a switch; the flag tells whether it was open. -/
def closeSwitch (id : String) : SessionM Bool := onNetwork fun h => Store.setSwitch h id false

/-- Connects an element at all its ends; the flag tells whether anything changed. -/
def connect (id : String) : SessionM Bool := onNetwork fun h => Store.setConnected h id true

/-- Disconnects an element at all its ends; the flag tells whether anything changed. -/
def disconnect (id : String) : SessionM Bool := onNetwork fun h => Store.setConnected h id false

/-! ### Per-unit settings -/

/-- Turns per-unit on or off. -/
def setPerUnit (enabled : Bool) : SessionM Unit :=
  modifySession fun s => { s with perUnit := { s.perUnit with enabled := enabled } }

/-- Sets the power base. -/
def setPowerBase (value : Float) : SessionM Unit := do
  match (← context).withPowerBase? value with
  | some ctx => modifySession fun s => { s with perUnit := ctx }
  | none => throw (.powerBase value)

/-- The session in one line, for a person who looks for an error. -/
def description (s : Session) : String :=
  let base := Double.text Double.scientific s.perUnit.powerBase
  let enabled := Cell.boolText s.perUnit.enabled
  s!"Network \x7b engine: \"{Store.name}\", handle: Some(NetworkHandle({s.handle})), " ++
    s!"per_unit: PerUnitContext \x7b power_base: {base}, enabled: {enabled} \x7d \x7d"

end Session

end PowerTables
