import PowerTables.Proofs.Network.Effects

/-!
# Calls of a store

All that can be asked of a store, with the answers: networks come in, and a network that is there
is read, changed or let go by its handle.  What only reads leaves the store alone, and what is
refused does so too.

## Main definitions

* `Store.Answer` : what a store answers.
* `Store.Call` : what can be asked of the network of a handle.
* `Store.Request` : what can be asked of a store.

## Main results

* `Store.Request.allOrNothing_run` : what is refused leaves the store as it is.
-/

namespace PowerTables

namespace Store

/-- What a store answers. -/
inductive Answer
  | done
  | handle (handle : Nat)
  /-- Whether a switch moved, or a connection changed. -/
  | flag (changed : Bool)
  | metadata (metadata : Metadata)
  | table (table : Table)
  | code (code : Int32)
  | text (text : String)
  | names (names : List String)

/-- What can be asked of the network of a handle. -/
inductive Call
  | setMetadata (metadata : Metadata)
  | addElement (c : Category) (key : RowKey) (entries : List Entry)
  | write (c : Category) (column : String) (keys : List RowKey) (batch : Batch)
  | setSwitch (id : String) (isOpen : Bool)
  | setConnected (id : String) (connected : Bool)
  | cloneVariant (source target : String) (mayOverwrite : Bool)
  | selectVariant (id : String)
  | removeVariant (id : String)
  | release
  | metadata
  | table (c : Category)
  | dump
  | variantIds
  | workingVariant

/-- Carries an operation without an answer of its own out. -/
def answering (op : StoreM Unit) : StoreM Answer := (fun _ => .done) <$> op

/-- Carries a call on the network of a handle out. -/
def Call.run (handle : Nat) : Call → StoreM Answer
  | .setMetadata m => answering (Store.setMetadata handle m)
  | .addElement c key entries => answering (Store.addElement handle c key entries)
  | .write c column keys batch => answering (Store.write handle c column keys batch)
  | .setSwitch id isOpen => .flag <$> Store.setSwitch handle id isOpen
  | .setConnected id connected => .flag <$> Store.setConnected handle id connected
  | .cloneVariant source target mayOverwrite =>
    answering (Store.cloneVariant handle source target mayOverwrite)
  | .selectVariant id => answering (Store.selectVariant handle id)
  | .removeVariant id => answering (Store.removeVariant handle id)
  | .release => answering (Store.release handle)
  | .metadata => .metadata <$> Store.metadata handle
  | .table c => .table <$> Store.table handle c
  | .dump => .text <$> Store.dump handle
  | .variantIds => .names <$> Store.variantIds handle
  | .workingVariant => .text <$> Store.workingVariant handle

/-- What can be asked of a store. -/
inductive Request
  | create (id : String) (now : Instant)
  | load (text : String)
  | sample (which : Sample)
  | typeCode (c : Category) (column : String)
  | call (handle : Nat) (call : Call)

/-- Carries a request out. -/
def Request.run : Request → StoreM Answer
  | .create id now => .handle <$> Store.create id now
  | .load text => .handle <$> Store.load text
  | .sample which => .handle <$> (ofResult which.network >>= Store.insert)
  | .typeCode c column => .code <$> Store.typeCode c column
  | .call handle c => c.run handle

/-- A change of the working variant without an answer is a change of its tables. -/
theorem change_changeTables (handle : Nat) (f : Tables → Except NetworkError Tables) :
    change handle (fun n => n.changeTables fun ts => (f ts).map fun us => ((), us)) =
      update handle fun n => n.updateTables f := by
  rw [update]
  congr 1
  funext n
  rw [Network.changeTables, Network.updateTables]
  cases n.tables with
  | error e => rfl
  | ok ts => cases hrun : f ts <;> simp [hrun, bind, Except.bind, pure, Except.pure, Except.map]

/-! ### What is refused -/

theorem relates_eq_ofResult {α : Type} (x : Except NetworkError α) : Relates Eq (ofResult x) := by
  cases x <;> exact fun s => rfl

/-- What is read off a network. -/
theorem relates_eq_read {α : Type} (handle : Nat) (f : Network → α) :
    Relates Eq (Store.get handle >>= fun n => pure (f n)) :=
  .eq_bind (relates_eq_get handle) fun _ _ => rfl

theorem allOrNothing_change {α : Type} (handle : Nat)
    (f : Network → Except NetworkError (α × Network)) : AllOrNothing (change handle f) :=
  fun s _ _ => (replaces_change handle f s).eq_of_error

theorem allOrNothing_insert (n : Network) : AllOrNothing (insert n) := fun _ _ _ => nofun

theorem Call.allOrNothing_run (handle : Nat) (call : Call) : AllOrNothing (call.run handle) := by
  cases call with
  | setMetadata metadata => exact (allOrNothing_change _ _).map _
  | addElement c key entries =>
    exact (AllOrNothing.eq_bind (relates_eq_ofResult _) fun _ => allOrNothing_change _ _).map _
  | write c column keys batch =>
    exact (AllOrNothing.eq_bind (relates_eq_ofResult _) fun _ => allOrNothing_change _ _).map _
  | setSwitch id isOpen => exact (allOrNothing_change _ _).map _
  | setConnected id connected => exact (allOrNothing_change _ _).map _
  | cloneVariant source target mayOverwrite => exact (allOrNothing_change _ _).map _
  | selectVariant id => exact (allOrNothing_change _ _).map _
  | removeVariant id => exact (allOrNothing_change _ _).map _
  | release =>
    refine (AllOrNothing.eq_bind (relates_eq_get handle) fun n s e s' h => ?_).map _
    cases h
  | metadata => exact (AllOrNothing.of_relates_eq (relates_eq_read _ _)).map _
  | table c => exact (AllOrNothing.of_relates_eq (relates_eq_table handle c)).map _
  | dump => exact (AllOrNothing.of_relates_eq (relates_eq_read _ _)).map _
  | variantIds => exact (AllOrNothing.of_relates_eq (relates_eq_read _ _)).map _
  | workingVariant => exact (AllOrNothing.of_relates_eq (relates_eq_read _ _)).map _

theorem Request.allOrNothing_run (request : Request) : AllOrNothing request.run := by
  cases request with
  | create id now => exact (allOrNothing_insert _).map _
  | load text =>
    refine AllOrNothing.map ?_ _
    rw [Store.load]
    cases Network.ofSnapshot text with
    | error e => exact .of_relates_eq fun s => rfl
    | ok n => exact allOrNothing_insert n
  | sample which =>
    exact (AllOrNothing.eq_bind (relates_eq_ofResult _) fun _ => allOrNothing_insert _).map _
  | typeCode c column =>
    refine (AllOrNothing.of_relates_eq fun s => ?_).map _
    rw [stateAfter, typeCode_eq]
    cases s.reporting.typeCode? c column <;> rfl
  | call handle call => exact call.allOrNothing_run handle

end Store

end PowerTables
