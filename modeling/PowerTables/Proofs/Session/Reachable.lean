import PowerTables.Proofs.Network.Reachable
import PowerTables.Session.Elements
import PowerTables.Session.Variants

/-!
# Reachable sessions

A session is opened on a network of a reachable store.  From then on its own operations and
those of others on the store take turns, in any order; only the release of the network of the
session is left to the session itself, which owns the handle.

## Main definitions

* `Session.Operation` : the operations of a session.
* `SessionState.Reachable` : the sessions and stores that some operations lead to.
* `SessionState.WellFormed` : what all of these have in common.

## Main results

* `Session.relates_eq_toPhysical` : a conversion changes nothing.
* `SessionState.Reachable.wellFormed` : a reachable session has a well-formed network.
-/

namespace PowerTables

/-! ### What operations do to session and store -/

namespace SessionState

/-- The store is well-formed, and the network of the session is in it. -/
structure WellFormed (s : SessionState) : Prop where
  store : s.store.WellFormed
  network : (s.store.network? s.session.handle).isSome

/-- The session stays with its network, and its store evolves. -/
structure Evolves (s s' : SessionState) : Prop where
  handle : s'.session.handle = s.session.handle
  store : s.store.Evolves s'.store

theorem Evolves.refl (s : SessionState) : Evolves s s := ⟨rfl, .refl s.store⟩

theorem Evolves.trans (s t u : SessionState) (h : Evolves s t) (h' : Evolves t u) :
    Evolves s u :=
  ⟨h'.handle.trans h.handle, Store.Evolves.trans _ _ _ h.store h'.store⟩

theorem Evolves.wellFormed {s s' : SessionState} (h : Evolves s s') (hs : s.WellFormed) :
    s'.WellFormed :=
  ⟨h.store.wellFormed hs.store, h.handle ▸ h.store.network? _ hs.network⟩

end SessionState

namespace Session

open SessionState

variable {α β : Type}

theorem relates_pure (a : α) : Relates Evolves (pure a : SessionM α) := fun s => .refl s

theorem relates_throw (e : SessionError) : Relates Evolves (throw e : SessionM α) :=
  fun s => .refl s

theorem relates_bind {x : SessionM α} {f : α → SessionM β} (hx : Relates Evolves x)
    (hf : ∀ a, Relates Evolves (f a)) : Relates Evolves (x >>= f) :=
  Relates.bind Evolves.trans hx hf

theorem relates_modifySession {f : Session → Session} (hf : ∀ s, (f s).handle = s.handle) :
    Relates Evolves (modifySession f) := fun s => ⟨hf s.session, .refl s.store⟩

theorem relates_context : Relates Evolves context := fun s => .refl s

/-- What leaves the state as it is lets it evolve. -/
theorem relates_of_eq {op : SessionM α} (h : Relates Eq op) : Relates Evolves op :=
  .of_eq Evolves.refl fun s => (h s).symm

theorem relates_onStore {op : StoreM α} (h : Relates Store.Evolves op) :
    Relates Evolves (onStore op) := by
  intro s
  have hstore := h s.store
  rw [stateAfter] at hstore
  rw [stateAfter, onStore]
  cases hrun : op s.store with
  | ok a store => exact ⟨rfl, by rwa [hrun] at hstore⟩
  | error e store => exact ⟨rfl, by rwa [hrun] at hstore⟩

theorem relates_onNetwork {op : Nat → StoreM α} (h : ∀ handle, Relates Store.Evolves (op handle)) :
    Relates Evolves (onNetwork op) := fun s => relates_onStore (h s.session.handle) s

/-! ### Reading and conversion -/

theorem relates_eq_ofTable (x : Except TableError α) : Relates Eq (ofTable x) := by
  cases x <;> exact fun s => rfl

theorem relates_eq_storedTable (c : Category) : Relates Eq (storedTable c) := by
  intro s
  have hstore := Store.relates_eq_table s.session.handle c s.store
  change s = stateAfter (onStore (Store.table s.session.handle c)) s
  rw [stateAfter, onStore]
  cases hrun : Store.table s.session.handle c s.store with
  | ok t store =>
    obtain rfl := hstore.trans (stateAfter_ok hrun)
    rfl
  | error e store =>
    obtain rfl := hstore.trans (stateAfter_error hrun)
    rfl

theorem relates_eq_withBaseColumns (c : Category) (t : Table) :
    Relates Eq (withBaseColumns c t) := by
  rw [withBaseColumns]
  split
  · exact fun s => rfl
  · refine .eq_bind (relates_eq_storedTable c) fun stored => ?_
    dsimp only
    split <;> exact fun s => rfl

theorem relates_eq_converted (c : Category) (direction : Direction) (t : Table) :
    Relates Eq (converted c direction t) := by
  have hlevels : Relates Eq (voltageLevels c) := by
    rw [voltageLevels]
    split
    · exact .eq_bind (relates_eq_storedTable _) fun stored s => rfl
    · exact fun s => rfl
  exact .eq_bind hlevels fun levels =>
    .eq_bind (fun s => rfl) fun ctx => relates_eq_ofTable _

theorem relates_eq_withoutUnresolved (c : Category) (unresolved : List RowKey) (t : Table) :
    Relates Eq (withoutUnresolved c unresolved t) := by
  rw [withoutUnresolved]
  split
  · exact fun s => rfl
  · exact .eq_bind (relates_eq_storedTable c) fun stored => relates_eq_ofTable _

/-- A conversion changes nothing, also when it fails. -/
theorem relates_eq_toPhysical (c : Category) (t : Table) : Relates Eq (toPhysical c t) := by
  refine .eq_bind (relates_eq_withBaseColumns c t) fun (joined, added) => ?_
  refine .eq_bind (relates_eq_converted c .fromPerUnit joined) fun (physical, report) => ?_
  exact .eq_bind (relates_eq_withoutUnresolved c _ _) fun kept s => rfl

/-! ### Writing and settings -/

theorem relates_write (c : Category) (column : String) (keys : List RowKey) (batch : Batch) :
    Relates Evolves (onNetwork fun h => Store.write h c column keys batch) :=
  relates_onNetwork fun h => (Store.Operation.write h c column keys batch).relates (by simp)

theorem relates_writeTable (c : Category) (t : Table) : Relates Evolves (writeTable c t) := by
  refine .forM Evolves.refl Evolves.trans fun column _ => ?_
  refine relates_bind (relates_onStore (Store.relates_typeCode c column.name)) fun code => ?_
  split
  · exact relates_throw _
  · split
    · exact relates_write c column.name t.index column.batch
    · exact relates_throw _

theorem relates_elements (c : Category) : Relates Evolves (elements c) := by
  refine relates_bind (relates_of_eq (relates_eq_storedTable c)) fun stored => ?_
  refine relates_bind relates_context fun ctx => ?_
  split
  · refine relates_bind (relates_of_eq (relates_eq_converted c .toPerUnit stored))
      fun (t, report) => ?_
    exact relates_bind (relates_modifySession fun s => rfl) fun _ => relates_pure t
  · exact relates_bind (relates_modifySession fun s => rfl) fun _ => relates_pure stored

theorem relates_update (c : Category) (t : Table) : Relates Evolves (update c t) := by
  refine relates_bind relates_context fun ctx => ?_
  split
  · refine relates_bind (relates_of_eq (relates_eq_toPhysical c t)) fun (physical, report) => ?_
    exact relates_bind (relates_writeTable c physical) fun _ =>
      relates_modifySession fun s => rfl
  · exact relates_bind (relates_modifySession fun s => rfl) fun _ => relates_writeTable c t

end Session

/-! ### Variants -/

namespace VariantAccess

open Session SessionState

theorem relates_list (v : VariantAccess) : Relates Evolves v.list :=
  relates_onStore (.bind Store.Evolves.trans (Store.relates_get _) fun _ s => .refl s)

theorem relates_current (v : VariantAccess) : Relates Evolves v.current :=
  relates_onStore (.bind Store.Evolves.trans (Store.relates_get _) fun _ s => .refl s)

theorem relates_require (v : VariantAccess) (id : String) : Relates Evolves (v.require id) := by
  refine relates_bind (relates_list v) fun ids => ?_
  split
  · exact relates_throw _
  · exact relates_pure _

theorem relates_clone (v : VariantAccess) (source target : String) (mayOverwrite : Bool) :
    Relates Evolves (v.clone source target mayOverwrite) := by
  have hclone : Relates Evolves
      (onStore (Store.cloneVariant v.handle source target mayOverwrite)) :=
    relates_onStore
      ((Store.Operation.cloneVariant v.handle source target mayOverwrite).relates (by simp))
  refine relates_bind (relates_require v source) fun _ => ?_
  dsimp only
  split
  · refine relates_bind (relates_list v) fun ids => ?_
    split
    · exact relates_bind (relates_throw _) fun _ => hclone
    · exact hclone
  · exact hclone

theorem relates_select (v : VariantAccess) (id : String) : Relates Evolves (v.select id) :=
  relates_bind (relates_require v id) fun _ =>
    relates_onStore ((Store.Operation.selectVariant v.handle id).relates (by simp))

theorem relates_remove (v : VariantAccess) (id : String) : Relates Evolves (v.remove id) := by
  have hremove : Relates Evolves (onStore (Store.removeVariant v.handle id)) :=
    relates_onStore ((Store.Operation.removeVariant v.handle id).relates (by simp))
  refine relates_bind (relates_require v id) fun _ => relates_bind (relates_current v) fun _ => ?_
  dsimp only
  split
  · exact relates_bind (relates_throw _) fun _ => hremove
  · exact hremove

end VariantAccess

/-! ### The operations of a session -/

namespace Session

open SessionState

/-- The operations of a session that can change it or its network. -/
inductive Operation
  | setPerUnit (enabled : Bool)
  | setPowerBase (value : Float)
  | elements (c : Category)
  | update (c : Category) (t : Table)
  | openSwitch (id : String)
  | closeSwitch (id : String)
  | connect (id : String)
  | disconnect (id : String)
  | cloneVariant (source target : String) (mayOverwrite : Bool)
  | selectVariant (id : String)
  | removeVariant (id : String)

namespace Operation

/-- Carries an operation out. -/
def run : Operation → SessionM Unit
  | .setPerUnit enabled => Session.setPerUnit enabled
  | .setPowerBase value => Session.setPowerBase value
  | .elements c => discard (Session.elements c)
  | .update c t => Session.update c t
  | .openSwitch id => discard (Session.openSwitch id)
  | .closeSwitch id => discard (Session.closeSwitch id)
  | .connect id => discard (Session.connect id)
  | .disconnect id => discard (Session.disconnect id)
  | .cloneVariant source target mayOverwrite => do
    (← Session.variants).clone source target mayOverwrite
  | .selectVariant id => do (← Session.variants).select id
  | .removeVariant id => do (← Session.variants).remove id

/-- Session and store after an operation, which may have failed. -/
def after (op : Operation) (s : SessionState) : SessionState := stateAfter op.run s

end Operation

theorem relates_discard {α : Type} {op : SessionM α} (h : Relates Evolves op) :
    Relates Evolves (discard op) := relates_bind h fun _ => relates_pure _

theorem relates_variants {α : Type} {f : VariantAccess → SessionM α}
    (h : ∀ v, Relates Evolves (f v)) : Relates Evolves (Session.variants >>= f) :=
  relates_bind (fun s => .refl s) h

/-- What every operation does to session and store. -/
theorem Operation.relates (op : Operation) : Relates Evolves op.run := by
  cases op with
  | setPerUnit enabled => exact fun s => ⟨rfl, .refl s.store⟩
  | setPowerBase value =>
    refine relates_bind relates_context fun ctx => ?_
    split
    · exact relates_modifySession fun s => rfl
    · exact relates_throw _
  | elements c => exact relates_discard (relates_elements c)
  | update c t => exact relates_update c t
  | openSwitch id =>
    exact relates_discard (relates_onNetwork fun h => Store.relates_setSwitch h id true)
  | closeSwitch id =>
    exact relates_discard (relates_onNetwork fun h => Store.relates_setSwitch h id false)
  | connect id =>
    exact relates_discard (relates_onNetwork fun h => Store.relates_setConnected h id true)
  | disconnect id =>
    exact relates_discard (relates_onNetwork fun h => Store.relates_setConnected h id false)
  | cloneVariant source target mayOverwrite =>
    exact relates_variants fun v => v.relates_clone source target mayOverwrite
  | selectVariant id => exact relates_variants fun v => v.relates_select id
  | removeVariant id => exact relates_variants fun v => v.relates_remove id

end Session

namespace SessionState

/-- Session and store after the opening of a session on a network of a reachable store, and
after operations of the session and of others on the store, who leave the handle of the session
to it. -/
inductive Reachable : SessionState → Prop
  | opened {store : Store} {handle : Nat} :
    store.Reachable → (store.network? handle).isSome → Reachable ⟨Session.open handle, store⟩
  | after {s : SessionState} (op : Session.Operation) : Reachable s → Reachable (op.after s)
  | others {s : SessionState} (op : Store.Operation) :
    Reachable s → op ≠ .release s.session.handle → Reachable { s with store := op.after s.store }

/-- A reachable session has a well-formed network. -/
theorem Reachable.wellFormed {s : SessionState} (h : s.Reachable) : s.WellFormed := by
  induction h with
  | opened hstore hlive => exact ⟨hstore.wellFormed, hlive⟩
  | after op _ ih => exact (op.relates _).wellFormed ih
  | others op _ hop ih => exact ⟨op.wellFormed_after ih.store, op.network?_after hop ih.network⟩

/-! ### A small network -/

/-- A session in per-unit on a network of one voltage level, whose nominal voltage may not be
given, and of two generators, of which one is at this level and one at none. -/
def twoGenerators (nominal : Option Float) : SessionState :=
  (Session.Operation.setPerUnit true).after ⟨Session.open 1,
    (Store.Operation.addElement 1 .generator (.plain "G2") []).after <|
    (Store.Operation.addElement 1 .generator (.plain "G1")
      [⟨"target_v", .ofDouble 420.0⟩, ⟨"voltage_level_id", .ofString "VL"⟩]).after <|
    (Store.Operation.addElement 1 .voltageLevel (.plain "VL")
      (nominal.toList.map fun v => ⟨"nominal_v", .ofDouble v⟩)).after <|
    (Store.Operation.create "grid" ⟨0, 0, 0⟩).after {}⟩

theorem reachable_twoGenerators (nominal : Option Float) :
    (twoGenerators nominal).Reachable := by
  refine .after _ (.opened (.after _ (.after _ (.after _ (.after _ .empty)))) ?_)
  have hcreated :
      (((Store.Operation.create "grid" ⟨0, 0, 0⟩).after {}).network? 1).isSome := rfl
  exact Store.Operation.network?_after _ nofun (Store.Operation.network?_after _ nofun
    (Store.Operation.network?_after _ nofun hcreated))

end SessionState

/-- Target voltages in per-unit and energy sources of both generators. -/
def Table.newTargets : Table :=
  ⟨[.plain "G1", .plain "G2"],
    [⟨"target_v", .double, [(1.05 : Float), (1.0 : Float)]⟩,
      ⟨"energy_source", .string, ["HYDRO", "WIND"]⟩]⟩

end PowerTables
