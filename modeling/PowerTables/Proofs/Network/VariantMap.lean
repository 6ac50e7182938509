import PowerTables.Proofs.Network.Calls
import PowerTables.Proofs.Network.Identity
import PowerTables.Proofs.Simulation

/-!
# Variants as a map of independent copies

A network keeps its variants in a list, which is searched by id, changed in place and shortened
when a variant is dropped.  To its clients it is a map from ids to tables together with the order
in which the ids came: to clone a variant sets the entry of the target, a change of elements sets
the entry of the working variant, and no other entry is touched.

Every call on a network whose ids are apart acts as the call on its map, so runs of calls have the
same outcomes on both, and a variant is as independent of the others as an entry of a map.

## Main definitions

* `VariantMap` : ids in order, a map from ids to tables, and the working id.
* `VariantMap.call` : what a call does to the map.
* `Network.toMap`, `VariantMap.toNetwork` : the map of a network, and back.
* `Store.Mirrors` : a map is that of a network in a store.
* `Store.Call.Spares` : a call leaves the entry of an id alone.

## Main results

* `VariantMap.toNetwork_toMap` : a network is known by its map.
* `Store.Call.simulates` : a call on a network acts as the call on its map.
* `VariantMap.tables_call_of_spares` : an entry that is spared stays as it is.
* `Store.calls_refine_variantMap` : runs of calls on a network.
-/

namespace PowerTables

/-- Tables by id, with the order of the ids and the working one. -/
structure VariantMap where
  metadata : Metadata
  /-- The ids in the order of their creation. -/
  ids : List String
  tables : String → Option Tables
  working : String

namespace VariantMap

/-- The map with other tables for an id. -/
def put (m : VariantMap) (id : String) (ts : Tables) : VariantMap :=
  { m with tables := fun other => if other = id then some ts else m.tables other }

/-- Copies the tables of an id to another id, which keeps its place if it has one. -/
def clone (m : VariantMap) (source target : String) (mayOverwrite : Bool) :
    Except NetworkError VariantMap :=
  match m.tables source with
  | none => .error (.unknownVariant source)
  | some ts =>
    if target ∈ m.ids then
      if mayOverwrite then .ok (m.put target ts) else .error (.variantExists target)
    else .ok { m.put target ts with ids := m.ids ++ [target] }

/-- Makes an id the working one. -/
def select (m : VariantMap) (id : String) : Except NetworkError VariantMap :=
  if id ∈ m.ids then .ok { m with working := id } else .error (.unknownVariant id)

/-- Drops an id that is not the working one. -/
def remove (m : VariantMap) (id : String) : Except NetworkError VariantMap :=
  if id ∉ m.ids then .error (.unknownVariant id)
  else if m.working = id then .error (.variantInUse id)
  else .ok
    { m with
      ids := m.ids.filter (· != id)
      tables := fun other => if other = id then none else m.tables other }

/-- The tables of the working id. -/
def current (m : VariantMap) : Except NetworkError Tables :=
  match m.tables m.working with
  | some ts => .ok ts
  | none => .error (.unknownVariant m.working)

/-- Changes the tables of the working id, and nothing else. -/
def changeTables {α : Type} (m : VariantMap) (f : Tables → Except NetworkError (α × Tables)) :
    Except NetworkError (α × VariantMap) := do
  let (a, ts) ← f (← m.current)
  return (a, m.put m.working ts)

/-- The network whose variants are the entries, in the order of the ids. -/
def toNetwork (m : VariantMap) : Network :=
  ⟨m.metadata, m.working, m.ids.filterMap fun id => (m.tables id).map (Variant.mk id)⟩

end VariantMap

/-- The map of a network. -/
def Network.toMap (n : Network) : VariantMap :=
  ⟨n.metadata, n.variantIds, fun id => (n.variant? id).map (·.tables), n.working⟩

/-! ### Calls on a map -/

namespace VariantMap

/-- An operation on the map of a network, which may have been let go. -/
abbrev MapM := EStateM NetworkError (Option VariantMap)

variable {α : Type}

/-- The map, or the refusal of a handle without network. -/
def get (handle : Nat) : MapM VariantMap := do
  match (← MonadState.get) with
  | some m => return m
  | none => throw (.unknownHandle handle)

theorem get_some (handle : Nat) (m : VariantMap) : get handle (some m) = .ok m (some m) := rfl

theorem get_none (handle : Nat) : get handle none = .error (.unknownHandle handle) none := rfl

/-- Changes the map, and gives what the change gives. -/
def change (handle : Nat) (f : VariantMap → Except NetworkError (α × VariantMap)) : MapM α := do
  let (a, m) ← ofExcept (f (← get handle))
  MonadStateOf.set (some m)
  return a

/-- Changes the map by an operation without an answer. -/
def update (handle : Nat) (f : VariantMap → Except NetworkError VariantMap) : MapM Unit :=
  change handle fun m => (f m).map fun m => ((), m)

/-- Changes the tables of the working id by an operation without an answer. -/
def updateTables (handle : Nat) (f : Tables → Except NetworkError Tables) : MapM Unit :=
  change handle fun m => m.changeTables fun ts => (f ts).map fun us => ((), us)

/-- Carries out what a call does to the map of a network. -/
def call (handle : Nat) : Store.Call → MapM Store.Answer
  | .setMetadata metadata =>
    (fun _ => .done) <$> update handle fun m => .ok { m with metadata := metadata }
  | .addElement c key entries => (fun _ => .done) <$> do
      let cells ← ofExcept (c.newRow key entries)
      updateTables handle fun ts => ts.push c key cells
  | .write c column keys batch => (fun _ => .done) <$> do
      let cells ← ofExcept (c.cellsFor column keys batch)
      updateTables handle fun ts => ts.write c column keys cells
  | .setSwitch id isOpen =>
    .flag <$> change handle fun m => m.changeTables fun ts => ts.setSwitch id isOpen
  | .setConnected id connected =>
    .flag <$> change handle fun m => m.changeTables fun ts => ts.setConnected id connected
  | .cloneVariant source target mayOverwrite =>
    (fun _ => .done) <$> update handle fun m => m.clone source target mayOverwrite
  | .selectVariant id => (fun _ => .done) <$> update handle fun m => m.select id
  | .removeVariant id => (fun _ => .done) <$> update handle fun m => m.remove id
  | .release => (fun _ => .done) <$> do
      let _ ← get handle
      MonadStateOf.set (none : Option VariantMap)
  | .metadata => .metadata <$> do return (← get handle).metadata
  | .table c => .table <$> do
      let ts ← ofExcept (← get handle).current
      return ts c
  | .dump => .text <$> do return (← get handle).toNetwork.snapshot
  | .variantIds => .names <$> do return (← get handle).ids
  | .workingVariant => .text <$> do return (← get handle).working

end VariantMap

/-! ### The map of a network -/

namespace Network

variable {n : Network}

@[simp] theorem ids_toMap (n : Network) : n.toMap.ids = n.variantIds := rfl

@[simp] theorem working_toMap (n : Network) : n.toMap.working = n.working := rfl

@[simp] theorem tables_toMap (n : Network) (id : String) :
    n.toMap.tables id = (n.variant? id).map (·.tables) := rfl

theorem current_toMap (n : Network) : n.toMap.current = n.tables := by
  rw [VariantMap.current, tables, tables?]
  rfl

theorem variant?_setTables (hids : n.variantIds.Nodup) (id other : String) (ts : Tables) :
    (n.setTables id ts).variant? other =
      (n.variant? other).map fun v => if v.id = id then { v with tables := ts } else v := by
  have hid : ((·.id == other) ∘ fun v : Variant =>
      if v.id = id then { v with tables := ts } else v) = (·.id == other) := by
    funext v
    by_cases hv : v.id = id
    · simp [hv]
    · simp [hv]
  rw [variant?, variants_setTables hids, List.find?_map, hid, variant?]

/-- To set the tables of an id is to put them into its entry. -/
theorem toMap_setTables (hids : n.variantIds.Nodup) {id : String} (hid : id ∈ n.variantIds)
    (ts : Tables) : (n.setTables id ts).toMap = n.toMap.put id ts := by
  have htables (other : String) : ((n.setTables id ts).variant? other).map (·.tables) =
      if other = id then some ts else (n.variant? other).map (·.tables) := by
    rw [variant?_setTables hids, Option.map_map]
    cases hv : n.variant? other with
    | none =>
      have hother : other ≠ id := by
        rintro rfl
        obtain ⟨v, hfound⟩ := exists_variant? (hasVariant_iff.mpr hid)
        rw [hv] at hfound
        cases hfound
      rw [if_neg hother]
      rfl
    | some v =>
      have hvid : v.id = other := by simpa using List.find?_some hv
      by_cases hother : other = id
      · simp [hvid, hother]
      · simp [hvid, hother]
  rw [toMap, variantIds_setTables, VariantMap.put]
  simp only [htables]
  rfl

/-- A variant of a new id comes last. -/
theorem toMap_append {target : String} (htarget : target ∉ n.variantIds) (ts : Tables) :
    toMap { n with variants := n.variants ++ [⟨target, ts⟩] } =
      { n.toMap.put target ts with ids := n.variantIds ++ [target] } := by
  have hnone : n.variant? target = none := by
    rw [variant?, List.find?_eq_none]
    intro v hv hid
    exact htarget (List.mem_map.mpr ⟨v, hv, by simpa using hid⟩)
  have htables (other : String) :
      (variant? { n with variants := n.variants ++ [⟨target, ts⟩] } other).map (·.tables) =
        if other = target then some ts else (n.variant? other).map (·.tables) := by
    rw [variant?, List.find?_append]
    by_cases hother : other = target
    · subst hother
      rw [variant?] at hnone
      simp [hnone]
    · have hlast : [Variant.mk target ts].find? (·.id == other) = none := by
        simp [Ne.symm hother]
      rw [hlast, Option.or_none, if_neg hother, variant?]
  rw [toMap, VariantMap.put]
  simp only [htables]
  simp [variantIds, toMap]

/-- To drop a variant is to drop its entry. -/
theorem toMap_eraseP (hids : n.variantIds.Nodup) (id : String) :
    toMap { n with variants := n.variants.eraseP (·.id == id) } =
      { n.toMap with
        ids := n.variantIds.filter (· != id)
        tables := fun other => if other = id then none else n.toMap.tables other } := by
  have htables (other : String) :
      (variant? { n with variants := n.variants.filter (·.id != id) } other).map (·.tables) =
        if other = id then none else (n.variant? other).map (·.tables) := by
    rw [variant?, List.find?_filter]
    by_cases hother : other = id
    · subst hother
      rw [if_pos rfl, List.find?_eq_none.mpr (by simp), Option.map_none]
    · have hid : (fun v : Variant => decide ((v.id != id) = true ∧ (v.id == other) = true)) =
          (·.id == other) := by
        funext v
        by_cases hv : v.id = other
        · simp [hv, hother]
        · simp [hv]
      rw [if_neg hother, hid, variant?]
  rw [eraseP_key_eq_filter hids, toMap]
  simp only [htables]
  simp [variantIds, toMap, List.filter_map, Function.comp_def]

end Network

/-- A network whose ids are apart is known by its map. -/
theorem VariantMap.toNetwork_toMap {n : Network} (hids : n.variantIds.Nodup) :
    n.toMap.toNetwork = n := by
  have hentry : ∀ v ∈ n.variants,
      ((n.variant? v.id).map (·.tables)).map (Variant.mk v.id) = some v := by
    intro v hv
    rw [(Network.variant?_eq_some_iff hids).mpr ⟨hv, rfl⟩]
    rfl
  have hvariants : n.variantIds.filterMap (fun id =>
      ((n.variant? id).map (·.tables)).map (Variant.mk id)) = n.variants := by
    rw [Network.variantIds, List.filterMap_map]
    exact (List.filterMap_congr hentry).trans List.filterMap_some
  exact congrArg (Network.mk n.metadata n.working) hvariants

/-! ### Changes of the map -/

section Tracks

variable {α : Type}

/-- A change of networks whose ids are apart is the change of their maps, and keeps the ids
apart. -/
def Tracks (f : Network → Except NetworkError (α × Network))
    (g : VariantMap → Except NetworkError (α × VariantMap)) : Prop :=
  ∀ n, n.variantIds.Nodup → g n.toMap = (f n).map (fun r => (r.1, r.2.toMap)) ∧
    ∀ a m, f n = .ok (a, m) → m.variantIds.Nodup

/-- The same for changes without an answer. -/
theorem Tracks.of_update {f : Network → Except NetworkError Network}
    {g : VariantMap → Except NetworkError VariantMap}
    (h : ∀ n, n.variantIds.Nodup → g n.toMap = (f n).map Network.toMap ∧
      ∀ m, f n = .ok m → m.variantIds.Nodup) :
    Tracks (fun n => (f n).map fun m => ((), m)) fun m => (g m).map fun m => ((), m) := by
  intro n hids
  obtain ⟨hg, hm⟩ := h n hids
  refine ⟨?_, fun a m hrun => ?_⟩
  · dsimp only
    rw [hg]
    cases f n <;> rfl
  · obtain ⟨m', hm', heq⟩ := map_eq_ok.mp hrun
    obtain ⟨-, rfl⟩ := Prod.mk.inj heq
    exact hm m' hm'

/-- A change of the working variant is a change of the working entry. -/
theorem tracks_changeTables (f : Tables → Except NetworkError (α × Tables)) :
    Tracks (fun n => n.changeTables f) fun m => m.changeTables f := by
  intro n hids
  refine ⟨?_, fun a m hm => ?_⟩
  · dsimp only
    rw [VariantMap.changeTables, Network.current_toMap]
    cases hts : n.tables with
    | error e => rw [Network.changeTables, hts]; rfl
    | ok ts =>
      have hworking : n.working ∈ n.variantIds :=
        Network.hasVariant_iff.mp (Network.hasVariant_of_tables? (Network.tables_eq_ok.mp hts))
      rw [Network.changeTables, hts]
      cases hrun : f ts with
      | error e => simp only [bind, Except.bind, hrun, Except.map]
      | ok r =>
        simp only [bind, Except.bind, hrun, Except.map, pure, Except.pure,
          Network.toMap_setTables hids hworking, Network.working_toMap]
  · obtain ⟨ts, us, -, -, rfl⟩ := Network.changeTables_eq_ok.mp hm
    rwa [Network.variantIds_setTables]

end Tracks

namespace Network

variable {n : Network}

theorem toMap_cloneVariant (hids : n.variantIds.Nodup) (source target : String)
    (mayOverwrite : Bool) :
    n.toMap.clone source target mayOverwrite =
      (n.cloneVariant source target mayOverwrite).map toMap := by
  rw [VariantMap.clone, cloneVariant, tables_toMap, ids_toMap]
  cases n.variant? source with
  | none => rfl
  | some v =>
    rw [Option.map_some]
    dsimp only
    by_cases htarget : target ∈ n.variantIds
    · rw [if_pos htarget, if_pos (hasVariant_iff.mpr htarget)]
      cases mayOverwrite with
      | true => exact congrArg Except.ok (toMap_setTables hids htarget v.tables).symm
      | false => rfl
    · rw [if_neg htarget, if_neg (fun h => htarget (hasVariant_iff.mp h))]
      exact congrArg Except.ok (toMap_append htarget v.tables).symm

theorem toMap_selectVariant (n : Network) (id : String) :
    n.toMap.select id = (n.selectVariant id).map toMap := by
  rw [VariantMap.select, selectVariant, ids_toMap]
  by_cases hid : id ∈ n.variantIds
  · rw [if_pos hid, if_pos (hasVariant_iff.mpr hid)]
    rfl
  · rw [if_neg hid, if_neg (fun h => hid (hasVariant_iff.mp h))]
    rfl

theorem toMap_removeVariant (hids : n.variantIds.Nodup) (id : String) :
    n.toMap.remove id = (n.removeVariant id).map toMap := by
  have hmissing : (!n.hasVariant id) = true ↔ id ∉ n.variantIds := by
    rw [Bool.not_eq_true', ← Bool.not_eq_true, hasVariant_iff]
  rw [VariantMap.remove, removeVariant, ids_toMap, working_toMap]
  by_cases hid : id ∉ n.variantIds
  · rw [if_pos hid, if_pos (hmissing.mpr hid)]
    rfl
  · rw [if_neg hid, if_neg (fun h => hid (hmissing.mp h))]
    by_cases hworking : n.working = id
    · rw [if_pos hworking, if_pos hworking]
      rfl
    · rw [if_neg hworking, if_neg hworking]
      exact congrArg Except.ok (toMap_eraseP hids id).symm

end Network

/-! ### Calls -/

namespace Store

/-- A map is that of the network of a handle, whose ids are apart, in a store that hides no
column. -/
structure Mirrors (handle : Nat) (s : Store) (x : Option VariantMap) : Prop where
  map : (s.network? handle).map Network.toMap = x
  ids : ∀ n, s.network? handle = some n → n.variantIds.Nodup
  shown : s.reporting.hidden = []

variable {handle : Nat} {α β : Type}

/-- What begins with a look at the network. -/
theorem simulates_get_bind {f : Network → StoreM α} {g : VariantMap → VariantMap.MapM α}
    (h : ∀ s n, s.network? handle = some n → Mirrors handle s (some n.toMap) →
      Agree (Mirrors handle) (f n s) (g n.toMap (some n.toMap))) :
    Simulates (Mirrors handle) (Store.get handle >>= f) (VariantMap.get handle >>= g) := by
  intro s x hx
  have hget := get_eq handle s
  cases hn : s.network? handle with
  | none =>
    obtain rfl : none = x := by simpa [hn] using hx.map
    rw [hn] at hget
    rw [run_bind_of_error hget, run_bind_of_error (VariantMap.get_none handle)]
    exact .error _ hx
  | some n =>
    obtain rfl : some n.toMap = x := by simpa [hn] using hx.map
    rw [hn] at hget
    rw [run_bind_of_ok hget, run_bind_of_ok (VariantMap.get_some handle n.toMap)]
    exact h s n hn hx

theorem simulates_read {f : Network → α} {g : VariantMap → α}
    (h : ∀ n : Network, n.variantIds.Nodup → g n.toMap = f n) :
    Simulates (Mirrors handle) (Store.get handle >>= fun n => pure (f n))
      (VariantMap.get handle >>= fun m => pure (g m)) :=
  simulates_get_bind fun s n hn hx => by
    rw [h n (hx.ids n hn)]
    exact .ok (f n) hx

theorem Mirrors.setNetwork {s : Store} {n m : Network} {x : Option VariantMap}
    (h : Mirrors handle s x) (hn : s.network? handle = some n) (hm : m.variantIds.Nodup) :
    Mirrors handle (s.setNetwork handle m) (some m.toMap) := by
  have hself := network?_setNetwork_self hn m
  refine ⟨by rw [hself, Option.map_some], fun m' hm' => ?_, h.shown⟩
  rw [hself] at hm'
  exact Option.some.inj hm' ▸ hm

theorem simulates_change {f : Network → Except NetworkError (α × Network)}
    {g : VariantMap → Except NetworkError (α × VariantMap)} (h : Tracks f g) :
    Simulates (Mirrors handle) (Store.change handle f) (VariantMap.change handle g) :=
  simulates_get_bind fun s n hn hx => by
    obtain ⟨hg, hm⟩ := h n (hx.ids n hn)
    rw [hg]
    cases hrun : f n with
    | error e => exact .error e hx
    | ok r => exact .ok r.1 (hx.setNetwork hn (hm r.1 r.2 hrun))

theorem simulates_ofResult_bind (x : Except NetworkError β) {f : β → StoreM α}
    {g : β → VariantMap.MapM α} (h : ∀ b, Simulates (Mirrors handle) (f b) (g b)) :
    Simulates (Mirrors handle) (ofResult x >>= f) (ofExcept x >>= g) := by
  cases x with
  | error e => exact fun s t hx => .error e hx
  | ok b => exact h b

theorem simulates_updateTables (f : Tables → Except NetworkError Tables) :
    Simulates (Mirrors handle) (Store.update handle fun n => n.updateTables f)
      (VariantMap.updateTables handle f) := by
  rw [← change_changeTables]
  exact simulates_change (tracks_changeTables _)

theorem simulates_update {f : Network → Except NetworkError Network}
    {g : VariantMap → Except NetworkError VariantMap}
    (hmap : ∀ n, n.variantIds.Nodup → g n.toMap = (f n).map Network.toMap)
    (hids : ∀ n m, n.variantIds.Nodup → f n = .ok m → m.variantIds.Nodup) :
    Simulates (Mirrors handle) (Store.update handle f) (VariantMap.update handle g) :=
  simulates_change (.of_update fun n hn => ⟨hmap n hn, fun m => hids n m hn⟩)

/-- A call on a network acts as the call on its map. -/
theorem Call.simulates (handle : Nat) (call : Call) :
    Simulates (Mirrors handle) (call.run handle) (VariantMap.call handle call) := by
  cases call with
  | setMetadata metadata =>
    refine (simulates_update (fun n _ => ?_) fun n m hn hm => ?_).map _
    · rfl
    · exact Except.ok.inj hm ▸ hn
  | addElement c key entries =>
    exact (simulates_ofResult_bind _ fun cells => simulates_updateTables _).map _
  | write c column keys batch =>
    exact (simulates_ofResult_bind _ fun cells => simulates_updateTables _).map _
  | setSwitch id isOpen => exact (simulates_change (tracks_changeTables _)).map _
  | setConnected id connected => exact (simulates_change (tracks_changeTables _)).map _
  | cloneVariant source target mayOverwrite =>
    exact (simulates_update (fun n hn => n.toMap_cloneVariant hn source target mayOverwrite)
      fun n m hn hm => Network.nodup_cloneVariant hn hm).map _
  | selectVariant id =>
    exact (simulates_update (fun n _ => n.toMap_selectVariant id)
      fun n m hn hm => Network.variantIds_selectVariant hm ▸ hn).map _
  | removeVariant id =>
    exact (simulates_update (fun n hn => n.toMap_removeVariant hn id)
      fun n m hn hm => Network.nodup_removeVariant hn hm).map _
  | release =>
    refine (simulates_get_bind fun s n hn hx => ?_).map _
    have hgone := network?_eraseNetwork_self s handle
    exact .ok () ⟨by rw [hgone]; rfl, fun m hm => by simp [hgone] at hm, hx.shown⟩
  | metadata =>
    refine (simulates_read fun n _ => ?_).map _
    rfl
  | table c =>
    refine (simulates_get_bind fun s n hn hx => ?_).map _
    rw [Network.current_toMap]
    cases n.tables with
    | error e => exact .error e hx
    | ok ts =>
      have hvisible : s.reporting.visible c (ts c) = ts c := by
        rw [Reporting.visible, hx.shown, List.foldl_nil]
      change Agree _ (.ok (s.reporting.visible c (ts c)) s) _
      rw [hvisible]
      exact .ok (ts c) hx
  | dump =>
    exact (simulates_read fun n hn =>
      congrArg Network.snapshot (VariantMap.toNetwork_toMap hn)).map _
  | variantIds =>
    refine (simulates_read fun n _ => ?_).map _
    rfl
  | workingVariant =>
    refine (simulates_read fun n _ => ?_).map _
    rfl

/-! ### Entries that are spared -/

/-- A call leaves the entry of an id alone: it changes no tables while this is the working id,
does not copy to it, drop it or let the network go. -/
def Call.Spares (id : String) (m : VariantMap) : Call → Prop
  | .addElement _ _ _ | .write _ _ _ _ | .setSwitch _ _ | .setConnected _ _ => m.working ≠ id
  | .cloneVariant _ target _ => target ≠ id
  | .removeVariant other => other ≠ id
  | .release => False
  | _ => True

/-- Calls one after another leave the entry of an id alone. -/
def SparesAll (handle : Nat) (id : String) : List Call → Option VariantMap → Prop
  | [], _ => True
  | call :: calls, x => (∀ m, x = some m → call.Spares id m) ∧
      SparesAll handle id calls (stateAfter (VariantMap.call handle call) x)

end Store

namespace VariantMap

variable {handle : Nat} {α : Type} {id : String} {x : Option VariantMap}

theorem tables_stateAfter_change {f : VariantMap → Except NetworkError (α × VariantMap)}
    (h : ∀ m, x = some m → ∀ a m', f m = .ok (a, m') → m'.tables id = m.tables id) :
    (stateAfter (change handle f) x).bind (·.tables id) = x.bind (·.tables id) := by
  cases x with
  | none => rfl
  | some m =>
    rw [change, stateAfter, run_bind_of_ok (get_some handle m)]
    cases hrun : f m with
    | error e => rfl
    | ok r => exact h m rfl r.1 r.2 hrun

theorem tables_stateAfter_update {f : VariantMap → Except NetworkError VariantMap}
    (h : ∀ m, x = some m → ∀ m', f m = .ok m' → m'.tables id = m.tables id) :
    (stateAfter (update handle f) x).bind (·.tables id) = x.bind (·.tables id) := by
  refine tables_stateAfter_change fun m hm a m' hrun => ?_
  obtain ⟨m'', hm'', heq⟩ := map_eq_ok.mp hrun
  obtain ⟨-, rfl⟩ := Prod.mk.inj heq
  exact h m hm m'' hm''

/-- A change of the tables of the working id leaves the other entries alone. -/
theorem tables_stateAfter_changeTables {f : Tables → Except NetworkError (α × Tables)}
    (h : ∀ m, x = some m → m.working ≠ id) :
    (stateAfter (change handle fun m => m.changeTables f) x).bind (·.tables id) =
      x.bind (·.tables id) := by
  refine tables_stateAfter_change fun m hm a m' hrun => ?_
  obtain ⟨ts, -, hrun⟩ := bind_eq_ok.mp hrun
  obtain ⟨⟨a', us⟩, -, heq⟩ := bind_eq_ok.mp hrun
  obtain ⟨-, rfl⟩ := Prod.mk.inj (Except.ok.inj heq)
  exact if_neg (Ne.symm (h m hm))

theorem tables_stateAfter_ofExcept_bind {β : Type} {y : Except NetworkError β}
    {f : β → MapM α}
    (h : ∀ b, (stateAfter (f b) x).bind (·.tables id) = x.bind (·.tables id)) :
    (stateAfter (ofExcept y >>= f) x).bind (·.tables id) = x.bind (·.tables id) := by
  cases y with
  | error e => rfl
  | ok b => exact h b

theorem tables_of_clone {m m' : VariantMap} {source target : String} {mayOverwrite : Bool}
    (h : m.clone source target mayOverwrite = .ok m') (htarget : target ≠ id) :
    m'.tables id = m.tables id := by
  rw [clone] at h
  split at h
  · cases h
  split at h
  · split at h
    · exact Except.ok.inj h ▸ if_neg (Ne.symm htarget)
    · cases h
  · exact Except.ok.inj h ▸ if_neg (Ne.symm htarget)

theorem tables_of_select {m m' : VariantMap} {other : String} (h : m.select other = .ok m') :
    m'.tables id = m.tables id := by
  rw [select] at h
  split at h
  · exact Except.ok.inj h ▸ rfl
  · cases h

theorem tables_of_remove {m m' : VariantMap} {other : String} (h : m.remove other = .ok m')
    (hother : other ≠ id) : m'.tables id = m.tables id := by
  rw [remove] at h
  split at h
  · cases h
  split at h
  · cases h
  · exact Except.ok.inj h ▸ if_neg (Ne.symm hother)

/-- What only reads leaves all entries alone. -/
theorem stateAfter_read (g : VariantMap → α) :
    stateAfter (get handle >>= fun m => pure (g m)) x = x := by
  cases x <;> rfl

/-- A call leaves the entry of an id that it spares as it is. -/
theorem tables_call_of_spares {call : Store.Call} (h : ∀ m, x = some m → call.Spares id m) :
    (stateAfter (VariantMap.call handle call) x).bind (·.tables id) = x.bind (·.tables id) := by
  cases call with
  | setMetadata metadata =>
    rw [call, stateAfter_map]
    exact tables_stateAfter_update fun m _ m' hm' => Except.ok.inj hm' ▸ rfl
  | addElement c key entries =>
    rw [call, stateAfter_map]
    exact tables_stateAfter_ofExcept_bind fun cells => tables_stateAfter_changeTables h
  | write c column keys batch =>
    rw [call, stateAfter_map]
    exact tables_stateAfter_ofExcept_bind fun cells => tables_stateAfter_changeTables h
  | setSwitch other isOpen =>
    rw [call, stateAfter_map]
    exact tables_stateAfter_changeTables h
  | setConnected other connected =>
    rw [call, stateAfter_map]
    exact tables_stateAfter_changeTables h
  | cloneVariant source target mayOverwrite =>
    rw [call, stateAfter_map]
    exact tables_stateAfter_update fun m hm m' hm' => tables_of_clone hm' (h m hm)
  | selectVariant other =>
    rw [call, stateAfter_map]
    exact tables_stateAfter_update fun m _ m' hm' => tables_of_select hm'
  | removeVariant other =>
    rw [call, stateAfter_map]
    exact tables_stateAfter_update fun m hm m' hm' => tables_of_remove hm' (h m hm)
  | release =>
    cases x with
    | none => rfl
    | some m => exact (h m rfl).elim
  | table c =>
    rw [call, stateAfter_map]
    cases x with
    | none => rfl
    | some m =>
      rw [stateAfter, run_bind_of_ok (get_some handle m)]
      cases m.current <;> rfl
  | metadata | dump | variantIds | workingVariant =>
    rw [call, stateAfter_map, stateAfter_read]

/-- Calls one after another leave an entry that all of them spare as it is. -/
theorem tables_calls_of_sparesAll {calls : List Store.Call}
    (h : Store.SparesAll handle id calls x) :
    (stateAfterAll (calls.map (VariantMap.call handle)) x).bind (·.tables id) =
      x.bind (·.tables id) := by
  induction calls generalizing x with
  | nil => rfl
  | cons call calls ih => exact (ih h.2).trans (tables_call_of_spares h.1)

end VariantMap

/-! ### Runs of calls -/

namespace Store

/-- The tables of the variant of an id in the network of a handle. -/
def tablesOf? (handle : Nat) (id : String) (s : Store) : Option Tables :=
  ((s.network? handle).bind (·.variant? id)).map (·.tables)

theorem Mirrors.tablesOf?_eq {handle : Nat} {s : Store} {x : Option VariantMap}
    (h : Mirrors handle s x) (id : String) : s.tablesOf? handle id = x.bind (·.tables id) := by
  rw [tablesOf?, ← h.map]
  cases s.network? handle <;> rfl

/-- Calls on a network whose ids are apart have the outcomes that they have on its map, and lead
to the map of the network that they leave.  A variant that is spared from some point on is as it
was then, whatever is done to the others. -/
theorem calls_refine_variantMap {handle : Nat} {s : Store} {n : Network}
    (hn : s.network? handle = some n) (hids : n.variantIds.Nodup)
    (hshown : s.reporting.hidden = []) (calls : List Call) :
    outcomes (calls.map (Call.run handle)) s =
        outcomes (calls.map (VariantMap.call handle)) (some n.toMap) ∧
      Mirrors handle (stateAfterAll (calls.map (Call.run handle)) s)
        (stateAfterAll (calls.map (VariantMap.call handle)) (some n.toMap)) ∧
      ∀ before after id, calls = before ++ after →
        SparesAll handle id after
          (stateAfterAll (before.map (VariantMap.call handle)) (some n.toMap)) →
        tablesOf? handle id (stateAfterAll (calls.map (Call.run handle)) s) =
          tablesOf? handle id (stateAfterAll (before.map (Call.run handle)) s) := by
  have hstart : Mirrors handle s (some n.toMap) := by
    refine ⟨by rw [hn, Option.map_some], fun m hm => ?_, hshown⟩
    rw [hn] at hm
    exact Option.some.inj hm ▸ hids
  have hrun (run : List Call) := Simulates.stateAfterAll (Call.simulates handle) run hstart
  refine ⟨Simulates.outcomes_eq (Call.simulates handle) calls hstart, hrun calls, ?_⟩
  rintro before after id rfl hspares
  rw [(hrun (before ++ after)).tablesOf?_eq, (hrun before).tablesOf?_eq, List.map_append,
    stateAfterAll_append]
  exact VariantMap.tables_calls_of_sparesAll hspares

/-- A second load is added while another variant is the working one, which is then copied and
left. -/
def leaveInitial : List Call :=
  [.addElement .load (.plain "L2") [], .cloneVariant Network.initialVariant "later" false,
    .selectVariant "copy", .table .load]

theorem calls_refine_variantMap_oneLoad : ∃ n, oneLoad.network? 1 = some n ∧
    outcomes (leaveInitial.map (Call.run 1)) oneLoad =
        outcomes (leaveInitial.map (VariantMap.call 1)) (some n.toMap) ∧
      Mirrors 1 (stateAfterAll (leaveInitial.map (Call.run 1)) oneLoad)
        (stateAfterAll (leaveInitial.map (VariantMap.call 1)) (some n.toMap)) ∧
      SparesAll 1 "copy" leaveInitial (some n.toMap) ∧
      tablesOf? 1 "copy" (stateAfterAll (leaveInitial.map (Call.run 1)) oneLoad) =
        tablesOf? 1 "copy" oneLoad := by
  obtain ⟨n, hn⟩ : ∃ n, oneLoad.network? 1 = some n :=
    Option.isSome_iff_exists.mp (by decide +kernel)
  have hworking : n.working = Network.initialVariant := by
    have h : (oneLoad.network? 1).map (·.working) = some Network.initialVariant := by
      decide +kernel
    rw [hn] at h
    exact Option.some.inj h
  have hspares : SparesAll 1 "copy" leaveInitial (some n.toMap) := by
    have htarget : "later" ≠ "copy" := by decide
    refine ⟨fun m hm => ?_, fun _ _ => htarget, fun _ _ => trivial, fun _ _ => trivial, trivial⟩
    obtain rfl := Option.some.inj hm
    change n.working ≠ "copy"
    rw [hworking]
    decide
  obtain ⟨houtcomes, hmirrors, hkept⟩ :=
    calls_refine_variantMap hn (identified_oneLoad 1 n hn).ids rfl leaveInitial
  exact ⟨n, hn, houtcomes, hmirrors, hspares, hkept [] leaveInitial "copy" rfl hspares⟩

end Store

end PowerTables
