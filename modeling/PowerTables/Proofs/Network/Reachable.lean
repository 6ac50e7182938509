import PowerTables.Proofs.Network.WellFormed

/-!
# Reachable stores

A store starts empty and is changed by its operations, in any order and any number.  Whatever
they are, its networks are well-formed and its handles apart, and the network of a handle stays
in until it is released.

## Main definitions

* `Store.Operation` : the operations of a store.
* `Store.Reachable` : the stores that some operations lead to.
* `Store.Sound` : the networks of a store are well-formed.
* `Store.WellFormed` : what all reachable stores have in common.
* `Store.Evolves` : what every operation but a release does to a store.

## Main results

* `Store.Reachable.wellFormed` : every reachable store is well-formed.
* `Store.Operation.network?_after` : a network stays in until it is released.
-/

namespace PowerTables

namespace Store

/-! ### Operations in closed form -/

theorem network?_setNetwork (s : Store) (handle other : Nat) (n : Network) :
    (s.setNetwork handle n).network? other =
      if other = handle then (s.network? handle).map fun _ => n else s.network? other := by
  have hkey : ((fun e : Nat × Network => e.1 == other) ∘ fun e =>
      if e.1 = handle then (handle, n) else e) = fun e => e.1 == other := by
    funext e
    by_cases he : e.1 = handle
    · simp [he]
    · simp [he]
  rw [network?, setNetwork, List.find?_map, hkey, Option.map_map]
  cases hfind : s.networks.find? (·.1 == other) with
  | none =>
    split
    · next h =>
      subst h
      rw [network?, hfind]
      rfl
    · rw [network?, hfind]
      rfl
  | some e =>
    have he : e.1 = other := by simpa using List.find?_some hfind
    split
    · next h =>
      subst h
      rw [network?, hfind]
      simp [he]
    · next h =>
      rw [network?, hfind]
      simp [he, h]

theorem network?_setNetwork_self {s : Store} {handle : Nat} {n : Network}
    (h : s.network? handle = some n) (m : Network) :
    (s.setNetwork handle m).network? handle = some m := by
  rw [network?_setNetwork, if_pos rfl, h]
  rfl

theorem network?_setNetwork_of_ne (s : Store) {handle other : Nat} (h : other ≠ handle)
    (m : Network) :
    (s.setNetwork handle m).network? other = s.network? other := by
  rw [network?_setNetwork, if_neg h]

theorem get_eq (handle : Nat) (s : Store) :
    Store.get handle s = match s.network? handle with
      | none => .error (.unknownHandle handle) s
      | some n => .ok n s := by
  rw [Store.get, run_get_bind]
  cases s.network? handle <;> rfl

theorem change_eq {α : Type} (handle : Nat) (f : Network → Except NetworkError (α × Network))
    (s : Store) :
    change handle f s = match s.network? handle with
      | none => .error (.unknownHandle handle) s
      | some n => match f n with
        | .error e => .error e s
        | .ok (a, m) => .ok a (s.setNetwork handle m) := by
  have hget := get_eq handle s
  rw [change]
  cases hn : s.network? handle with
  | none =>
    rw [hn] at hget
    exact run_bind_of_error hget
  | some n =>
    rw [hn] at hget
    rw [run_bind_of_ok hget]
    dsimp only
    cases f n <;> rfl

theorem update_eq (handle : Nat) (f : Network → Except NetworkError Network) (s : Store) :
    update handle f s = match s.network? handle with
      | none => .error (.unknownHandle handle) s
      | some n => match f n with
        | .error e => .error e s
        | .ok m => .ok () (s.setNetwork handle m) := by
  rw [update, change_eq]
  cases s.network? handle with
  | none => rfl
  | some n => cases hrun : f n <;> simp [Except.map, hrun]

theorem typeCode_eq (c : Category) (name : String) (s : Store) :
    typeCode c name s = match s.reporting.typeCode? c name with
      | some code => .ok code s
      | none => .error (.unknownColumn c name) s := by
  rw [typeCode, run_get_bind]
  cases s.reporting.typeCode? c name <;> rfl

/-! ### Well-formed stores -/

/-- The networks are well-formed, and their handles are apart.  The store may report anything about
its columns. -/
structure Sound (s : Store) : Prop where
  networks : ∀ e ∈ s.networks, e.2.WellFormed
  handles : (s.networks.map (·.1)).Nodup

/-- The networks are well-formed, and their handles are apart and were given out before. -/
structure WellFormed (s : Store) : Prop extends Sound s where
  fresh : ∀ e ∈ s.networks, e.1 < s.next
  reporting : s.reporting = {}

theorem wellFormed_empty : WellFormed {} := ⟨⟨by simp, by simp⟩, by simp, rfl⟩

/-- A well-formed store stays so, and the network of a handle stays in. -/
structure Evolves (s s' : Store) : Prop where
  wellFormed : s.WellFormed → s'.WellFormed
  network? : ∀ handle, (s.network? handle).isSome → (s'.network? handle).isSome

variable {s s' : Store} {n : Network} {handle : Nat}

theorem Sound.network (h : s.Sound) (hn : s.network? handle = some n) :
    n.WellFormed := by
  obtain ⟨e, he, rfl⟩ := Option.map_eq_some_iff.mp hn
  exact h.networks e (List.mem_of_find?_eq_some he)

theorem Sound.setNetwork_self (h : s.Sound) (hn : s.network? handle = some n) :
    s.setNetwork handle n = s := by
  obtain ⟨e, he, rfl⟩ := Option.map_eq_some_iff.mp hn
  have hnetworks : s.networks.map (fun e' =>
      if e'.1 = handle then (handle, e.2) else e') = s.networks := by
    refine (List.map_congr_left fun e' he' => ?_).trans (List.map_id _)
    split
    · next heq =>
      have hfound := (find?_key_eq_some_iff h.handles).mpr ⟨he', heq⟩
      rw [he] at hfound
      obtain rfl := Option.some.inj hfound
      exact heq ▸ rfl
    · rfl
  rw [setNetwork, hnetworks]

theorem Evolves.refl (s : Store) : Evolves s s := ⟨id, fun _ => id⟩

theorem Evolves.trans (s t u : Store) (h : Evolves s t) (h' : Evolves t u) : Evolves s u :=
  ⟨h'.wellFormed ∘ h.wellFormed, fun handle => h'.network? handle ∘ h.network? handle⟩

theorem evolves_insertNetwork (s : Store) (hn : n.WellFormed) :
    Evolves s (s.insertNetwork n) := by
  refine ⟨fun hs => ⟨⟨fun e he => ?_, ?_⟩, fun e he => ?_, hs.reporting⟩, fun handle hlive => ?_⟩
  · rcases List.mem_append.mp he with he | he
    · exact hs.networks e he
    · obtain rfl := List.mem_singleton.mp he
      exact hn
  · rw [insertNetwork, List.map_append, List.nodup_append]
    refine ⟨hs.handles, by simp, fun h hmem h' hnext heq => ?_⟩
    obtain ⟨e, he, rfl⟩ := List.mem_map.mp hmem
    obtain rfl : h' = s.next := by simpa using hnext
    exact absurd heq (Nat.ne_of_lt (hs.fresh e he))
  · rcases List.mem_append.mp he with he | he
    · exact Nat.lt_succ_of_lt (hs.fresh e he)
    · obtain rfl := List.mem_singleton.mp he
      exact Nat.lt_succ_self _
  · rw [network?, Option.isSome_map] at hlive ⊢
    rw [insertNetwork, List.find?_append]
    simp [Option.isSome_or, hlive]

theorem evolves_setNetwork (handle : Nat) (hn : s.WellFormed → n.WellFormed) :
    Evolves s (s.setNetwork handle n) := by
  have hhandles : (s.setNetwork handle n).networks.map (·.1) = s.networks.map (·.1) := by
    rw [setNetwork, List.map_map]
    refine List.map_congr_left fun e _ => ?_
    by_cases he : e.1 = handle
    · simp [he]
    · simp [he]
  refine ⟨fun hs => ⟨⟨fun e he => ?_, ?_⟩, fun e he => ?_, hs.reporting⟩, fun other hlive => ?_⟩
  · obtain ⟨e', he', rfl⟩ := List.mem_map.mp he
    split
    · exact hn hs
    · exact hs.networks e' he'
  · exact hhandles ▸ hs.handles
  · have hmem : e.1 ∈ s.networks.map (·.1) := hhandles ▸ List.mem_map_of_mem he
    obtain ⟨e', he', heq⟩ := List.mem_map.mp hmem
    exact heq ▸ hs.fresh e' he'
  · rw [network?_setNetwork]
    split
    · next h =>
      subst h
      rwa [Option.isSome_map]
    · exact hlive

theorem wellFormed_eraseNetwork (handle : Nat) (hs : s.WellFormed) :
    (s.eraseNetwork handle).WellFormed :=
  ⟨⟨fun e he => hs.networks e (List.mem_of_mem_filter he),
    hs.handles.sublist (List.filter_sublist.map _)⟩,
    fun e he => hs.fresh e (List.mem_of_mem_filter he), hs.reporting⟩

theorem network?_eraseNetwork (s : Store) {handle other : Nat} (h : other ≠ handle) :
    (s.eraseNetwork handle).network? other = s.network? other := by
  rw [network?, eraseNetwork, List.find?_filter, network?]
  congr 2
  funext e
  by_cases he : e.1 = other
  · simp [he, h]
  · simp [he]

theorem relates_change {α : Type} {f : Network → Except NetworkError (α × Network)}
    (handle : Nat) (hf : ∀ n a m, n.WellFormed → f n = .ok (a, m) → m.WellFormed) :
    Relates Evolves (change handle f) := by
  intro s
  rw [stateAfter, change_eq]
  cases hn : s.network? handle with
  | none => exact .refl s
  | some n =>
    cases hrun : f n with
    | error e => simpa [hrun] using Evolves.refl s
    | ok r =>
      have hm := evolves_setNetwork handle fun hs => hf n r.1 r.2 (hs.network hn) hrun
      simpa [hrun] using hm

theorem relates_update {f : Network → Except NetworkError Network} (handle : Nat)
    (hf : ∀ n m, n.WellFormed → f n = .ok m → m.WellFormed) :
    Relates Evolves (update handle f) :=
  relates_change handle fun n _ m hn hrun => by
    obtain ⟨m', hm', heq⟩ := map_eq_ok.mp hrun
    obtain ⟨-, rfl⟩ := Prod.mk.inj heq
    exact hf n m' hn hm'

theorem relates_insert (hn : n.WellFormed) : Relates Evolves (insert n) := fun s =>
  evolves_insertNetwork s hn

/-- A computation that does not touch the store, before an operation on its outcome. -/
theorem relates_ofResult_bind {α β : Type} {x : Except NetworkError α} {f : α → StoreM β}
    (hf : ∀ a, x = .ok a → Relates Evolves (f a)) : Relates Evolves (ofResult x >>= f) := by
  cases hx : x with
  | error e => exact fun s => .refl s
  | ok a => exact hf a hx

theorem relates_eq_get (handle : Nat) : Relates Eq (Store.get handle) := by
  intro s
  rw [stateAfter, get_eq]
  cases s.network? handle <;> rfl

theorem relates_get (handle : Nat) : Relates Evolves (Store.get handle) :=
  .of_eq Evolves.refl fun s => (relates_eq_get handle s).symm

theorem relates_eq_table (handle : Nat) (c : Category) : Relates Eq (table handle c) := by
  refine .eq_bind (relates_eq_get handle) fun n => ?_
  cases n.tables <;> exact fun s => rfl

theorem relates_typeCode (c : Category) (column : String) :
    Relates Evolves (typeCode c column) := by
  refine .bind Evolves.trans (fun s => .refl s) fun s => ?_
  cases s.reporting.typeCode? c column <;> exact fun s => .refl s

theorem relates_setSwitch (handle : Nat) (id : String) (isOpen : Bool) :
    Relates Evolves (setSwitch handle id isOpen) :=
  relates_change handle fun _ _ _ hn hm =>
    hn.changeTables (fun _ hts _ _ hus => hts.setSwitch hus) hm

theorem relates_setConnected (handle : Nat) (id : String) (connected : Bool) :
    Relates Evolves (setConnected handle id connected) :=
  relates_change handle fun _ _ _ hn hm =>
    hn.changeTables (fun _ hts _ _ hus => hts.setConnected hus) hm

/-! ### The operations of a store -/

/-- The operations of a store that can change it. -/
inductive Operation
  | create (id : String) (now : Instant)
  | load (text : String)
  | sample (sample : Sample)
  | release (handle : Nat)
  | setMetadata (handle : Nat) (metadata : Metadata)
  | addElement (handle : Nat) (c : Category) (key : RowKey) (entries : List Entry)
  | write (handle : Nat) (c : Category) (column : String) (keys : List RowKey) (batch : Batch)
  | setSwitch (handle : Nat) (id : String) (isOpen : Bool)
  | setConnected (handle : Nat) (id : String) (connected : Bool)
  | cloneVariant (handle : Nat) (source target : String) (mayOverwrite : Bool)
  | selectVariant (handle : Nat) (id : String)
  | removeVariant (handle : Nat) (id : String)

namespace Operation

/-- Carries an operation out. -/
def run : Operation → StoreM Unit
  | .create id now => discard (Store.create id now)
  | .load text => discard (Store.load text)
  | .sample which => discard (ofResult which.network >>= Store.insert)
  | .release handle => Store.release handle
  | .setMetadata handle metadata => Store.setMetadata handle metadata
  | .addElement handle c key entries => Store.addElement handle c key entries
  | .write handle c column keys batch => Store.write handle c column keys batch
  | .setSwitch handle id isOpen => discard (Store.setSwitch handle id isOpen)
  | .setConnected handle id connected => discard (Store.setConnected handle id connected)
  | .cloneVariant handle source target mayOverwrite =>
    Store.cloneVariant handle source target mayOverwrite
  | .selectVariant handle id => Store.selectVariant handle id
  | .removeVariant handle id => Store.removeVariant handle id

/-- The store after an operation, which may have failed. -/
def after (op : Operation) (s : Store) : Store := stateAfter op.run s

end Operation

theorem relates_discard {α : Type} {op : StoreM α} (h : Relates Evolves op) :
    Relates Evolves (discard op) := fun s => by
  rw [stateAfter_discard]
  exact h s

/-- What every operation but a release does to a store. -/
theorem Operation.relates (op : Operation) (hop : ∀ handle, op ≠ .release handle) :
    Relates Evolves op.run := by
  cases op with
  | create id now => exact relates_discard (relates_insert (Network.wellFormed_new _))
  | load text =>
    refine relates_discard fun s => ?_
    rw [Store.load]
    cases hn : Network.ofSnapshot text with
    | error e => exact .refl s
    | ok n => exact relates_insert (.of_ofSnapshot hn) s
  | sample sample =>
    exact relates_discard (relates_ofResult_bind fun n hn => relates_insert (.of_ofElements hn))
  | release handle => exact absurd rfl (hop handle)
  | setMetadata handle metadata =>
    exact relates_update handle fun n m hn hm => Except.ok.inj hm ▸ ⟨hn.working, hn.tables⟩
  | addElement handle c key entries =>
    exact relates_ofResult_bind fun cells _ => relates_update handle fun n m hn hm =>
      hn.updateTables (fun ts hts us hus => hts.push hus) hm
  | write handle c column keys batch =>
    exact relates_ofResult_bind fun cells _ => relates_update handle fun n m hn hm =>
      hn.updateTables (fun ts hts us hus => hts.write hus) hm
  | setSwitch handle id isOpen =>
    exact relates_discard (relates_setSwitch handle id isOpen)
  | setConnected handle id connected =>
    exact relates_discard (relates_setConnected handle id connected)
  | cloneVariant handle source target mayOverwrite =>
    exact relates_update handle fun n m hn hm => hn.cloneVariant hm
  | selectVariant handle id => exact relates_update handle fun n m hn hm => hn.selectVariant hm
  | removeVariant handle id => exact relates_update handle fun n m hn hm => hn.removeVariant hm

theorem after_release (handle : Nat) (s : Store) :
    (Operation.release handle).after s = s ∨
      (Operation.release handle).after s = s.eraseNetwork handle := by
  change stateAfter (Store.get handle >>= fun _ => modify fun s => s.eraseNetwork handle) s = s ∨
    stateAfter (Store.get handle >>= fun _ => modify fun s => s.eraseNetwork handle) s = _
  have hget := get_eq handle s
  cases hn : s.network? handle with
  | none =>
    rw [hn] at hget
    exact .inl (stateAfter_error (run_bind_of_error hget))
  | some n =>
    rw [hn] at hget
    exact .inr (stateAfter_ok (run_bind_of_ok hget))

theorem Operation.wellFormed_after (op : Operation) (hs : s.WellFormed) :
    (op.after s).WellFormed := by
  by_cases hop : ∀ handle, op ≠ .release handle
  · exact (op.relates hop s).wellFormed hs
  · simp only [ne_eq, not_forall, not_not] at hop
    obtain ⟨handle, rfl⟩ := hop
    rcases after_release handle s with h | h
    · rwa [h]
    · rw [h]
      exact wellFormed_eraseNetwork handle hs

/-- The network of a handle stays in until the handle is released. -/
theorem Operation.network?_after (op : Operation) (hop : op ≠ .release handle)
    (hlive : (s.network? handle).isSome) : ((op.after s).network? handle).isSome := by
  by_cases hrelease : ∀ other, op ≠ .release other
  · exact (op.relates hrelease s).network? handle hlive
  · simp only [ne_eq, not_forall, not_not] at hrelease
    obtain ⟨other, rfl⟩ := hrelease
    rcases after_release other s with h | h
    · rwa [h]
    · have hne : handle ≠ other := fun heq => hop (by rw [heq])
      rwa [h, network?_eraseNetwork s hne]

/-- The stores that operations lead to from the empty one. -/
inductive Reachable : Store → Prop
  | empty : Reachable {}
  | after {s : Store} (op : Operation) : Reachable s → Reachable (op.after s)

/-- Every reachable store is well-formed. -/
theorem Reachable.wellFormed (h : s.Reachable) : s.WellFormed := by
  induction h with
  | empty => exact wellFormed_empty
  | after op _ ih => exact op.wellFormed_after ih

end Store

end PowerTables
