import PowerTables.Proofs.Network.Reachable

/-!
# Operations network by network

An operation of a store changes the network of one handle, takes a network in, or lets one go.
What it does to the network of each handle is told here once, so that a property of networks is
followed through an operation without looking at the store again.

## Main definitions

* `Store.Operation.handle?` : the handle whose network an operation changes.
* `Store.Operation.result` : what the operation makes of that network, or why it is refused.
* `Store.Replaces` : how an operation that replaces a network can end.
* `Store.Operation.incoming?` : the network that an operation takes in.

## Main results

* `Store.Operation.replaces` : an operation on a network replaces it, or fails and changes nothing.
* `Store.Operation.network?_after_cases` : the network of a handle after an operation.
-/

namespace PowerTables

namespace Store

variable {s : Store} {handle : Nat}

/-! ### What an operation does -/

namespace Operation

/-- The handle whose network an operation changes; none for an operation by which a network
comes or goes. -/
def handle? : Operation → Option Nat
  | .create _ _ | .load _ | .sample _ | .release _ => none
  | .setMetadata handle _ => some handle
  | .addElement handle _ _ _ => some handle
  | .write handle _ _ _ _ => some handle
  | .setSwitch handle _ _ => some handle
  | .setConnected handle _ _ => some handle
  | .cloneVariant handle _ _ _ => some handle
  | .selectVariant handle _ => some handle
  | .removeVariant handle _ => some handle

/-- What an operation makes of the network of its handle, or why it is refused. -/
def result (op : Operation) (n : Network) : Except NetworkError Network :=
  match op with
  | .create _ _ | .load _ | .sample _ | .release _ => .ok n
  | .setMetadata _ metadata => .ok { n with metadata := metadata }
  | .addElement _ c key entries => n.add ⟨c, key, entries⟩
  | .write _ c column keys batch => do
    let cells ← c.cellsFor column keys batch
    n.updateTables fun ts => ts.write c column keys cells
  | .setSwitch _ id isOpen => (n.changeTables fun ts => ts.setSwitch id isOpen).map (·.2)
  | .setConnected _ id connected =>
    (n.changeTables fun ts => ts.setConnected id connected).map (·.2)
  | .cloneVariant _ source target mayOverwrite => n.cloneVariant source target mayOverwrite
  | .selectVariant _ id => n.selectVariant id
  | .removeVariant _ id => n.removeVariant id

/-- The network that an operation takes in, if it is one that does and finds no fault with it. -/
def incoming? : Operation → Option Network
  | .create id now => some (.new (Network.plainMetadata id now))
  | .load text => (Network.ofSnapshot text).toOption
  | .sample which => which.network.toOption
  | _ => none

end Operation

/-! ### Changes of a network -/

/-- How an operation that replaces the network of a handle by what `f` makes of it can end. -/
def Replaces {α : Type} (op : StoreM α) (handle : Nat) (f : Network → Except NetworkError Network)
    (s : Store) : Prop :=
  (∃ n m a, s.network? handle = some n ∧ f n = .ok m ∧ op s = .ok a (s.setNetwork handle m)) ∨
    (∃ e, op s = .error e s) ∧ ∀ n, s.network? handle = some n → ∃ e, f n = .error e

theorem replaces_change {α : Type} (handle : Nat)
    (f : Network → Except NetworkError (α × Network)) (s : Store) :
    Replaces (change handle f) handle (fun n => (f n).map (·.2)) s := by
  rw [Replaces, change_eq]
  cases hn : s.network? handle with
  | none => exact .inr ⟨⟨_, rfl⟩, nofun⟩
  | some n =>
    cases hrun : f n with
    | error e =>
      refine .inr ⟨⟨e, by simp [hrun]⟩, fun n' hn' => ⟨e, ?_⟩⟩
      obtain rfl := Option.some.inj hn'
      rw [hrun]
      rfl
    | ok r => exact .inl ⟨n, r.2, r.1, rfl, by rw [hrun]; rfl, by simp [hrun]⟩

theorem replaces_update (handle : Nat) (f : Network → Except NetworkError Network) (s : Store) :
    Replaces (update handle f) handle f s := by
  have hf : (fun n => ((f n).map fun m => ((), m)).map (·.2)) = f := by
    funext n
    cases f n <;> rfl
  have h := replaces_change handle (fun n => (f n).map fun m => ((), m)) s
  rwa [hf] at h

theorem Replaces.discard {α : Type} {op : StoreM α} {f : Network → Except NetworkError Network}
    (h : Replaces op handle f s) : Replaces (discard op) handle f s := by
  rcases h with ⟨n, m, a, hn, hm, hrun⟩ | ⟨⟨e, hrun⟩, herror⟩
  · exact .inl ⟨n, m, (), hn, hm, run_bind_of_ok hrun⟩
  · exact .inr ⟨⟨e, run_bind_of_error hrun⟩, herror⟩

theorem Replaces.eq_of_error {α : Type} {op : StoreM α} {f : Network → Except NetworkError Network}
    {e : NetworkError} {s' : Store} (h : Replaces op handle f s) (he : op s = .error e s') :
    s' = s := by
  rcases h with ⟨n, m, a, -, -, hrun⟩ | ⟨⟨e', hrun⟩, -⟩
  · cases hrun.symm.trans he
  · cases hrun.symm.trans he
    rfl

/-- What is settled before the network is looked at is a part of the change. -/
theorem replaces_ofResult_update {α : Type} (x : Except NetworkError α) (handle : Nat)
    (f : α → Network → Except NetworkError Network) (s : Store) :
    Replaces (ofResult x >>= fun a => update handle (f a)) handle
      (fun n => x >>= fun a => f a n) s := by
  cases x with
  | ok a => exact replaces_update handle (f a) s
  | error e => exact .inr ⟨⟨e, rfl⟩, fun n _ => ⟨e, rfl⟩⟩

/-- An operation on a network replaces it by what it makes of it, or fails and leaves the store
as it is. -/
theorem Operation.replaces {op : Operation} (h : op.handle? = some handle) (s : Store) :
    Replaces op.run handle op.result s := by
  cases op with
  | create | load | sample | release => cases h
  | setMetadata other metadata =>
    obtain rfl := Option.some.inj h
    exact replaces_update _ _ s
  | addElement other c key entries =>
    obtain rfl := Option.some.inj h
    exact replaces_ofResult_update _ _ _ s
  | write other c column keys batch =>
    obtain rfl := Option.some.inj h
    exact replaces_ofResult_update _ _ _ s
  | setSwitch other id isOpen =>
    obtain rfl := Option.some.inj h
    exact (replaces_change _ _ s).discard
  | setConnected other id connected =>
    obtain rfl := Option.some.inj h
    exact (replaces_change _ _ s).discard
  | cloneVariant other source target mayOverwrite =>
    obtain rfl := Option.some.inj h
    exact replaces_update _ _ s
  | selectVariant other id =>
    obtain rfl := Option.some.inj h
    exact replaces_update _ _ s
  | removeVariant other id =>
    obtain rfl := Option.some.inj h
    exact replaces_update _ _ s

/-! ### Networks come and go -/

/-- An operation on no network that is there takes one in, unless it lets one go. -/
theorem Operation.after_eq_of_incoming? {op : Operation} (h : op.handle? = none)
    (hop : ∀ handle, op ≠ .release handle) (s : Store) :
    op.after s = op.incoming?.elim s s.insertNetwork := by
  cases op with
  | create id now => exact stateAfter_discard _ s
  | load text =>
    refine (stateAfter_discard _ s).trans ?_
    rw [Store.load, incoming?]
    cases Network.ofSnapshot text <;> rfl
  | sample which =>
    refine (stateAfter_discard _ s).trans ?_
    rw [incoming?]
    cases which.network <;> rfl
  | release handle => exact absurd rfl (hop handle)
  | _ => cases h

theorem network?_insertNetwork (s : Store) (n : Network) (other : Nat) :
    (s.insertNetwork n).network? other = s.network? other ∨
      other = s.next ∧ (s.insertNetwork n).network? other = some n := by
  rw [network?, insertNetwork, List.find?_append, network?]
  cases hfind : s.networks.find? (·.1 == other) with
  | some e => exact .inl rfl
  | none =>
    by_cases hother : s.next = other
    · exact .inr ⟨hother.symm, by simp [hother]⟩
    · exact .inl (by simp [hother])

theorem network?_insertNetwork_next {s : Store} (h : s.network? s.next = none) (n : Network) :
    (s.insertNetwork n).network? s.next = some n := by
  rw [network?, Option.map_eq_none_iff] at h
  rw [network?, insertNetwork, List.find?_append, h]
  simp

theorem network?_eraseNetwork_self (s : Store) (handle : Nat) :
    (s.eraseNetwork handle).network? handle = none := by
  rw [network?, eraseNetwork, Option.map_eq_none_iff, List.find?_eq_none]
  intro e he
  simpa using List.of_mem_filter he

/-- After an operation, the network of a handle is the one before, or what the operation made of
it, or the one that it took in, or gone. -/
theorem Operation.network?_after_cases (op : Operation) (s : Store) (handle : Nat) :
    (op.after s).network? handle = s.network? handle ∨
      (op.handle? = some handle ∧ ∃ n m, s.network? handle = some n ∧ op.result n = .ok m ∧
        (op.after s).network? handle = some m) ∨
      (∃ n, op.incoming? = some n ∧ handle = s.next ∧
        (op.after s).network? handle = some n) ∨
      (op = .release handle ∧ (op.after s).network? handle = none) := by
  cases hhandle : op.handle? with
  | some own =>
    rcases op.replaces hhandle s with ⟨n, m, a, hn, hm, hrun⟩ | ⟨⟨e, hrun⟩, -⟩
    · rw [Operation.after, stateAfter_ok hrun]
      by_cases hown : handle = own
      · subst hown
        exact .inr (.inl ⟨rfl, n, m, hn, hm, network?_setNetwork_self hn m⟩)
      · exact .inl (network?_setNetwork_of_ne s hown m)
    · exact .inl (by rw [Operation.after, stateAfter_error hrun])
  | none =>
    by_cases hop : ∃ own, op = .release own
    · obtain ⟨own, rfl⟩ := hop
      rcases after_release own s with h | h
      · exact .inl (by rw [h])
      · rw [h]
        by_cases hown : handle = own
        · subst hown
          exact .inr (.inr (.inr ⟨rfl, network?_eraseNetwork_self s handle⟩))
        · exact .inl (network?_eraseNetwork s hown)
    · rw [op.after_eq_of_incoming? hhandle (not_exists.mp hop) s]
      cases hincoming : op.incoming? with
      | none => exact .inl rfl
      | some n =>
        rcases network?_insertNetwork s n handle with hsame | ⟨hnext, hnew⟩
        · exact .inl hsame
        · exact .inr (.inr (.inl ⟨n, rfl, hnext, hnew⟩))

end Store

end PowerTables
