import PowerTables.Proofs.Network.Reachable
import PowerTables.Session.Variants

/-!
# The two ways to the variants

The variants of a network are changed through the store, or through the access of a session, which
asks for the variants first and only then lets the store do its work.  Both check the same things
in the same order, so both refuse the same operations.  What differs is the name of a refusal: the
access has errors of its own for the three that concern variants, and passes on only that a handle
is unknown.

## Main definitions

* `VariantOperation` : what can be done to the variants of a network.
* `NetworkError.inSession` : the refusal of a session that has the name of one of the store.

## Main results

* `VariantOperation.through_eq` : what the access makes of a network.
* `VariantOperation.through_agrees` : the ways in which both can end.
-/

namespace PowerTables

/-- What can be done to the variants of a network. -/
inductive VariantOperation
  | clone (source target : String) (mayOverwrite : Bool)
  | select (id : String)
  | remove (id : String)

namespace VariantOperation

/-- Carries an operation out on the store. -/
def onStore (handle : Nat) : VariantOperation → StoreM Unit
  | .clone source target mayOverwrite => Store.cloneVariant handle source target mayOverwrite
  | .select id => Store.selectVariant handle id
  | .remove id => Store.removeVariant handle id

/-- Carries an operation out through the access of a session. -/
def through (v : VariantAccess) : VariantOperation → SessionM Unit
  | .clone source target mayOverwrite => v.clone source target mayOverwrite
  | .select id => v.select id
  | .remove id => v.remove id

/-- What an operation makes of a network, or why it is refused. -/
def result (n : Network) : VariantOperation → Except NetworkError Network
  | .clone source target mayOverwrite => n.cloneVariant source target mayOverwrite
  | .select id => n.selectVariant id
  | .remove id => n.removeVariant id

end VariantOperation

/-- The refusal of a session that has the name of a refusal of the store; one without a namesake
is passed on as it is. -/
def NetworkError.inSession : NetworkError → SessionError
  | .unknownVariant id => .unknownVariant id
  | .variantExists id => .variantExists id
  | .variantInUse id => .variantInUse id
  | e => .network e

/-! ### What the store does -/

namespace VariantOperation

theorem onStore_eq (op : VariantOperation) (handle : Nat) (s : Store) :
    op.onStore handle s = match s.network? handle with
      | none => .error (.unknownHandle handle) s
      | some n => match op.result n with
        | .error e => .error e s
        | .ok m => .ok () (s.setNetwork handle m) := by
  cases op with
  | clone source target mayOverwrite => exact Store.update_eq handle _ s
  | select id => exact Store.update_eq handle _ s
  | remove id => exact Store.update_eq handle _ s

/-- The refusals of an operation on variants are the three that a session has a name for. -/
theorem cases_result (op : VariantOperation) (n : Network) :
    (∃ m, op.result n = .ok m) ∨ (∃ id, op.result n = .error (.unknownVariant id)) ∨
      (∃ id, op.result n = .error (.variantExists id)) ∨
      ∃ id, op.result n = .error (.variantInUse id) := by
  cases op with
  | clone source target mayOverwrite =>
    rw [result, Network.cloneVariant]
    cases n.variant? source with
    | none => exact .inr (.inl ⟨source, rfl⟩)
    | some v =>
      dsimp only
      split
      · split
        · exact .inl ⟨_, rfl⟩
        · exact .inr (.inr (.inl ⟨target, rfl⟩))
      · exact .inl ⟨_, rfl⟩
  | select id =>
    rw [result, Network.selectVariant]
    split
    · exact .inl ⟨_, rfl⟩
    · exact .inr (.inl ⟨id, rfl⟩)
  | remove id =>
    rw [result, Network.removeVariant]
    split
    · exact .inr (.inl ⟨id, rfl⟩)
    · split
      · exact .inr (.inr (.inr ⟨id, rfl⟩))
      · exact .inl ⟨_, rfl⟩

end VariantOperation

/-! ### What the access does -/

namespace Network

variable {n : Network} {id : String}

theorem contains_variantIds (n : Network) (id : String) :
    n.variantIds.contains id = n.hasVariant id := by
  rw [Bool.eq_iff_iff, List.contains_iff_mem, hasVariant_iff]

theorem variant?_eq_none (h : n.hasVariant id = false) : n.variant? id = none := by
  rw [variant?, List.find?_eq_none]
  simpa [hasVariant] using h

end Network

namespace VariantAccess

variable {v : VariantAccess} {state : SessionState} {n : Network}

theorem list_error (h : state.store.network? v.handle = none) :
    v.list state = .error (.network (.unknownHandle v.handle)) state := by
  have hget := Store.get_eq v.handle state.store
  rw [h] at hget
  rw [list, Session.onStore, Store.variantIds, run_bind_of_error hget]

theorem list_ok (h : state.store.network? v.handle = some n) :
    v.list state = .ok n.variantIds state := by
  have hget := Store.get_eq v.handle state.store
  rw [h] at hget
  rw [list, Session.onStore, Store.variantIds, run_bind_of_ok hget]
  rfl

theorem current_ok (h : state.store.network? v.handle = some n) :
    v.current state = .ok n.working state := by
  have hget := Store.get_eq v.handle state.store
  rw [h] at hget
  rw [current, Session.onStore, Store.workingVariant, run_bind_of_ok hget]
  rfl

theorem require_error (h : state.store.network? v.handle = none) (id : String) :
    v.require id state = .error (.network (.unknownHandle v.handle)) state :=
  run_bind_of_error (list_error h)

theorem require_ok (h : state.store.network? v.handle = some n) (id : String) :
    v.require id state =
      if n.hasVariant id then .ok () state else .error (.unknownVariant id) state := by
  refine (run_bind_of_ok (list_ok h)).trans ?_
  rw [n.contains_variantIds]
  cases n.hasVariant id <;> rfl

end VariantAccess

namespace VariantOperation

open VariantAccess

/-- How a session ends an operation that makes something of the network of a handle. -/
def ended (handle : Nat) (state : SessionState) :
    Except NetworkError Network → EStateM.Result SessionError SessionState Unit
  | .ok m => .ok () { state with store := state.store.setNetwork handle m }
  | .error e => .error e.inSession state

section Live

variable {handle : Nat} {state : SessionState} {n : Network}

/-- A change that the network accepts is carried out by the store. -/
theorem onStore_update_ok (hn : state.store.network? handle = some n)
    {f : Network → Except NetworkError Network} (hf : ∃ m, f n = .ok m) :
    Session.onStore (Store.update handle f) state = ended handle state (f n) := by
  obtain ⟨m, hm⟩ := hf
  rw [Session.onStore, Store.update_eq, hn]
  simp only [hm]
  rfl

theorem clone_eq (hn : state.store.network? handle = some n) (source target : String)
    (mayOverwrite : Bool) :
    VariantAccess.clone ⟨handle⟩ source target mayOverwrite state =
      ended handle state (n.cloneVariant source target mayOverwrite) := by
  have hrequire := require_ok (v := ⟨handle⟩) hn source
  cases hsource : n.hasVariant source with
  | false =>
    rw [hsource] at hrequire
    rw [Network.cloneVariant, Network.variant?_eq_none hsource]
    exact run_bind_of_error hrequire
  | true =>
    rw [hsource] at hrequire
    obtain ⟨v, hv⟩ := Network.exists_variant? hsource
    refine (run_bind_of_ok hrequire).trans ?_
    have hupdate := onStore_update_ok hn (f := fun n => n.cloneVariant source target mayOverwrite)
    rw [Network.cloneVariant, hv] at hupdate ⊢
    cases mayOverwrite with
    | true =>
      -- nothing more is asked, and the store accepts whether the target is there or not
      refine hupdate ?_
      dsimp only
      split
      · exact ⟨_, rfl⟩
      · exact ⟨_, rfl⟩
    | false =>
      refine (run_bind_of_ok (list_ok (v := ⟨handle⟩) hn)).trans ?_
      rw [n.contains_variantIds]
      cases htarget : n.hasVariant target with
      | true => rfl
      | false =>
        rw [htarget] at hupdate
        exact hupdate ⟨_, rfl⟩

theorem select_eq (hn : state.store.network? handle = some n) (id : String) :
    VariantAccess.select ⟨handle⟩ id state = ended handle state (n.selectVariant id) := by
  have hrequire := require_ok (v := ⟨handle⟩) hn id
  have hupdate := onStore_update_ok hn (f := fun n => n.selectVariant id)
  rw [Network.selectVariant] at hupdate ⊢
  cases hid : n.hasVariant id with
  | false =>
    rw [hid] at hrequire
    exact run_bind_of_error hrequire
  | true =>
    rw [hid] at hrequire hupdate
    exact (run_bind_of_ok hrequire).trans (hupdate ⟨_, rfl⟩)

theorem remove_eq (hn : state.store.network? handle = some n) (id : String) :
    VariantAccess.remove ⟨handle⟩ id state = ended handle state (n.removeVariant id) := by
  have hrequire := require_ok (v := ⟨handle⟩) hn id
  have hupdate := onStore_update_ok hn (f := fun n => n.removeVariant id)
  rw [Network.removeVariant] at hupdate ⊢
  cases hid : n.hasVariant id with
  | false =>
    rw [hid] at hrequire
    exact run_bind_of_error hrequire
  | true =>
    rw [hid] at hrequire hupdate
    refine (run_bind_of_ok hrequire).trans ?_
    refine (run_bind_of_ok (current_ok (v := ⟨handle⟩) hn)).trans ?_
    by_cases hworking : n.working = id
    · rw [if_pos hworking, if_pos hworking]
      rfl
    · rw [if_neg hworking, if_neg hworking]
      rw [if_neg hworking] at hupdate
      exact hupdate ⟨_, rfl⟩

/-- Through the access, a network becomes what the store makes of it. -/
theorem through_eq (hn : state.store.network? handle = some n) (op : VariantOperation) :
    op.through ⟨handle⟩ state = ended handle state (op.result n) := by
  cases op with
  | clone source target mayOverwrite => exact clone_eq hn source target mayOverwrite
  | select id => exact select_eq hn id
  | remove id => exact remove_eq hn id

end Live

/-- On every store, and for every handle, an operation on variants ends in the same way through
the access of a session and on the store itself: both succeed with the same store, or both change
nothing and fail, with the error of one name and one id if it is about a variant.  Only that the
handle is unknown is passed on as an error of the store. -/
theorem through_agrees (op : VariantOperation) (handle : Nat) (state : SessionState) :
    (∃ store, op.onStore handle state.store = .ok () store ∧
      op.through ⟨handle⟩ state = .ok () { state with store := store }) ∨
    (∃ id, op.onStore handle state.store = .error (.unknownVariant id) state.store ∧
      op.through ⟨handle⟩ state = .error (.unknownVariant id) state) ∨
    (∃ id, op.onStore handle state.store = .error (.variantExists id) state.store ∧
      op.through ⟨handle⟩ state = .error (.variantExists id) state) ∨
    (∃ id, op.onStore handle state.store = .error (.variantInUse id) state.store ∧
      op.through ⟨handle⟩ state = .error (.variantInUse id) state) ∨
    (state.store.network? handle = none ∧
      op.onStore handle state.store = .error (.unknownHandle handle) state.store ∧
      op.through ⟨handle⟩ state = .error (.network (.unknownHandle handle)) state) := by
  have hstore := op.onStore_eq handle state.store
  cases hn : state.store.network? handle with
  | none =>
    rw [hn] at hstore
    refine .inr (.inr (.inr (.inr ⟨rfl, hstore, ?_⟩)))
    cases op with
    | clone source target mayOverwrite => exact run_bind_of_error (require_error hn source)
    | select id => exact run_bind_of_error (require_error hn id)
    | remove id => exact run_bind_of_error (require_error hn id)
  | some n =>
    rw [hn] at hstore
    have hthrough := through_eq hn op
    rcases op.cases_result n with ⟨m, hm⟩ | ⟨id, hid⟩ | ⟨id, hid⟩ | ⟨id, hid⟩
    · simp only [hm] at hstore hthrough
      exact .inl ⟨_, hstore, hthrough⟩
    · simp only [hid] at hstore hthrough
      exact .inr (.inl ⟨id, hstore, hthrough⟩)
    · simp only [hid] at hstore hthrough
      exact .inr (.inr (.inl ⟨id, hstore, hthrough⟩))
    · simp only [hid] at hstore hthrough
      exact .inr (.inr (.inr (.inl ⟨id, hstore, hthrough⟩)))

end VariantOperation

end PowerTables
