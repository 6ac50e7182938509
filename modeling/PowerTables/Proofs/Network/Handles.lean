import PowerTables.Proofs.Network.Calls
import PowerTables.Proofs.Simulation

/-!
# Handles

A call reaches one network only, that of its handle, and what comes of it is told by that network
alone.  So a request does one of three things to the handles of a store: it takes a network in
under the next handle, it lets the network of a handle go, or it leaves all handles as they are.
Over a run the handles that were given out are counted up from one, and a network is there if its
handle was given out and not released since.

## Main definitions

* `Store.Call.check`, `Store.Call.effect` : what a call refuses at once, and what it makes of the
  network of its handle.
* `Store.Request.arrival?` : the network that a request takes in, or why it does not.
* `Store.givenOut`, `Store.letGo` : the handles that a run gives out, and those that it releases.

## Main results

* `Store.Call.run_eq` : a call in closed form.
* `Store.Request.cases_run` : what a request does to the handles.
* `Store.Counted.run` : the handles after a run.
-/

namespace PowerTables

/-! ### Refusals that name no handle -/

/-- The handle that an error is about. -/
def NetworkError.handle? : NetworkError → Option Nat
  | .unknownHandle handle => some handle
  | _ => none

/-- Where a computation fails, its error is not about a handle. -/
def NamesNoHandle {α : Type} (x : Except NetworkError α) : Prop :=
  ∀ e, x = .error e → e.handle? = none

namespace NamesNoHandle

variable {α β : Type} {x : Except NetworkError α}

theorem of_ok (a : α) : NamesNoHandle (.ok a : Except NetworkError α) := nofun

theorem of_error {e : NetworkError} (h : e.handle? = none) :
    NamesNoHandle (.error e : Except NetworkError α) := by
  rintro _ ⟨⟩
  exact h

theorem bind {f : α → Except NetworkError β} (hx : NamesNoHandle x)
    (hf : ∀ a, NamesNoHandle (f a)) : NamesNoHandle (x >>= f) := by
  cases x with
  | error e => exact of_error (hx e rfl)
  | ok a => exact hf a

theorem map (hx : NamesNoHandle x) (f : α → β) : NamesNoHandle (x.map f) := by
  cases x with
  | error e => exact of_error (hx e rfl)
  | ok a => exact of_ok (f a)

theorem forM {l : List α} {f : α → Except NetworkError Unit} (hf : ∀ a, NamesNoHandle (f a)) :
    NamesNoHandle (l.forM f) := by
  induction l with
  | nil => exact of_ok ()
  | cons a l ih => exact bind (hf a) fun _ => ih

theorem foldlM {l : List β} {f : α → β → Except NetworkError α}
    (hf : ∀ a b, NamesNoHandle (f a b)) (a : α) : NamesNoHandle (l.foldlM f a) := by
  induction l generalizing a with
  | nil => exact of_ok a
  | cons b l ih => exact bind (hf a b) ih

end NamesNoHandle

open NamesNoHandle

theorem Category.namesNoHandle_newRow (c : Category) (key : RowKey) (entries : List Entry) :
    NamesNoHandle (c.newRow key entries) := by
  have hentry (entry : Entry) : NamesNoHandle (c.checkEntry entry) := by
    rw [checkEntry]
    split
    · exact of_error rfl
    · split
      · exact of_ok ()
      · exact of_error rfl
  rw [newRow]
  dsimp only
  split
  · exact of_error rfl
  · exact bind (forM hentry) fun _ => of_ok _

theorem Category.namesNoHandle_cellsFor (c : Category) (column : String) (keys : List RowKey)
    (batch : Batch) : NamesNoHandle (c.cellsFor column keys batch) := by
  rw [cellsFor]
  split
  · exact of_error rfl
  · split
    · exact of_error rfl
    · split
      · exact of_error rfl
      · split
        · exact of_error rfl
        · exact of_ok _

namespace Tables

variable (ts : Tables)

theorem namesNoHandle_push (c : Category) (key : RowKey) (cells : List Cell) :
    NamesNoHandle (ts.push c key cells) := by
  rw [push]
  split
  · exact of_ok _
  · exact of_error rfl

theorem namesNoHandle_write (c : Category) (column : String) (keys : List RowKey)
    (cells : List Cell) : NamesNoHandle (ts.write c column keys cells) := by
  rw [write]
  split
  · exact of_error rfl
  · split
    · exact of_error rfl
    · split
      · exact of_ok _
      · exact of_error rfl

theorem namesNoHandle_setSwitch (id : String) (isOpen : Bool) :
    NamesNoHandle (ts.setSwitch id isOpen) := by
  rw [setSwitch]
  split
  · exact of_error rfl
  · split
    · exact of_ok _
    · exact of_error rfl

theorem namesNoHandle_setConnected (id : String) (connected : Bool) :
    NamesNoHandle (ts.setConnected id connected) := by
  rw [setConnected]
  split
  · exact of_error rfl
  · split
    · exact of_ok _
    · exact of_error rfl

end Tables

namespace Network

variable (n : Network)

theorem namesNoHandle_tables : NamesNoHandle n.tables := by
  rw [tables]
  split
  · exact of_ok _
  · exact of_error rfl

theorem namesNoHandle_updateTables {f : Tables → Except NetworkError Tables}
    (hf : ∀ ts, NamesNoHandle (f ts)) : NamesNoHandle (n.updateTables f) :=
  bind n.namesNoHandle_tables fun ts => bind (hf ts) fun _ => of_ok _

theorem namesNoHandle_changeTables {α : Type} {f : Tables → Except NetworkError (α × Tables)}
    (hf : ∀ ts, NamesNoHandle (f ts)) : NamesNoHandle (n.changeTables f) :=
  bind n.namesNoHandle_tables fun ts => bind (hf ts) fun _ => of_ok _

theorem namesNoHandle_add (e : Element) : NamesNoHandle (n.add e) :=
  bind (e.category.namesNoHandle_newRow e.key e.entries) fun _ =>
    n.namesNoHandle_updateTables fun ts => ts.namesNoHandle_push _ _ _

theorem namesNoHandle_cloneVariant (source target : String) (mayOverwrite : Bool) :
    NamesNoHandle (n.cloneVariant source target mayOverwrite) := by
  rw [cloneVariant]
  split
  · exact of_error rfl
  · split
    · split
      · exact of_ok _
      · exact of_error rfl
    · exact of_ok _

theorem namesNoHandle_selectVariant (id : String) : NamesNoHandle (n.selectVariant id) := by
  rw [selectVariant]
  split
  · exact of_ok _
  · exact of_error rfl

theorem namesNoHandle_removeVariant (id : String) : NamesNoHandle (n.removeVariant id) := by
  rw [removeVariant]
  split
  · exact of_error rfl
  · split
    · exact of_error rfl
    · exact of_ok _

end Network

namespace Store

/-! ### Calls in closed form -/

/-- What becomes of the network of a handle. -/
inductive Fate
  | kept
  | replaced (n : Network)
  | released

/-- The store after the network of a handle met its fate. -/
def settle (s : Store) (handle : Nat) : Fate → Store
  | .kept => s
  | .replaced n => s.setNetwork handle n
  | .released => s.eraseNetwork handle

namespace Call

/-- What a call refuses before it looks for the network. -/
def check : Call → Except NetworkError Unit
  | .addElement c key entries => (c.newRow key entries).map fun _ => ()
  | .write c column keys batch => (c.cellsFor column keys batch).map fun _ => ()
  | _ => .ok ()

/-- What a call answers about a network and makes of it, or why it is refused. -/
def effect (n : Network) : Call → Except NetworkError (Answer × Fate)
  | .setMetadata m => .ok (.done, .replaced { n with metadata := m })
  | .addElement c key entries => (n.add ⟨c, key, entries⟩).map fun m => (.done, .replaced m)
  | .write c column keys batch =>
    (c.cellsFor column keys batch >>= fun cells =>
      n.updateTables fun ts => ts.write c column keys cells).map fun m => (.done, .replaced m)
  | .setSwitch id isOpen =>
    (n.changeTables fun ts => ts.setSwitch id isOpen).map fun r => (.flag r.1, .replaced r.2)
  | .setConnected id connected =>
    (n.changeTables fun ts => ts.setConnected id connected).map fun r =>
      (.flag r.1, .replaced r.2)
  | .cloneVariant source target mayOverwrite =>
    (n.cloneVariant source target mayOverwrite).map fun m => (.done, .replaced m)
  | .selectVariant id => (n.selectVariant id).map fun m => (.done, .replaced m)
  | .removeVariant id => (n.removeVariant id).map fun m => (.done, .replaced m)
  | .release => .ok (.done, .released)
  | .metadata => .ok (.metadata n.metadata, .kept)
  | .table c => n.tables.map fun ts => (.table (ts c), .kept)
  | .dump => .ok (.text n.snapshot, .kept)
  | .variantIds => .ok (.names n.variantIds, .kept)
  | .workingVariant => .ok (.text n.working, .kept)

/-- How a call ends that was checked and has an effect on the network of its handle. -/
def finish (s : Store) (handle : Nat) :
    Except NetworkError (Answer × Fate) → EStateM.Result NetworkError Store Answer
  | .error e => .error e s
  | .ok (a, fate) => .ok a (s.settle handle fate)

variable {s : Store} {handle : Nat} {n : Network}

theorem answering_update (handle : Nat) (f : Network → Except NetworkError Network) (s : Store) :
    answering (update handle f) s = match s.network? handle with
      | none => .error (.unknownHandle handle) s
      | some n => finish s handle ((f n).map fun m => (.done, .replaced m)) := by
  rw [answering, map_run, update_eq]
  cases s.network? handle with
  | none => rfl
  | some n => cases hf : f n <;> simp only [hf] <;> rfl

theorem flag_change (handle : Nat) (f : Network → Except NetworkError (Bool × Network))
    (s : Store) :
    (Answer.flag <$> change handle f) s = match s.network? handle with
      | none => .error (.unknownHandle handle) s
      | some n => finish s handle ((f n).map fun r => (.flag r.1, .replaced r.2)) := by
  rw [map_run, change_eq]
  cases s.network? handle with
  | none => rfl
  | some n => cases hf : f n <;> simp only [hf] <;> rfl

theorem map_read {α : Type} (handle : Nat) (g : α → Answer) (f : Network → α) (s : Store) :
    (g <$> (Store.get handle >>= fun n => pure (f n))) s = match s.network? handle with
      | none => .error (.unknownHandle handle) s
      | some n => finish s handle (.ok (g (f n), .kept)) := by
  have hget := get_eq handle s
  rw [map_run]
  cases hn : s.network? handle with
  | none =>
    rw [hn] at hget
    rw [run_bind_of_error hget]
  | some n =>
    rw [hn] at hget
    rw [run_bind_of_ok hget]
    rfl

theorem release_eq (handle : Nat) (s : Store) :
    Store.release handle s = match s.network? handle with
      | none => .error (.unknownHandle handle) s
      | some _ => .ok () (s.eraseNetwork handle) := by
  have hget := get_eq handle s
  cases hn : s.network? handle with
  | none =>
    rw [hn] at hget
    exact run_bind_of_error hget
  | some n =>
    rw [hn] at hget
    exact run_bind_of_ok hget

/-- A call is refused at once, or does not find the network of its handle, or does to that network
what it does. -/
theorem run_eq (hs : s.reporting = {}) (call : Call) (handle : Nat) :
    call.run handle s = match call.check with
      | .error e => .error e s
      | .ok () => match s.network? handle with
        | none => .error (.unknownHandle handle) s
        | some n => finish s handle (call.effect n) := by
  cases call with
  | setMetadata m => exact answering_update handle _ s
  | addElement c key entries =>
    rw [run, Store.addElement, check]
    cases hcells : c.newRow key entries with
    | error e => rfl
    | ok cells =>
      refine (answering_update handle _ s).trans ?_
      simp only [Except.map, effect, Network.add, hcells]
      rfl
  | write c column keys batch =>
    rw [run, Store.write, check]
    cases hcells : c.cellsFor column keys batch with
    | error e => rfl
    | ok cells =>
      refine (answering_update handle _ s).trans ?_
      simp only [Except.map, effect, hcells]
      rfl
  | setSwitch id isOpen => exact flag_change handle _ s
  | setConnected id connected => exact flag_change handle _ s
  | cloneVariant source target mayOverwrite => exact answering_update handle _ s
  | selectVariant id => exact answering_update handle _ s
  | removeVariant id => exact answering_update handle _ s
  | release =>
    rw [run, answering, map_run, release_eq]
    cases s.network? handle <;> rfl
  | metadata => exact map_read handle _ _ s
  | table c =>
    have hget := get_eq handle s
    rw [run, map_run, Store.table]
    cases hn : s.network? handle with
    | none =>
      rw [hn] at hget
      rw [run_bind_of_error hget]
      rfl
    | some n =>
      rw [hn] at hget
      rw [run_bind_of_ok hget]
      dsimp only [check, effect]
      cases n.tables with
      | error e => rfl
      | ok ts =>
        change EStateM.Result.ok (Answer.table (s.reporting.visible c (ts c))) s = _
        rw [hs]
        rfl
  | dump => exact map_read handle _ _ s
  | variantIds => exact map_read handle _ _ s
  | workingVariant => exact map_read handle _ _ s

/-- A call fails and leaves the store, or has its effect on the network of its handle. -/
theorem cases_run (hs : s.reporting = {}) (call : Call) (handle : Nat) :
    (∃ e, call.run handle s = .error e s) ∨
      ∃ n a fate, s.network? handle = some n ∧ call.effect n = .ok (a, fate) ∧
        call.run handle s = .ok a (s.settle handle fate) := by
  have hrun := call.run_eq hs handle
  cases hcheck : call.check with
  | error e =>
    simp only [hcheck] at hrun
    exact .inl ⟨e, hrun⟩
  | ok u =>
    cases hn : s.network? handle with
    | none =>
      simp only [hcheck, hn] at hrun
      exact .inl ⟨_, hrun⟩
    | some n =>
      simp only [hcheck, hn] at hrun
      cases heffect : call.effect n with
      | error e =>
        rw [heffect] at hrun
        exact .inl ⟨e, hrun⟩
      | ok r =>
        rw [heffect] at hrun
        exact .inr ⟨n, r.1, r.2, rfl, heffect, hrun⟩

end Call

/-! ### Requests -/

/-- The handle that an answer gives out. -/
def Answer.handle? : Answer → Option Nat
  | .handle h => some h
  | _ => none

/-- The handle of an outcome, if it is the handle of a network that was taken in. -/
def given? : Except NetworkError Answer → Option Nat
  | .ok a => a.handle?
  | .error _ => none

namespace Call

variable {n : Network} {a : Answer} {fate : Fate}

theorem namesNoHandle_check (call : Call) : NamesNoHandle call.check := by
  cases call with
  | addElement c key entries => exact (c.namesNoHandle_newRow key entries).map _
  | write c column keys batch => exact (c.namesNoHandle_cellsFor column keys batch).map _
  | _ => exact of_ok ()

theorem namesNoHandle_effect (n : Network) (call : Call) : NamesNoHandle (call.effect n) := by
  cases call with
  | addElement c key entries => exact (n.namesNoHandle_add _).map _
  | write c column keys batch =>
    exact (bind (c.namesNoHandle_cellsFor column keys batch) fun cells =>
      n.namesNoHandle_updateTables fun ts => ts.namesNoHandle_write _ _ _ _).map _
  | setSwitch id isOpen =>
    exact (n.namesNoHandle_changeTables fun ts => ts.namesNoHandle_setSwitch _ _).map _
  | setConnected id connected =>
    exact (n.namesNoHandle_changeTables fun ts => ts.namesNoHandle_setConnected _ _).map _
  | cloneVariant source target mayOverwrite =>
    exact (n.namesNoHandle_cloneVariant _ _ _).map _
  | selectVariant id => exact (n.namesNoHandle_selectVariant _).map _
  | removeVariant id => exact (n.namesNoHandle_removeVariant _).map _
  | table c => exact n.namesNoHandle_tables.map _
  | _ => exact of_ok _

/-- No call gives a handle out, and only a release lets a network go. -/
theorem effect_ok {call : Call} (h : call.effect n = .ok (a, fate)) :
    a.handle? = none ∧ (fate = .released ↔ call = .release) := by
  cases call with
  | setMetadata | release | metadata | dump | variantIds | workingVariant =>
    obtain ⟨rfl, rfl⟩ := Prod.mk.inj (Except.ok.inj h)
    exact ⟨rfl, by simp⟩
  | _ =>
    obtain ⟨b, -, hb⟩ := map_eq_ok.mp h
    obtain ⟨rfl, rfl⟩ := Prod.mk.inj hb
    exact ⟨rfl, by simp⟩

end Call

namespace Request

variable {s : Store}

/-- The network that a request takes in, or why it does not; none for a request that takes none
in. -/
def arrival? : Request → Option (Except NetworkError Network)
  | .create id now => some (.ok (.new (Network.plainMetadata id now)))
  | .load text => some ((Network.ofSnapshot text).mapError .snapshot)
  | .sample which => some which.network
  | _ => none

/-- How a request ends that takes a network in, or not. -/
def arrived (s : Store) : Except NetworkError Network → EStateM.Result NetworkError Store Answer
  | .ok n => .ok (.handle s.next) (s.insertNetwork n)
  | .error e => .error e s

theorem run_of_arrival? {request : Request} {x : Except NetworkError Network}
    (h : request.arrival? = some x) (s : Store) : request.run s = arrived s x := by
  cases request with
  | create id now =>
    obtain rfl := Option.some.inj h
    rfl
  | load text =>
    obtain rfl := Option.some.inj h
    rw [run, Store.load]
    cases Network.ofSnapshot text <;> rfl
  | sample which =>
    obtain rfl := Option.some.inj h
    rw [run]
    cases which.network <;> rfl
  | _ => cases h

theorem namesNoHandle_arrival {request : Request} {x : Except NetworkError Network}
    (h : request.arrival? = some x) : NamesNoHandle x := by
  cases request with
  | create id now => exact Option.some.inj h ▸ of_ok _
  | load text =>
    obtain rfl := Option.some.inj h
    cases Network.ofSnapshot text with
    | ok n => exact of_ok n
    | error e => exact of_error rfl
  | sample which =>
    obtain rfl := Option.some.inj h
    rw [Sample.network]
    exact foldlM (fun n e => n.namesNoHandle_add e) _
  | _ => cases h

/-- The handle that a request releases, if it does. -/
def freed? : Request → Except NetworkError Answer → Option Nat
  | .call handle .release, .ok _ => some handle
  | _, _ => none

end Request

/-! ### What requests do to the handles -/

/-- The handles of the networks that are there. -/
def handles (s : Store) : List Nat := s.networks.map (·.1)

section Handles

variable {s : Store} {handle : Nat}

theorem isSome_network?_iff : (s.network? handle).isSome ↔ handle ∈ s.handles := by
  simp [network?, handles]

theorem network?_eq_none (h : handle ∉ s.handles) : s.network? handle = none := by
  rw [← Option.not_isSome_iff_eq_none, isSome_network?_iff]
  exact h

theorem handles_insertNetwork (s : Store) (n : Network) :
    (s.insertNetwork n).handles = s.handles ++ [s.next] := by
  rw [handles, insertNetwork, List.map_append]
  rfl

theorem handles_setNetwork (s : Store) (handle : Nat) (n : Network) :
    (s.setNetwork handle n).handles = s.handles := by
  rw [handles, setNetwork, List.map_map, handles]
  refine List.map_congr_left fun e _ => ?_
  by_cases he : e.1 = handle
  · simp [he]
  · simp [he]

theorem handles_eraseNetwork (s : Store) (handle : Nat) :
    (s.eraseNetwork handle).handles = s.handles.filter (· != handle) := by
  rw [handles, eraseNetwork, handles, List.filter_map]
  rfl

/-- A request takes a network in under the next handle, or lets the network of a handle go, or
leaves all handles as they are. -/
theorem Request.cases_run (request : Request) (hs : s.reporting = {}) :
    (∃ n, request.run s = .ok (.handle s.next) (s.insertNetwork n) ∧
      request.freed? (.ok (.handle s.next)) = none) ∨
    (∃ handle, request = .call handle .release ∧ (s.network? handle).isSome ∧
      request.run s = .ok .done (s.eraseNetwork handle)) ∨
    (given? (outcome request.run s) = none ∧ request.freed? (outcome request.run s) = none ∧
      (stateAfter request.run s = s ∨
        ∃ handle n, stateAfter request.run s = s.setNetwork handle n)) := by
  have hfails {e : NetworkError} (h : request.run s = .error e s) :
      given? (outcome request.run s) = none ∧ request.freed? (outcome request.run s) = none ∧
        (stateAfter request.run s = s ∨
          ∃ handle n, stateAfter request.run s = s.setNetwork handle n) := by
    rw [outcome, stateAfter, h]
    refine ⟨rfl, ?_, .inl rfl⟩
    rw [freed?]
    rintro _ _ _ ⟨⟩
  have harrival {x : Except NetworkError Network} (h : request.arrival? = some x) :
      request.run s = arrived s x := run_of_arrival? h s
  cases request with
  | call handle call =>
    rcases call.cases_run hs handle with ⟨e, he⟩ | ⟨n, a, fate, hn, heffect, hrun⟩
    · exact .inr (.inr (hfails he))
    · obtain ⟨hanswer, hreleased⟩ := Call.effect_ok heffect
      by_cases hcall : call = .release
      · subst hcall
        obtain ⟨rfl, rfl⟩ := Prod.mk.inj (Except.ok.inj heffect)
        exact .inr (.inl ⟨handle, rfl, by rw [hn]; rfl, hrun⟩)
      · refine .inr (.inr ?_)
        rw [outcome, stateAfter, run, hrun]
        refine ⟨hanswer, ?_, ?_⟩
        · cases call <;> first | rfl | exact absurd rfl hcall
        · cases fate with
          | kept => exact .inl rfl
          | replaced m => exact .inr ⟨handle, m, rfl⟩
          | released => exact absurd (hreleased.mp rfl) hcall
  | typeCode c column =>
    refine .inr (.inr ?_)
    rw [outcome, stateAfter, run, map_run, typeCode_eq]
    cases s.reporting.typeCode? c column
    · exact ⟨rfl, rfl, .inl rfl⟩
    · exact ⟨rfl, rfl, .inl rfl⟩
  | create id now => exact .inl ⟨_, harrival rfl, rfl⟩
  | load text =>
    have hrun := harrival rfl
    cases hn : Network.ofSnapshot text with
    | ok n =>
      rw [hn] at hrun
      exact .inl ⟨n, hrun, rfl⟩
    | error e =>
      rw [hn] at hrun
      exact .inr (.inr (hfails hrun))
  | sample which =>
    have hrun := harrival rfl
    cases hn : which.network with
    | ok n =>
      rw [hn] at hrun
      exact .inl ⟨n, hrun, rfl⟩
    | error e =>
      rw [hn] at hrun
      exact .inr (.inr (hfails hrun))

end Handles

/-! ### Runs -/

/-- The handles that are given out, in order. -/
def givenOut (results : List (Except NetworkError Answer)) : List Nat := results.filterMap given?

theorem givenOut_cons (result : Except NetworkError Answer)
    (results : List (Except NetworkError Answer)) :
    givenOut (result :: results) = (given? result).toList ++ givenOut results := by
  rw [givenOut, List.filterMap_cons]
  cases given? result <;> rfl

/-- The handles that are released, in order. -/
def letGo (requests : List Request) (results : List (Except NetworkError Answer)) : List Nat :=
  (requests.zip results).filterMap fun r => r.1.freed? r.2

theorem letGo_cons (request : Request) (requests : List Request)
    (result : Except NetworkError Answer) (results : List (Except NetworkError Answer)) :
    letGo (request :: requests) (result :: results) =
      (request.freed? result).toList ++ letGo requests results := by
  rw [letGo, List.zip_cons_cons, List.filterMap_cons]
  cases request.freed? result <;> rfl

/-- What is known of the handles of a store when some were given out and some of these released:
none was given out twice, those that are not released have a network, and the next one is new. -/
structure Counted (given freed : List Nat) (s : Store) : Prop where
  reporting : s.reporting = {}
  below : ∀ handle ∈ given, handle < s.next
  nodup : given.Nodup
  handles : s.handles.Nodup
  mem_handles : ∀ handle, handle ∈ s.handles ↔ handle ∈ given ∧ handle ∉ freed
  size : s.size + freed.length = given.length
  freed : ∀ handle ∈ freed, handle ∈ given

namespace Counted

variable {given freed : List Nat} {s : Store} {n : Network} {handle : Nat}

theorem empty : Counted [] [] {} where
  reporting := rfl
  below := by simp
  nodup := List.nodup_nil
  handles := List.nodup_nil
  mem_handles := by simp [Store.handles]
  size := rfl
  freed := by simp

theorem next_notMem (h : Counted given freed s) : s.next ∉ given := fun hmem =>
  absurd (h.below s.next hmem) (Nat.lt_irrefl _)

theorem insertNetwork (h : Counted given freed s) (n : Network) :
    Counted (given ++ [s.next]) freed (s.insertNetwork n) where
  reporting := h.reporting
  below := by
    intro handle hmem
    rcases List.mem_append.mp hmem with hold | hnew
    · exact Nat.lt_succ_of_lt (h.below handle hold)
    · obtain rfl := List.mem_singleton.mp hnew
      exact Nat.lt_succ_self _
  nodup := by
    rw [← List.concat_eq_append]
    exact h.nodup.concat h.next_notMem
  handles := by
    rw [handles_insertNetwork, ← List.concat_eq_append]
    exact h.handles.concat fun hmem => h.next_notMem ((h.mem_handles _).mp hmem).1
  mem_handles := by
    intro handle
    rw [handles_insertNetwork, List.mem_append, List.mem_append, h.mem_handles handle,
      List.mem_singleton]
    constructor
    · rintro (⟨hgiven, hfreed⟩ | rfl)
      · exact ⟨.inl hgiven, hfreed⟩
      · exact ⟨.inr rfl, fun hfreed => h.next_notMem (h.freed _ hfreed)⟩
    · rintro ⟨hgiven | rfl, hfreed⟩
      · exact .inl ⟨hgiven, hfreed⟩
      · exact .inr rfl
  size := by
    have hsize := h.size
    simp only [Store.size, Store.insertNetwork, List.length_append, List.length_singleton]
      at hsize ⊢
    omega
  freed := fun handle hmem => List.mem_append_left _ (h.freed handle hmem)

theorem setNetwork (h : Counted given freed s) (handle : Nat) (n : Network) :
    Counted given freed (s.setNetwork handle n) where
  reporting := h.reporting
  below := h.below
  nodup := h.nodup
  handles := by
    rw [handles_setNetwork]
    exact h.handles
  mem_handles := by
    rw [handles_setNetwork]
    exact h.mem_handles
  size := by
    rw [← h.size, Store.size, Store.setNetwork, List.length_map, Store.size]
  freed := h.freed

theorem eraseNetwork (h : Counted given freed s) (hlive : (s.network? handle).isSome) :
    Counted given (freed ++ [handle]) (s.eraseNetwork handle) where
  reporting := h.reporting
  below := h.below
  nodup := h.nodup
  handles := by
    rw [handles_eraseNetwork]
    exact h.handles.filter _
  mem_handles := by
    intro other
    rw [handles_eraseNetwork, List.mem_filter, h.mem_handles other]
    simp [and_assoc]
  size := by
    have hmem := isSome_network?_iff.mp hlive
    have hlength : (s.eraseNetwork handle).size + 1 = s.size := by
      have hlengths := List.length_erase_add_one hmem
      rw [h.handles.erase_eq_filter, ← handles_eraseNetwork] at hlengths
      simpa [Store.handles, Store.size] using hlengths
    have hsize := h.size
    rw [List.length_append, List.length_singleton]
    omega
  freed := by
    intro other hmem
    rcases List.mem_append.mp hmem with hold | hnew
    · exact h.freed other hold
    · obtain rfl := List.mem_singleton.mp hnew
      exact ((h.mem_handles other).mp (isSome_network?_iff.mp hlive)).1

/-- What a request gives out and releases. -/
theorem request (h : Counted given freed s) (request : Request) :
    Counted (given ++ (given? (outcome request.run s)).toList)
      (freed ++ (request.freed? (outcome request.run s)).toList) (stateAfter request.run s) := by
  rcases request.cases_run h.reporting with ⟨n, hrun, hfreed⟩ | ⟨handle, rfl, hlive, hrun⟩ |
    ⟨hgiven, hfreed, hafter⟩
  · rw [outcome, hrun, stateAfter_ok hrun, hfreed]
    simpa [given?, Answer.handle?] using h.insertNetwork n
  · rw [outcome, hrun, stateAfter_ok hrun]
    simpa [given?, Answer.handle?, Request.freed?] using h.eraseNetwork hlive
  · rw [hgiven, hfreed]
    rcases hafter with hafter | ⟨handle, n, hafter⟩
    · simpa [hafter] using h
    · simpa [hafter] using h.setNetwork handle n

/-- The handles after a run. -/
theorem run (h : Counted given freed s) (requests : List Request) :
    Counted (given ++ givenOut (outcomes (requests.map Request.run) s))
      (freed ++ letGo requests (outcomes (requests.map Request.run) s))
      (stateAfterAll (requests.map Request.run) s) := by
  induction requests generalizing given freed s with
  | nil => simpa [outcomes, givenOut, letGo, stateAfterAll] using h
  | cons request requests ih =>
    have hrest := ih (h.request request)
    rw [List.append_assoc, List.append_assoc] at hrest
    rw [List.map_cons, outcomes, givenOut_cons, letGo_cons]
    exact hrest

end Counted

end Store

end PowerTables
