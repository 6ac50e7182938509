import Mathlib.Data.List.Nodup
import PowerTables.Proofs.Network.Handles
import PowerTables.Proofs.Network.Reachable

/-!
# Clients of a store

Several clients take turns on one store.  Each holds handles that no other one holds, and calls on
them only; what it takes in, it holds from then on.  A client speaks of its handles by their
places in the list of those it holds, so what it asks and what it is told do not depend on the
numbers that the store happens to give out.

A client alone would see a list of slots, one for each handle it holds, with the network that is
there or none after a release.  A turn of the client is a step on its slots, and a turn of another
one leaves them, so a client is told the same in every interleaving.

## Main definitions

* `Store.Clients`, `Store.Clients.Valid` : clients with a store, and with handles of their own.
* `Store.Clients.told`, `Store.Clients.after` : what a client is told in a schedule of turns, and
  where the schedule ends.
* `Store.Slots.answer`, `Store.Slots.next` : a step on the slots of one client.

## Main results

* `Store.Clients.Valid.turn`, `Store.Clients.Valid.slots_next_of_ne` : a turn of a client, and
  one of another client.
* `Store.Clients.told_eq` : a schedule, seen by one client.
* `Store.clients_isolated` : clients with handles of their own do not notice each other.
-/

namespace PowerTables

namespace Store

/-! ### Places for handles -/

/-- An error with another number for its handle. -/
def renameError (f : Nat → Nat) : NetworkError → NetworkError
  | .unknownHandle handle => .unknownHandle (f handle)
  | e => e

/-- An answer with another number for its handle. -/
def Answer.rename (f : Nat → Nat) : Answer → Answer
  | .handle h => .handle (f h)
  | a => a

/-- An outcome with other numbers for handles. -/
def renamed (f : Nat → Nat) : Except NetworkError Answer → Except NetworkError Answer
  | .ok a => .ok (a.rename f)
  | .error e => .error (renameError f e)

section Rename

variable {f : Nat → Nat}

theorem renameError_of_handle? {e : NetworkError} (h : e.handle? = none) :
    renameError f e = e := by
  cases e with
  | unknownHandle _ => cases h
  | _ => rfl

theorem Answer.rename_of_handle? {a : Answer} (h : a.handle? = none) : a.rename f = a := by
  cases a with
  | handle _ => cases h
  | _ => rfl

end Rename

/-- The request with the handle in place of the place where it is held; none for a call on a place
where nothing is held. -/
def Request.resolve (held : List Nat) : Request → Option Request
  | .call place c => held[place]?.map fun handle => .call handle c
  | request => some request

/-! ### The slots of one client -/

/-- What a call leaves of the network of its handle. -/
def Fate.left (n : Network) : Fate → Option Network
  | .kept => some n
  | .replaced m => some m
  | .released => none

/-- What a client is told about a request, by the networks that it holds. -/
def Slots.answer (slots : List (Option Network)) :
    Request → Option (Except NetworkError Answer)
  | .call place call => slots[place]?.map fun slot => call.check >>= fun _ =>
    match slot with
    | none => .error (.unknownHandle place)
    | some n => (call.effect n).map (·.1)
  | .typeCode c column => some (outcome (Request.typeCode c column).run {})
  | request => request.arrival?.map fun x => x.map fun _ => .handle slots.length

/-- The networks that a client holds after a request. -/
def Slots.next (slots : List (Option Network)) : Request → List (Option Network)
  | .call place call => match slots[place]?.join with
    | none => slots
    | some n => match call.check >>= fun _ => call.effect n with
      | .error _ => slots
      | .ok (_, fate) => slots.set place (fate.left n)
  | request => match request.arrival? with
    | some (.ok n) => slots ++ [some n]
    | _ => slots

/-- What a client is told about its requests, by the networks that it holds. -/
def Slots.answers : List Request → List (Option Network) →
    List (Option (Except NetworkError Answer))
  | [], _ => []
  | request :: requests, slots =>
    Slots.answer slots request :: Slots.answers requests (Slots.next slots request)

/-! ### Clients -/

/-- Clients with the handles that each of them holds, and the store that they share. -/
structure Clients (ι : Type) where
  store : Store
  held : ι → List Nat

namespace Clients

variable {ι : Type} [DecidableEq ι]

/-- The networks that a client holds, by the places of their handles; none for one that was
released. -/
def slots (c : Clients ι) (i : ι) : List (Option Network) := (c.held i).map c.store.network?

/-- What a client is told about a request in its turn, with places for handles. -/
def answer (c : Clients ι) (i : ι) (request : Request) : Option (Except NetworkError Answer) :=
  (request.resolve (c.held i)).map fun r =>
    renamed (c.held i).idxOf (outcome r.run c.store)

/-- The clients after a turn. -/
def next (c : Clients ι) (i : ι) (request : Request) : Clients ι :=
  match request.resolve (c.held i) with
  | none => c
  | some r =>
    { store := stateAfter r.run c.store
      held := Function.update c.held i
        (c.held i ++ (given? (outcome r.run c.store)).toList) }

/-- The clients after a schedule of turns. -/
def after (schedule : List (ι × Request)) (c : Clients ι) : Clients ι :=
  schedule.foldl (fun c turn => c.next turn.1 turn.2) c

/-- What a client is told in a schedule of turns. -/
def told (i : ι) : List (ι × Request) → Clients ι → List (Option (Except NetworkError Answer))
  | [], _ => []
  | (j, request) :: schedule, c =>
    if j = i then c.answer j request :: told i schedule (c.next j request)
    else told i schedule (c.next j request)

/-- The turns of one client in a schedule. -/
def turns (i : ι) (schedule : List (ι × Request)) : List (ι × Request) :=
  schedule.filter (·.1 = i)

/-- Each client holds handles that were given out, once and to it alone. -/
structure Valid (c : Clients ι) : Prop where
  counted : ∃ given freed, Counted given freed c.store ∧ ∀ i, ∀ handle ∈ c.held i, handle ∈ given
  nodup : ∀ i, (c.held i).Nodup
  disjoint : ∀ i j, i ≠ j → ∀ handle ∈ c.held i, handle ∉ c.held j

end Clients

/-! ### What a turn does to the networks -/

section Networks

variable {s : Store} {handle : Nat} {n : Network}

theorem network?_settle (h : s.network? handle = some n) (fate : Fate) :
    (s.settle handle fate).network? = Function.update s.network? handle (fate.left n) := by
  funext other
  rcases eq_or_ne other handle with rfl | hne
  · rw [Function.update_self]
    cases fate with
    | kept => exact h
    | replaced m => exact network?_setNetwork_self h m
    | released => exact network?_eraseNetwork_self s other
  · rw [Function.update_of_ne hne]
    cases fate with
    | kept => rfl
    | replaced m => exact network?_setNetwork_of_ne s hne m
    | released => exact network?_eraseNetwork s hne

theorem network?_insertNetwork_of_ne {other : Nat} (h : other ≠ s.next) (n : Network) :
    (s.insertNetwork n).network? other = s.network? other :=
  (network?_insertNetwork s n other).resolve_right fun hnew => h hnew.1

theorem Counted.network?_next {given freed : List Nat} (h : Counted given freed s) :
    s.network? s.next = none := by
  rw [← Option.not_isSome_iff_eq_none, isSome_network?_iff]
  exact fun hmem => h.next_notMem ((h.mem_handles _).mp hmem).1

theorem typeCode_run (c : Category) (column : String) (s : Store) :
    (Request.typeCode c column).run s = match s.reporting.typeCode? c column with
      | some code => .ok (.code code) s
      | none => .error (.unknownColumn c column) s := by
  rw [Request.run, map_run, typeCode_eq]
  cases s.reporting.typeCode? c column <;> rfl

/-- A request leaves the network of a handle that it neither calls on nor gives out. -/
theorem Request.network?_stateAfter (request : Request) (hs : s.reporting = {})
    (hcall : ∀ call, request ≠ .call handle call) (hnext : handle ≠ s.next) :
    (stateAfter request.run s).network? handle = s.network? handle := by
  have harrival {x : Except NetworkError Network} (h : request.arrival? = some x) :
      (stateAfter request.run s).network? handle = s.network? handle := by
    rw [stateAfter, request.run_of_arrival? h]
    cases x with
    | error e => rfl
    | ok n => exact network?_insertNetwork_of_ne hnext n
  cases request with
  | call other call =>
    have hne : handle ≠ other := fun heq => hcall call (heq ▸ rfl)
    rcases call.cases_run hs other with ⟨e, hrun⟩ | ⟨n, a, fate, hn, -, hrun⟩
    · rw [Request.run, stateAfter_error hrun]
    · rw [Request.run, stateAfter_ok hrun, network?_settle hn, Function.update_of_ne hne]
  | typeCode c column =>
    rw [stateAfter, typeCode_run]
    cases s.reporting.typeCode? c column <;> rfl
  | _ => exact harrival rfl

end Networks

/-! ### Turns -/

namespace Clients

variable {ι : Type} [DecidableEq ι] {c : Clients ι} {i : ι}

theorem next_of_resolve {request r : Request} (h : request.resolve (c.held i) = some r) :
    c.next i request =
      { store := stateAfter r.run c.store
        held := Function.update c.held i
          (c.held i ++ (given? (outcome r.run c.store)).toList) } := by
  rw [next, h]

theorem next_of_resolve_none {request : Request} (h : request.resolve (c.held i) = none) :
    c.next i request = c := by
  rw [next, h]

omit [DecidableEq ι] in
theorem answer_of_resolve {request r : Request} (h : request.resolve (c.held i) = some r) :
    c.answer i request = some (renamed (c.held i).idxOf (outcome r.run c.store)) := by
  rw [answer, h]
  rfl

/-- The networks of a client after its turn. -/
theorem slots_next_self {request r : Request} (h : request.resolve (c.held i) = some r) :
    (c.next i request).slots i =
      (c.held i ++ (given? (outcome r.run c.store)).toList).map
        (stateAfter r.run c.store).network? := by
  rw [next_of_resolve h]
  dsimp only [slots]
  rw [Function.update_self]

/-- A turn that fails leaves the networks of its client. -/
theorem turn_of_error {request r : Request} {e : NetworkError}
    (h : request.resolve (c.held i) = some r) (hrun : r.run c.store = .error e c.store) :
    c.answer i request = some (.error (renameError (c.held i).idxOf e)) ∧
      (c.next i request).slots i = c.slots i := by
  rw [answer_of_resolve h, slots_next_self h, outcome, hrun, stateAfter_error hrun]
  refine ⟨rfl, ?_⟩
  simp [given?, slots]

/-- A turn on a network that its client holds already. -/
theorem turn_of_ok {request r : Request} {a : Answer} {s : Store}
    (h : request.resolve (c.held i) = some r) (hrun : r.run c.store = .ok a s)
    (ha : a.handle? = none) :
    c.answer i request = some (.ok a) ∧
      (c.next i request).slots i = (c.held i).map s.network? := by
  rw [answer_of_resolve h, slots_next_self h, outcome, hrun, stateAfter_ok hrun]
  refine ⟨congrArg (some ∘ Except.ok) (Answer.rename_of_handle? ha), ?_⟩
  simp [given?, ha]

/-- A client calls on handles that it holds. -/
theorem mem_of_resolve {held : List Nat} {request : Request} {handle : Nat} {call : Call}
    (h : request.resolve held = some (.call handle call)) : handle ∈ held := by
  cases request with
  | call place c =>
    obtain ⟨other, hplace, heq⟩ := Option.map_eq_some_iff.mp h
    obtain ⟨rfl, -⟩ := Request.call.inj heq
    exact List.mem_of_getElem? hplace
  | _ => cases h

namespace Valid

/-- A call on a handle that its client holds. -/
theorem call_turn (hc : c.Valid) {place handle : Nat} (call : Call)
    (hplace : (c.held i)[place]? = some handle) :
    c.answer i (.call place call) = Slots.answer (c.slots i) (.call place call) ∧
      (c.next i (.call place call)).slots i = Slots.next (c.slots i) (.call place call) := by
  obtain ⟨given, freed, hcounted, -⟩ := hc.counted
  have hresolve : Request.resolve (c.held i) (.call place call) = some (.call handle call) := by
    rw [Request.resolve, hplace]
    rfl
  have hslot : (c.slots i)[place]? = some (c.store.network? handle) := by
    rw [slots, List.getElem?_map, hplace]
    rfl
  have hidx : (c.held i).idxOf handle = place := by
    obtain ⟨hlt, rfl⟩ := List.getElem?_eq_some_iff.mp hplace
    exact (hc.nodup i).idxOf_getElem place hlt
  have hrun := call.run_eq hcounted.reporting handle
  rw [Slots.answer, Slots.next, hslot]
  cases hcheck : call.check with
  | error e =>
    rw [hcheck] at hrun
    obtain ⟨hanswer, hslots⟩ := turn_of_error hresolve hrun
    rw [hanswer, hslots, renameError_of_handle? (call.namesNoHandle_check e hcheck)]
    cases c.store.network? handle <;> exact ⟨rfl, rfl⟩
  | ok u =>
    rw [hcheck] at hrun
    cases hn : c.store.network? handle with
    | none =>
      simp only [hn] at hrun
      obtain ⟨hanswer, hslots⟩ := turn_of_error hresolve hrun
      rw [hanswer, hslots, renameError, hidx]
      exact ⟨rfl, rfl⟩
    | some n =>
      simp only [hn] at hrun
      cases heffect : call.effect n with
      | error e =>
        rw [heffect] at hrun
        obtain ⟨hanswer, hslots⟩ := turn_of_error hresolve hrun
        rw [hanswer, hslots, renameError_of_handle? (call.namesNoHandle_effect n e heffect)]
        refine ⟨?_, ?_⟩
        · simp [bind, Except.bind, heffect, Except.map]
        · simp [bind, Except.bind, heffect]
      | ok r =>
        obtain ⟨a, fate⟩ := r
        rw [heffect] at hrun
        obtain ⟨hanswer, hslots⟩ := turn_of_ok hresolve hrun (Call.effect_ok heffect).1
        have hmem : handle ∈ c.held i := List.mem_of_getElem? hplace
        rw [hanswer, hslots, network?_settle hn, (hc.nodup i).map_update, if_pos hmem, hidx]
        refine ⟨?_, ?_⟩
        · simp [bind, Except.bind, heffect, Except.map]
        · simp [bind, Except.bind, heffect, slots]

/-- A request that takes a network in, or not. -/
theorem arrival_turn (hc : c.Valid) {request : Request}
    {x : Except NetworkError Network} (h : request.arrival? = some x) :
    c.answer i request = Slots.answer (c.slots i) request ∧
      (c.next i request).slots i = Slots.next (c.slots i) request := by
  obtain ⟨given, freed, hcounted, hgiven⟩ := hc.counted
  obtain ⟨hresolve, hanswer, hnext⟩ :
      request.resolve (c.held i) = some request ∧
        Slots.answer (c.slots i) request = request.arrival?.map (fun x => x.map fun _ =>
          .handle (c.slots i).length) ∧
        Slots.next (c.slots i) request = match request.arrival? with
          | some (.ok n) => c.slots i ++ [some n]
          | _ => c.slots i := by
    cases request with
    | call _ _ => cases h
    | typeCode _ _ => cases h
    | _ => exact ⟨rfl, rfl, rfl⟩
  have hrun := Request.run_of_arrival? h c.store
  rw [hanswer, hnext, h, Option.map_some]
  cases x with
  | error e =>
    obtain ⟨hanswer, hslots⟩ := turn_of_error hresolve hrun
    rw [hanswer, hslots, renameError_of_handle? (Request.namesNoHandle_arrival h e rfl)]
    exact ⟨rfl, rfl⟩
  | ok n =>
    have hnew : c.store.next ∉ c.held i := fun hmem =>
      hcounted.next_notMem (hgiven i _ hmem)
    have houtcome : outcome request.run c.store = .ok (.handle c.store.next) := by
      rw [outcome, hrun]
      rfl
    rw [answer_of_resolve hresolve, slots_next_self hresolve, houtcome, stateAfter_ok hrun]
    constructor
    · -- a handle that the client does not hold yet comes after those that it holds
      simp [renamed, Answer.rename, Except.map, slots, List.idxOf_eq_length hnew]
    · have hold : (c.held i).map (c.store.insertNetwork n).network? = c.slots i :=
        List.map_congr_left fun handle hmem =>
          network?_insertNetwork_of_ne (fun heq => hnew (heq ▸ hmem)) n
      simp [given?, Answer.handle?, hold, network?_insertNetwork_next hcounted.network?_next n]

theorem typeCode_turn (hc : c.Valid) (category : Category) (column : String) :
    c.answer i (.typeCode category column) =
        Slots.answer (c.slots i) (.typeCode category column) ∧
      (c.next i (.typeCode category column)).slots i =
        Slots.next (c.slots i) (.typeCode category column) := by
  obtain ⟨given, freed, hcounted, -⟩ := hc.counted
  have hrun := typeCode_run category column c.store
  have hrun' := typeCode_run category column {}
  rw [hcounted.reporting] at hrun
  rw [Slots.answer, outcome, hrun']
  cases hcode : Reporting.typeCode? {} category column with
  | some code =>
    rw [hcode] at hrun
    exact turn_of_ok rfl hrun rfl
  | none =>
    rw [hcode] at hrun
    exact turn_of_error rfl hrun

/-- A turn of a client is a step on its slots. -/
theorem turn (hc : c.Valid) (i : ι) (request : Request) :
    c.answer i request = Slots.answer (c.slots i) request ∧
      (c.next i request).slots i = Slots.next (c.slots i) request := by
  cases request with
  | call place call =>
    cases hplace : (c.held i)[place]? with
    | some handle => exact hc.call_turn call hplace
    | none =>
      have hresolve : Request.resolve (c.held i) (.call place call) = none := by
        rw [Request.resolve, hplace]
        rfl
      have hslot : (c.slots i)[place]? = none := by
        rw [slots, List.getElem?_map, hplace]
        rfl
      rw [answer, hresolve, next_of_resolve_none hresolve, Slots.answer, Slots.next, hslot]
      exact ⟨rfl, rfl⟩
  | typeCode category column => exact hc.typeCode_turn category column
  | _ => exact hc.arrival_turn rfl

/-- A turn of one client leaves the networks of the others. -/
theorem slots_next_of_ne (hc : c.Valid) {j : ι} (hij : i ≠ j) (request : Request) :
    (c.next j request).slots i = c.slots i := by
  obtain ⟨given, freed, hcounted, hgiven⟩ := hc.counted
  cases hresolve : request.resolve (c.held j) with
  | none => rw [next_of_resolve_none hresolve]
  | some r =>
    rw [next_of_resolve hresolve]
    dsimp only [slots]
    rw [Function.update_of_ne hij]
    refine List.map_congr_left fun handle hmem =>
      r.network?_stateAfter hcounted.reporting ?_ ?_
    · rintro call rfl
      exact hc.disjoint i j hij handle hmem (mem_of_resolve hresolve)
    · rintro rfl
      exact hcounted.next_notMem (hgiven i _ hmem)

/-- After a turn, each client holds handles of its own again. -/
theorem next (hc : c.Valid) (j : ι) (request : Request) : (c.next j request).Valid := by
  obtain ⟨given, freed, hcounted, hgiven⟩ := hc.counted
  cases hresolve : request.resolve (c.held j) with
  | none => rwa [next_of_resolve_none hresolve]
  | some r =>
    have hafter := hcounted.request r
    rw [next_of_resolve hresolve]
    generalize (given? (outcome r.run c.store)).toList = new at hafter
    obtain ⟨-, hnew, hapart⟩ := List.nodup_append.mp hafter.nodup
    have hheld (i : ι) {handle : Nat} (h : handle ∈ Function.update c.held j (c.held j ++ new) i) :
        handle ∈ c.held i ∨ i = j ∧ handle ∈ new := by
      rcases eq_or_ne i j with rfl | hne
      · rw [Function.update_self] at h
        exact (List.mem_append.mp h).imp_right fun hmem => ⟨rfl, hmem⟩
      · rw [Function.update_of_ne hne] at h
        exact .inl h
    have hfresh {i : ι} {handle : Nat} (hi : handle ∈ c.held i) : handle ∉ new := fun hmem =>
      hapart handle (hgiven i handle hi) handle hmem rfl
    refine ⟨⟨_, _, hafter, fun i handle hi => ?_⟩, fun i => ?_, fun i k hik handle hi hk => ?_⟩
    · rcases hheld i hi with hold | ⟨-, hmem⟩
      · exact List.mem_append_left _ (hgiven i handle hold)
      · exact List.mem_append_right _ hmem
    · rcases eq_or_ne i j with rfl | hne
      · dsimp only
        rw [Function.update_self]
        exact (hc.nodup i).append hnew fun handle hi => hfresh hi
      · dsimp only
        rw [Function.update_of_ne hne]
        exact hc.nodup i
    · rcases hheld i hi with hold | ⟨rfl, hmem⟩
      · rcases hheld k hk with hold' | ⟨-, hmem'⟩
        · exact hc.disjoint i k hik handle hold hold'
        · exact hfresh hold hmem'
      · rcases hheld k hk with hold' | ⟨rfl, -⟩
        · exact hfresh hold' hmem
        · exact hik rfl

end Valid

/-! ### Schedules -/

/-- The requests of one client in a schedule. -/
def requestsOf (i : ι) (schedule : List (ι × Request)) : List Request :=
  (turns i schedule).map (·.2)

theorem requestsOf_turns (i : ι) (schedule : List (ι × Request)) :
    requestsOf i (turns i schedule) = requestsOf i schedule := by
  rw [requestsOf, turns, turns, List.filter_filter, requestsOf, turns]
  simp

theorem requestsOf_cons_self (i : ι) (request : Request) (schedule : List (ι × Request)) :
    requestsOf i ((i, request) :: schedule) = request :: requestsOf i schedule := by
  rw [requestsOf, turns, List.filter_cons_of_pos (by simp)]
  rfl

theorem requestsOf_cons_of_ne {i j : ι} (h : j ≠ i) (request : Request)
    (schedule : List (ι × Request)) :
    requestsOf i ((j, request) :: schedule) = requestsOf i schedule := by
  rw [requestsOf, turns, List.filter_cons_of_neg (by simpa using h)]
  rfl

/-- What a client is told in a schedule, and what it has in the end, depends on its own requests
and networks only. -/
theorem told_eq (hc : c.Valid) (i : ι) (schedule : List (ι × Request)) :
    c.told i schedule = Slots.answers (requestsOf i schedule) (c.slots i) ∧
      (c.after schedule).slots i = (requestsOf i schedule).foldl Slots.next (c.slots i) := by
  induction schedule generalizing c with
  | nil => exact ⟨rfl, rfl⟩
  | cons turn schedule ih =>
    obtain ⟨j, request⟩ := turn
    obtain ⟨htold, hafter⟩ := ih (hc.next j request)
    have hstep : c.after ((j, request) :: schedule) = (c.next j request).after schedule := rfl
    rw [told, hstep, htold, hafter]
    rcases eq_or_ne j i with rfl | hne
    · obtain ⟨hanswer, hslots⟩ := hc.turn j request
      rw [if_pos rfl, requestsOf_cons_self, hanswer, hslots]
      exact ⟨rfl, rfl⟩
    · rw [if_neg hne, requestsOf_cons_of_ne hne, hc.slots_next_of_ne hne.symm]
      exact ⟨rfl, rfl⟩

/-- A client is told what it would be told alone, and has what it would have alone. -/
theorem told_turns (hc : c.Valid) (i : ι) (schedule : List (ι × Request)) :
    c.told i schedule = c.told i (turns i schedule) ∧
      (c.after schedule).slots i = (c.after (turns i schedule)).slots i := by
  obtain ⟨htold, hafter⟩ := told_eq hc i schedule
  obtain ⟨halone, hafterAlone⟩ := told_eq hc i (turns i schedule)
  rw [htold, hafter, halone, hafterAlone, requestsOf_turns]
  exact ⟨rfl, rfl⟩

end Clients

/-! ### Runs from the empty store -/

/-- No handle is given out twice, the networks are those given out and not released, and a call on
any other handle fails. -/
theorem handles_run (requests : List Request) :
    let results := outcomes (requests.map Request.run) {}
    let s := stateAfterAll (requests.map Request.run) {}
    (givenOut results).Nodup ∧
      s.size + (letGo requests results).length = (givenOut results).length ∧
      ∀ handle, handle ∉ givenOut results ∨ handle ∈ letGo requests results →
        ∀ call : Call, ∃ e, call.run handle s = .error e s := by
  intro results s
  have hrun : Counted (givenOut results) (letGo requests results) s :=
    Counted.empty.run requests
  refine ⟨hrun.nodup, hrun.size, fun handle hgone call => ?_⟩
  have hnone : s.network? handle = none := by
    refine network?_eq_none fun hmem => ?_
    obtain ⟨hgiven, hkept⟩ := (hrun.mem_handles handle).mp hmem
    exact hgone.elim (fun hnot => hnot hgiven) hkept
  rcases call.cases_run hrun.reporting handle with hfails | ⟨n, _, _, hn, -⟩
  · exact hfails
  · rw [hnone] at hn
    cases hn

/-- Clients that hold different handles of a store do not notice each other: in any schedule of
turns each of them is told what it would be told alone, and has the networks that it would have
alone, by the places of its handles.  In any run no handle is given out twice, there are as many
networks as were taken in and not released, what fails changes nothing, and a call on a handle that
was released or not given out fails. -/
theorem clients_isolated {ι : Type} [DecidableEq ι] (history : List Request) (held : ι → List Nat)
    (hgiven : ∀ i, ∀ handle ∈ held i,
      handle ∈ givenOut (outcomes (history.map Request.run) {}))
    (hnodup : ∀ i, (held i).Nodup)
    (hdisjoint : ∀ i j, i ≠ j → ∀ handle ∈ held i, handle ∉ held j)
    (schedule : List (ι × Request)) :
    let c : Clients ι := ⟨stateAfterAll (history.map Request.run) {}, held⟩
    (∀ i, c.told i schedule = c.told i (Clients.turns i schedule) ∧
      (c.after schedule).slots i = (c.after (Clients.turns i schedule)).slots i) ∧
    ∀ requests : List Request,
      let results := outcomes (requests.map Request.run) {}
      let s := stateAfterAll (requests.map Request.run) {}
      (givenOut results).Nodup ∧
        s.size + (letGo requests results).length = (givenOut results).length ∧
        (∀ (request : Request) (e : NetworkError) (s' : Store),
          request.run s = .error e s' → s' = s) ∧
        ∀ handle, handle ∉ givenOut results ∨ handle ∈ letGo requests results →
          ∀ call : Call, ∃ e, call.run handle s = .error e s := by
  intro c
  have hc : c.Valid :=
    { counted := ⟨_, _, Counted.empty.run history, hgiven⟩
      nodup := hnodup
      disjoint := hdisjoint }
  refine ⟨fun i => Clients.told_turns hc i schedule, fun requests => ?_⟩
  obtain ⟨honce, hsize, hgone⟩ := handles_run requests
  exact ⟨honce, hsize, fun request => request.allOrNothing_run _, hgone⟩

/-- Two clients: one has the first and the third network, the other one the second. -/
def twoHolders : Bool → List Nat
  | false => [1, 3]
  | true => [2]

/-- Three networks come in. -/
def threeNetworks : List Request :=
  [.create "a" ⟨0, 0, 0⟩, .create "b" ⟨0, 0, 0⟩, .create "c" ⟨0, 0, 0⟩]

/-- Both clients take a network in and work on it, the first one after a load that fails; the
second one releases the network that it had and calls on it once more. -/
def twoSchedule : List (Bool × Request) :=
  [(true, .create "d" ⟨0, 0, 0⟩), (false, .load ""), (false, .create "e" ⟨0, 0, 0⟩),
   (true, .call 0 .release), (false, .call 2 (.addElement .load (.plain "L") [])),
   (true, .call 0 .workingVariant), (true, .call 1 (.selectVariant "other")),
   (false, .call 1 .release)]

theorem clients_isolated_twoHolders :
    let c : Clients Bool := ⟨stateAfterAll (threeNetworks.map Request.run) {}, twoHolders⟩
    (∀ i, ∀ handle ∈ twoHolders i,
      handle ∈ givenOut (outcomes (threeNetworks.map Request.run) {})) ∧
    (∀ i, (twoHolders i).Nodup) ∧
    (∀ i j, i ≠ j → ∀ handle ∈ twoHolders i, handle ∉ twoHolders j) ∧
    (∀ i, c.told i twoSchedule = c.told i (Clients.turns i twoSchedule) ∧
      (c.after twoSchedule).slots i = (c.after (Clients.turns i twoSchedule)).slots i) ∧
    (c.after twoSchedule).store.handles = [1, 4, 5] ∧
    ∀ call : Call, ∃ e, call.run 4 c.store = .error e c.store := by
  intro c
  have hgiven : ∀ i, ∀ handle ∈ twoHolders i,
      handle ∈ givenOut (outcomes (threeNetworks.map Request.run) {}) := by decide +kernel
  have hnodup : ∀ i, (twoHolders i).Nodup := by decide
  have hdisjoint : ∀ i j, i ≠ j → ∀ handle ∈ twoHolders i, handle ∉ twoHolders j := by decide
  obtain ⟨hclients, hruns⟩ :=
    clients_isolated threeNetworks twoHolders hgiven hnodup hdisjoint twoSchedule
  obtain ⟨-, -, -, hgone⟩ := hruns threeNetworks
  exact ⟨hgiven, hnodup, hdisjoint, hclients, by decide +kernel,
    hgone 4 (.inl (by decide +kernel))⟩

end Store

end PowerTables
