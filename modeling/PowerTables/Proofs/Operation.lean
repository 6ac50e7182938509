/-!
# Operations

An operation on a state succeeds or fails, and leaves a state in either case.

## Main definitions

* `stateAfter` : the state that an operation leaves.
* `atOnce`, `step` : a change at one stroke, and a step of a change.
* `Relates` : an operation leaves a state that is related to the one it found.
* `AllOrNothing` : an operation that fails leaves the state it found.

## Main results

* `bind_eq_ok` : a success of two steps is a success of each of them.
* `run_bind_of_ok`, `run_bind_of_error` : two steps, one after the other.
* `forM_eq_error` : where steps for the entries of a list stop.
* `Relates.bind` : a relation that holds for two steps holds for both together.
-/

namespace PowerTables

/-! ### Results -/

section Except

variable {ε α β : Type} {x : Except ε α} {b : β}

theorem bind_eq_ok {f : α → Except ε β} :
    (x >>= f) = .ok b ↔ ∃ a, x = .ok a ∧ f a = .ok b := by
  cases x with
  | error e =>
    constructor
    · intro h
      cases h
    · rintro ⟨a, h, -⟩
      cases h
  | ok a =>
    constructor
    · exact fun h => ⟨a, rfl, h⟩
    · rintro ⟨a', h, h'⟩
      obtain rfl := Except.ok.inj h
      exact h'

theorem bind_eq_error {f : α → Except ε β} {e : ε} :
    (x >>= f) = .error e ↔ x = .error e ∨ ∃ a, x = .ok a ∧ f a = .error e := by
  cases x with
  | error e' =>
    constructor
    · exact fun h => .inl (congrArg Except.error (Except.error.inj h))
    · rintro (h | ⟨a, h, -⟩)
      · exact congrArg Except.error (Except.error.inj h)
      · cases h
  | ok a =>
    constructor
    · exact fun h => .inr ⟨a, rfl, h⟩
    · rintro (h | ⟨a', h, h'⟩)
      · cases h
      · obtain rfl := Except.ok.inj h
        exact h'

theorem map_eq_ok {f : α → β} : x.map f = .ok b ↔ ∃ a, x = .ok a ∧ f a = b := by
  cases x with
  | error e =>
    constructor
    · intro h
      cases h
    · rintro ⟨a, h, -⟩
      cases h
  | ok a =>
    constructor
    · exact fun h => ⟨a, rfl, Except.ok.inj h⟩
    · rintro ⟨a', h, rfl⟩
      obtain rfl := Except.ok.inj h
      rfl

theorem exists_ok_of_ne_error (h : ∀ e, x ≠ .error e) : ∃ a, x = .ok a := by
  cases x with
  | ok a => exact ⟨a, rfl⟩
  | error e => exact absurd rfl (h e)

theorem toOption_eq_some_iff {a : α} : x.toOption = some a ↔ x = .ok a := by
  cases x <;> simp [Except.toOption]

end Except

/-! ### Operations on a state -/

/-- The state that an operation leaves, whether it succeeds or not. -/
def stateAfter {ε σ α : Type} (op : EStateM ε σ α) (s : σ) : σ :=
  match op s with
  | .ok _ s' => s'
  | .error _ s' => s'

/-- An operation does not fail on a state. -/
def succeeds {ε σ α : Type} (op : EStateM ε σ α) (s : σ) : Bool :=
  match op s with
  | .ok _ _ => true
  | .error _ _ => false

section Run

variable {ε σ α β : Type} {x : EStateM ε σ α} {f : α → EStateM ε σ β} {s s' : σ}

theorem stateAfter_ok {a : α} (h : x s = .ok a s') : stateAfter x s = s' := by
  rw [stateAfter, h]

theorem stateAfter_error {e : ε} (h : x s = .error e s') : stateAfter x s = s' := by
  rw [stateAfter, h]

theorem run_eq_ok_stateAfter {op : EStateM ε σ Unit} (h : succeeds op s = true) :
    op s = .ok () (stateAfter op s) := by
  cases hrun : op s with
  | ok _ s' => rw [stateAfter_ok hrun]
  | error e s' =>
    rw [succeeds, hrun] at h
    cases h

theorem run_bind_of_ok {a : α} (h : x s = .ok a s') : (x >>= f) s = f a s' := by
  change EStateM.bind x f s = _
  rw [EStateM.bind, h]

theorem run_bind_of_error {e : ε} (h : x s = .error e s') : (x >>= f) s = .error e s' := by
  change EStateM.bind x f s = _
  rw [EStateM.bind, h]

/-- What begins with a look at the state. -/
theorem run_get_bind (f : σ → EStateM ε σ α) (s : σ) :
    ((get : EStateM ε σ σ) >>= f) s = f s s := rfl

/-- The answer of an operation is turned into another one. -/
theorem map_run (g : α → β) (x : EStateM ε σ α) (s : σ) :
    (g <$> x) s = match x s with
      | .ok a s' => .ok (g a) s'
      | .error e s' => .error e s' := by
  change EStateM.map g x s = _
  rw [EStateM.map]
  cases x s <;> rfl

theorem stateAfter_map (g : α → β) (x : EStateM ε σ α) (s : σ) :
    stateAfter (g <$> x) s = stateAfter x s := by
  rw [stateAfter, stateAfter, map_run]
  cases x s <;> rfl

/-- An operation leaves the same state when its answer is not asked for. -/
theorem stateAfter_discard (op : EStateM ε σ α) (s : σ) :
    stateAfter (discard op) s = stateAfter op s := by
  change stateAfter (op >>= fun _ => pure ()) s = _
  cases hrun : op s with
  | ok a s' =>
    rw [stateAfter, run_bind_of_ok hrun, stateAfter_ok hrun]
    rfl
  | error e s' => rw [stateAfter_error (run_bind_of_error hrun), stateAfter_error hrun]

/-- A step for each entry of a list fails at the first entry whose step does, after those of the
entries before it. -/
theorem forM_eq_error {f : α → EStateM ε σ PUnit} {l : List α} {e : ε}
    (h : l.forM f s = .error e s') :
    ∃ j a before, l[j]? = some a ∧ (l.take j).forM f s = .ok () before ∧
      f a before = .error e s' := by
  induction l generalizing s with
  | nil => cases h
  | cons a l ih =>
    cases ha : f a s with
    | error e' s'' =>
      obtain ⟨rfl, rfl⟩ := EStateM.Result.error.inj (h.symm.trans (run_bind_of_error ha))
      exact ⟨0, a, s, rfl, rfl, ha⟩
    | ok u s'' =>
      have hrest : l.forM f s'' = .error e s' := (run_bind_of_ok ha).symm.trans h
      obtain ⟨j, b, before, hb, hbefore, hfails⟩ := ih hrest
      exact ⟨j + 1, b, before, hb, (run_bind_of_ok ha).trans hbefore, hfails⟩

end Run

/-! ### Changes at one stroke -/

section Steps

variable {ε σ α : Type}

/-- A change at one stroke: it ends with an answer, or fails and leaves the state. -/
def atOnce (f : σ → Except ε (α × σ)) : EStateM ε σ α := fun s =>
  match f s with
  | .ok (a, s') => .ok a s'
  | .error e => .error e s

/-- A step of a change. -/
def step (f : σ → Except ε σ) : EStateM ε σ Unit := atOnce fun s => (f s).map fun s' => ((), s')

theorem atOnce_ok {f : σ → Except ε (α × σ)} {s s' : σ} {a : α} (h : f s = .ok (a, s')) :
    atOnce f s = .ok a s' := by
  rw [atOnce, h]

theorem step_ok {f : σ → Except ε σ} {s s' : σ} (h : f s = .ok s') : step f s = .ok () s' := by
  rw [step, atOnce, h]
  rfl

/-- A step that fails leaves the state. -/
theorem step_eq_error {f : σ → Except ε σ} {s s' : σ} {e : ε} :
    step f s = .error e s' ↔ f s = .error e ∧ s' = s := by
  rw [step, atOnce]
  cases f s <;> simp [Except.map, eq_comm]

/-- What holds of a state and of whatever a step makes of it, holds of the state it leaves. -/
theorem stateAfter_step {p : σ → Prop} {f : σ → Except ε σ} {s : σ} (hs : p s)
    (h : ∀ s', f s = .ok s' → p s') : p (stateAfter (step f) s) := by
  cases hf : f s with
  | ok s' => exact (stateAfter_ok (step_ok hf)).symm ▸ h s' hf
  | error e => exact (stateAfter_error (step_eq_error.mpr ⟨hf, rfl⟩)).symm ▸ hs

end Steps

/-! ### What operations do to the state -/

/-- Whatever its outcome, an operation leaves a state that is related to the one it found. -/
def Relates {ε σ α : Type} (r : σ → σ → Prop) (op : EStateM ε σ α) : Prop :=
  ∀ s, r s (stateAfter op s)

namespace Relates

variable {ε σ α β : Type} {r : σ → σ → Prop}

theorem of_eq (hrefl : ∀ s, r s s) {op : EStateM ε σ α} (h : ∀ s, stateAfter op s = s) :
    Relates r op := fun s => (h s).symm ▸ hrefl s

theorem bind (htrans : ∀ s t u, r s t → r t u → r s u) {x : EStateM ε σ α}
    {f : α → EStateM ε σ β} (hx : Relates r x) (hf : ∀ a, Relates r (f a)) :
    Relates r (x >>= f) := by
  intro s
  have hstep := hx s
  cases h : x s with
  | ok a s' =>
    rw [stateAfter_ok h] at hstep
    have hrun : stateAfter (x >>= f) s = stateAfter (f a) s' := by
      rw [stateAfter, run_bind_of_ok h, stateAfter]
    exact hrun ▸ htrans s s' _ hstep (hf a s')
  | error e s' =>
    rw [stateAfter_error h] at hstep
    rwa [stateAfter_error (run_bind_of_error h)]

/-- Two steps that leave the state as it is. -/
theorem eq_bind {x : EStateM ε σ α} {f : α → EStateM ε σ β} (hx : Relates Eq x)
    (hf : ∀ a, Relates Eq (f a)) : Relates Eq (x >>= f) :=
  bind (r := Eq) (fun _ _ _ => Eq.trans) hx hf

theorem forM (hrefl : ∀ s, r s s) (htrans : ∀ s t u, r s t → r t u → r s u) {l : List α}
    {f : α → EStateM ε σ PUnit} (h : ∀ a ∈ l, Relates r (f a)) : Relates r (l.forM f) := by
  induction l with
  | nil => exact of_eq hrefl fun s => rfl
  | cons a l ih =>
    change Relates r (f a >>= fun _ => l.forM f)
    exact bind htrans (h a List.mem_cons_self)
      fun _ => ih fun b hb => h b (List.mem_cons_of_mem a hb)

end Relates

/-! ### Operations that fail -/

/-- An operation that fails leaves the state as it found it. -/
def AllOrNothing {ε σ α : Type} (op : EStateM ε σ α) : Prop :=
  ∀ s e s', op s = .error e s' → s' = s

namespace AllOrNothing

variable {ε σ α β : Type} {x : EStateM ε σ α}

theorem of_relates_eq (h : Relates Eq x) : AllOrNothing x := fun s e s' he => by
  rw [← stateAfter_error he]
  exact (h s).symm

theorem map (h : AllOrNothing x) (g : α → β) : AllOrNothing (g <$> x) := by
  intro s e s' he
  rw [map_run] at he
  cases hx : x s with
  | ok a s'' =>
    simp only [hx] at he
    cases he
  | error e' s'' =>
    simp only [hx] at he
    cases he
    exact h s e s' hx

/-- Only the last of two steps may change the state, if the whole is to leave it on a failure. -/
theorem eq_bind {f : α → EStateM ε σ β} (hx : Relates Eq x) (hf : ∀ a, AllOrNothing (f a)) :
    AllOrNothing (x >>= f) := by
  intro s e s' he
  have hstate := hx s
  cases hrun : x s with
  | ok a s'' =>
    rw [stateAfter_ok hrun] at hstate
    subst hstate
    exact hf a s e s' ((run_bind_of_ok hrun).symm.trans he)
  | error e' s'' =>
    rw [stateAfter_error hrun] at hstate
    cases (run_bind_of_error hrun).symm.trans he
    exact hstate.symm

end AllOrNothing

end PowerTables
