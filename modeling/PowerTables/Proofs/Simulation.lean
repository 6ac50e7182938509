import PowerTables.Proofs.Operation

/-!
# Simulations

One system simulates another one if each of its operations has the outcome that the operation of
the other has on a related state, and leads to a related state again.  Then whole runs have the
same outcomes.

## Main definitions

* `outcome`, `outcomes`, `stateAfterAll` : what operations answer, and what they leave.
* `Agree` : two results with the same answer or error, and with related states.
* `Simulates` : an operation on one system acts as one on the other.

## Main results

* `Simulates.outcomes_eq`, `Simulates.stateAfterAll` : runs of any length.
-/

namespace PowerTables

variable {ε σ τ α β ι : Type}

/-! ### Runs -/

/-- The answer of an operation, or its error. -/
def outcome (op : EStateM ε σ α) (s : σ) : Except ε α :=
  match op s with
  | .ok a _ => .ok a
  | .error e _ => .error e

/-- The outcomes of operations one after another; after a failure the next one goes on with the
state that was left. -/
def outcomes : List (EStateM ε σ α) → σ → List (Except ε α)
  | [], _ => []
  | op :: ops, s => outcome op s :: outcomes ops (stateAfter op s)

/-- The state that operations leave one after another. -/
def stateAfterAll (ops : List (EStateM ε σ α)) (s : σ) : σ :=
  ops.foldl (fun s op => stateAfter op s) s

theorem stateAfterAll_append (ops ops' : List (EStateM ε σ α)) (s : σ) :
    stateAfterAll (ops ++ ops') s = stateAfterAll ops' (stateAfterAll ops s) :=
  List.foldl_append

/-! ### Operations that agree -/

/-- Two results have the same answer or the same error, and their states are related. -/
inductive Agree (r : σ → τ → Prop) : EStateM.Result ε σ α → EStateM.Result ε τ α → Prop
  | ok (a : α) {s : σ} {t : τ} : r s t → Agree r (.ok a s) (.ok a t)
  | error (e : ε) {s : σ} {t : τ} : r s t → Agree r (.error e s) (.error e t)

/-- From related states, two operations lead to results that agree. -/
def Simulates (r : σ → τ → Prop) (x : EStateM ε σ α) (y : EStateM ε τ α) : Prop :=
  ∀ s t, r s t → Agree r (x s) (y t)

namespace Simulates

variable {r : σ → τ → Prop} {x : EStateM ε σ α} {y : EStateM ε τ α}

theorem cases (h : Simulates r x y) {s : σ} {t : τ} (hr : r s t) :
    (∃ a s' t', x s = .ok a s' ∧ y t = .ok a t' ∧ r s' t') ∨
      ∃ e s' t', x s = .error e s' ∧ y t = .error e t' ∧ r s' t' := by
  have hstep := h s t hr
  generalize x s = p at hstep ⊢
  generalize y t = q at hstep ⊢
  cases hstep with
  | ok a hr' => exact .inl ⟨a, _, _, rfl, rfl, hr'⟩
  | error e hr' => exact .inr ⟨e, _, _, rfl, rfl, hr'⟩

theorem map (h : Simulates r x y) (g : α → β) : Simulates r (g <$> x) (g <$> y) := by
  intro s t hr
  rw [map_run, map_run]
  rcases h.cases hr with ⟨a, s', t', hx, hy, hr'⟩ | ⟨e, s', t', hx, hy, hr'⟩
  · rw [hx, hy]
    exact .ok (g a) hr'
  · rw [hx, hy]
    exact .error e hr'

theorem outcome_eq (h : Simulates r x y) {s : σ} {t : τ} (hr : r s t) :
    outcome x s = outcome y t := by
  rcases h.cases hr with ⟨a, s', t', hx, hy, -⟩ | ⟨e, s', t', hx, hy, -⟩
  · rw [outcome, hx, outcome, hy]
  · rw [outcome, hx, outcome, hy]

theorem stateAfter (h : Simulates r x y) {s : σ} {t : τ} (hr : r s t) :
    r (PowerTables.stateAfter x s) (PowerTables.stateAfter y t) := by
  rcases h.cases hr with ⟨a, s', t', hx, hy, hr'⟩ | ⟨e, s', t', hx, hy, hr'⟩
  · rwa [stateAfter_ok hx, stateAfter_ok hy]
  · rwa [stateAfter_error hx, stateAfter_error hy]

/-! ### Whole runs -/

variable {f : ι → EStateM ε σ α} {g : ι → EStateM ε τ α}

theorem outcomes_eq (h : ∀ i, Simulates r (f i) (g i)) (steps : List ι) {s : σ} {t : τ}
    (hr : r s t) : outcomes (steps.map f) s = outcomes (steps.map g) t := by
  induction steps generalizing s t with
  | nil => rfl
  | cons i steps ih =>
    rw [List.map_cons, List.map_cons, outcomes, outcomes, (h i).outcome_eq hr,
      ih ((h i).stateAfter hr)]

theorem stateAfterAll (h : ∀ i, Simulates r (f i) (g i)) (steps : List ι) {s : σ} {t : τ}
    (hr : r s t) : r (PowerTables.stateAfterAll (steps.map f) s)
      (PowerTables.stateAfterAll (steps.map g) t) := by
  induction steps generalizing s t with
  | nil => exact hr
  | cons i steps ih => exact ih ((h i).stateAfter hr)

end Simulates

end PowerTables
