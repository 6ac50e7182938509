import Mathlib.Algebra.Ring.Nat
import Mathlib.Data.List.Induction
import PowerTables.Proofs.Session.Reports

/-!
# Runs of a session

A run is a list of steps that are tried one after another: operations of the session, and
operations of others on its store in between.  What a session counts over a run is the sum of what
the steps come upon, each in the state that the steps before it leave.

## Main definitions

* `Session.Step`, `Session.afterAll` : steps and runs.
* `Session.unresolvedCounts` : the numbers of cells without voltage that the steps come upon.

## Main results

* `Session.reachable_afterAll` : runs lead to reachable sessions.
* `Session.missingBases_eq_sum` : what a session counts over a run.
-/

namespace PowerTables

namespace Session

open SessionState

variable {s : SessionState}

/-- A step of a run: an operation of the session, or one of others on the store. -/
inductive Step
  | own (op : Operation)
  | others (op : Store.Operation)

namespace Step

/-- Session and store after a step. -/
def after : Step → SessionState → SessionState
  | .own op, s => op.after s
  | .others op, s => { s with store := op.after s.store }

/-- The cells without voltage that a step comes upon. -/
def unresolvedCells : Step → SessionState → List (ConversionRule × RowKey)
  | .own op, s => op.unresolvedCells s
  | .others _, _ => []

theorem missingBases_after (hs : s.WellFormed) (step : Step) :
    (step.after s).session.missingBases =
      s.session.missingBases + (step.unresolvedCells s).length := by
  cases step with
  | own op => exact op.missingBases_after hs
  | others op => rfl

end Step

/-- Session and store after some steps, one after another, each of which may have failed. -/
def afterAll (steps : List Step) (s : SessionState) : SessionState :=
  steps.foldl (fun s step => step.after s) s

variable {steps : List Step}

theorem afterAll_append (steps later : List Step) (s : SessionState) :
    afterAll (steps ++ later) s = afterAll later (afterAll steps s) := List.foldl_append

/-- The sessions of a run are reachable, as long as nobody else releases the handle. -/
theorem reachable_afterAll (hs : s.Reachable)
    (hothers : ∀ op, Step.others op ∈ steps → op ≠ .release s.session.handle) :
    (afterAll steps s).Reachable ∧ (afterAll steps s).session.handle = s.session.handle := by
  induction steps generalizing s with
  | nil => exact ⟨hs, rfl⟩
  | cons step steps ih =>
    have hstep : (step.after s).Reachable ∧
        (step.after s).session.handle = s.session.handle := by
      cases step with
      | own op => exact ⟨.after op hs, (op.relates s).handle⟩
      | others op => exact ⟨.others op hs (hothers op List.mem_cons_self), rfl⟩
    obtain ⟨hreachable, hhandle⟩ := ih hstep.1 fun op hop => by
      rw [hstep.2]
      exact hothers op (List.mem_cons_of_mem step hop)
    exact ⟨hreachable, hhandle.trans hstep.2⟩

/-- The numbers of cells without voltage that the steps of a run come upon, each in the state that
the steps before it leave. -/
def unresolvedCounts (steps : List Step) (s : SessionState) : List Nat :=
  steps.mapIdx fun i step => (step.unresolvedCells (afterAll (steps.take i) s)).length

theorem unresolvedCounts_append_singleton (steps : List Step) (step : Step) (s : SessionState) :
    unresolvedCounts (steps ++ [step]) s =
      unresolvedCounts steps s ++ [(step.unresolvedCells (afterAll steps s)).length] := by
  rw [unresolvedCounts, List.mapIdx_concat, unresolvedCounts, List.take_left]
  congr 1
  refine List.mapIdx_eq_mapIdx_iff.mpr fun i hi => ?_
  rw [List.take_append_of_le_length (Nat.le_of_lt hi)]

theorem missingBases_afterAll (hs : s.Reachable)
    (hothers : ∀ op, Step.others op ∈ steps → op ≠ .release s.session.handle) :
    (afterAll steps s).session.missingBases =
      s.session.missingBases + (unresolvedCounts steps s).sum := by
  induction steps using List.reverseRecOn with
  | nil => rfl
  | append_singleton steps step ih =>
    have hbefore : ∀ op, Step.others op ∈ steps → op ≠ .release s.session.handle := fun op hop =>
      hothers op (List.mem_append_left _ hop)
    have hwf := (reachable_afterAll hs hbefore).1.wellFormed
    have hlast : afterAll [step] (afterAll steps s) = step.after (afterAll steps s) := rfl
    rw [afterAll_append, hlast, step.missingBases_after hwf, ih hbefore,
      unresolvedCounts_append_singleton, List.sum_append_nat, List.sum_singleton, Nat.add_assoc]

/-- After any run of a session that was just opened, with any tables and among operations of
others, the count is the number of all cells without voltage that the readings and writings in
per-unit which succeeded came upon, and it never went down. -/
theorem missingBases_eq_sum {store : Store} {handle : Nat} (hstore : store.Reachable)
    (hlive : (store.network? handle).isSome)
    (hothers : ∀ op, Step.others op ∈ steps → op ≠ .release handle) :
    (afterAll steps ⟨Session.open handle, store⟩).session.missingBases =
        (unresolvedCounts steps ⟨Session.open handle, store⟩).sum ∧
      ∀ i j, i ≤ j → (afterAll (steps.take i) ⟨Session.open handle, store⟩).session.missingBases ≤
        (afterAll (steps.take j) ⟨Session.open handle, store⟩).session.missingBases := by
  have hopened : SessionState.Reachable ⟨Session.open handle, store⟩ := .opened hstore hlive
  refine ⟨(missingBases_afterAll hopened hothers).trans (Nat.zero_add _), fun i j hij => ?_⟩
  have hbefore : ∀ op, Step.others op ∈ steps.take i → op ≠ .release handle := fun op hop =>
    hothers op (List.mem_of_mem_take hop)
  obtain ⟨hreachable, hhandle⟩ := reachable_afterAll hopened hbefore
  have hsplit : steps.take j = steps.take i ++ (steps.take j).drop i := by
    conv_lhs => rw [← List.take_append_drop i (steps.take j), List.take_take, Nat.min_eq_left hij]
  rw [hsplit, afterAll_append, missingBases_afterAll hreachable fun op hop => ?_]
  · exact Nat.le_add_right _ _
  · rw [hhandle]
    exact hothers op (List.mem_of_mem_take (List.mem_of_mem_drop hop))

/-- Two generators are added, of which one is at no voltage level; they are read in per-unit, a
writing fails, another one leaves a row out, and they are read in physical units. -/
def exampleSteps : List Step :=
  [.others (.addElement 1 .voltageLevel (.plain "VL") [⟨"nominal_v", .ofDouble 400.0⟩]),
   .others (.addElement 1 .generator (.plain "G1") [⟨"voltage_level_id", .ofString "VL"⟩]),
   .others (.addElement 1 .generator (.plain "G2") []),
   .own (.setPerUnit true), .own (.elements .generator), .own (.update .generator .strayTargets),
   .own (.update .generator .newTargets), .own (.setPerUnit false), .own (.elements .generator)]

theorem missingBases_exampleSteps :
    let start : SessionState :=
      ⟨Session.open 1, (Store.Operation.create "grid" ⟨0, 0, 0⟩).after {}⟩
    unresolvedCounts exampleSteps start = [0, 0, 0, 0, 2, 0, 1, 0, 0] ∧
      (afterAll exampleSteps start).session.missingBases =
        (unresolvedCounts exampleSteps start).sum := by
  refine ⟨by decide +kernel, (missingBases_eq_sum (.after _ .empty) rfl fun op hop => ?_).1⟩
  simp only [exampleSteps, List.mem_cons, reduceCtorEq, Step.others.injEq, List.not_mem_nil,
    or_false] at hop
  rcases hop with rfl | rfl | rfl <;> nofun

end Session

end PowerTables
