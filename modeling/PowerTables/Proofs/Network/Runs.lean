import Mathlib.Data.List.Induction
import PowerTables.Proofs.Network.Effects

/-!
# Runs of a store

A run is a list of operations that are tried one after another on an empty store; those that
fail count as well.  The stores that runs leave are the reachable ones, so what holds of every
reachable store holds after every run.

## Main definitions

* `Store.afterAll` : the store after a list of operations.

## Main results

* `Store.reachable_iff_afterAll` : the reachable stores are those that runs leave.
* `Store.fits_schema_afterAll` : the tables of every network after a run.
-/

namespace PowerTables

namespace Store

/-- The store after some operations, one after another, each of which may have failed. -/
def afterAll (ops : List Operation) (s : Store) : Store :=
  ops.foldl (fun s op => op.after s) s

theorem afterAll_append_singleton (ops : List Operation) (op : Operation) (s : Store) :
    afterAll (ops ++ [op]) s = op.after (afterAll ops s) := by
  rw [afterAll, List.foldl_append]
  rfl

theorem reachable_afterAll (ops : List Operation) : (afterAll ops {}).Reachable := by
  induction ops using List.reverseRecOn with
  | nil => exact .empty
  | append_singleton ops op ih =>
    rw [afterAll_append_singleton]
    exact .after op ih

theorem reachable_iff_afterAll {s : Store} : s.Reachable ↔ ∃ ops, s = afterAll ops {} := by
  constructor
  · intro h
    induction h with
    | empty => exact ⟨[], rfl⟩
    | after op _ ih =>
      obtain ⟨ops, rfl⟩ := ih
      exact ⟨ops ++ [op], (afterAll_append_singleton ops op {}).symm⟩
  · rintro ⟨ops, rfl⟩
    exact reachable_afterAll ops

/-- Whatever was tried on a store, with any arguments and on any handles, in each network that
it holds the working variant is one of the variants, and in every variant each of the
twenty-two categories has a table with the columns of its schema, all as long as the index. -/
theorem fits_schema_afterAll (ops : List Operation) {e : Nat × Network}
    (he : e ∈ (afterAll ops {}).networks) :
    (∃ v ∈ e.2.variants, v.id = e.2.working) ∧
      (Category.all.length = 22 ∧ Category.all.Nodup ∧ ∀ c, c ∈ Category.all) ∧
      ∀ v ∈ e.2.variants, ∀ c : Category,
        (v.tables c).columns.map (fun col => (col.name, col.type)) =
          c.schema.map (fun spec => (spec.name, spec.type)) ∧
        ∀ col ∈ (v.tables c).columns, col.length = (v.tables c).index.length := by
  have hn : e.2.WellFormed := (reachable_afterAll ops).wellFormed.networks e he
  refine ⟨?_, ⟨by decide, by decide, Category.mem_all⟩, fun v hv c => ?_⟩
  · obtain ⟨v, hv, hworking⟩ := List.any_eq_true.mp hn.working
    exact ⟨v, hv, beq_iff_eq.mp hworking⟩
  · exact ⟨(hn.tables v hv c).signature, (hn.tables v hv c).rectangular⟩

/-- A run with an element added, a copied variant in place of the first one, and three
operations that fail: a toggle of an unknown switch, the reading of an empty text, and the
release of a handle that was never given out. -/
def exampleRun : List Operation :=
  [.create "grid" ⟨0, 0, 0⟩,
   .addElement 1 .load (.plain "L") [⟨"p0", .ofDouble 6.0⟩],
   .cloneVariant 1 Network.initialVariant "copy" false,
   .selectVariant 1 "copy",
   .removeVariant 1 Network.initialVariant,
   .write 1 .load "connected" [.plain "L"] (.ints [2]),
   .setSwitch 1 "L" true,
   .load "",
   .release 2]

theorem fits_schema_exampleRun : ∃ e ∈ (afterAll exampleRun {}).networks,
    e.2.working = "copy" ∧ (∃ v ∈ e.2.variants, v.id = e.2.working) ∧
      ∀ v ∈ e.2.variants, ∀ col ∈ (v.tables .load).columns,
        col.length = (v.tables .load).index.length := by
  have hheld : (afterAll exampleRun {}).networks.head?.map (·.2.working) = some "copy" := by
    decide +kernel
  obtain ⟨e, he, hworking⟩ := Option.map_eq_some_iff.mp hheld
  have hmem := List.mem_of_head? he
  have hfits := fits_schema_afterAll exampleRun hmem
  exact ⟨e, hmem, hworking, hfits.1, fun v hv => (hfits.2.2 v hv .load).2⟩

end Store

end PowerTables
