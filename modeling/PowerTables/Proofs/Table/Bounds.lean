import PowerTables.Proofs.Table.WellFormed

/-!
# Reads past the end

Cells are copied and set by position, so an operation may be asked for a position that a column
does not have.  It is refused then, with an error of its own that none of the checks gives.  No
operation fails in this way on a table where every row has a cell in every column; the names of
the columns do not matter, nor whether a column goes on behind the last row.

## Main definitions

* `TableError.IsOutside` : the errors of an access past the end.
* `Table.IsComplete` : every row has a cell in every column.

## Main results

* `Table.isComplete_iff` : the tables of which any rows can be chosen.
* `Table.not_isOutside_of_setCell`, `Table.not_isOutside_of_join` : changes of complete tables.
* `Table.not_isOutside_of_insertColumn`, `Table.not_isOutside_of_pushRow`,
  `Table.not_isOutside_of_select` : operations that read no cell.
-/

namespace PowerTables

/-- The errors of an access past the end of a column or of the index. -/
def TableError.IsOutside : TableError → Prop
  | .positionOutside _ _ | .shortColumn _ => True
  | _ => False

namespace Table

/-- Every row has a cell in every column. -/
def IsComplete (t : Table) : Prop := ∀ c ∈ t.columns, t.size ≤ c.length

variable {t source : Table} {c : Column} {name : String} {names : List String} {key : RowKey}
  {cell : Cell} {cells : List Cell} {e : TableError}

theorem IsRectangular.isComplete (ht : t.IsRectangular) : t.IsComplete :=
  fun c hc => (ht c hc).ge

/-- A table is complete exactly if any of its rows can be chosen. -/
theorem isComplete_iff : t.IsComplete ↔ ∀ keep, ∃ u, t.filterRowsBy keep = .ok u := by
  simp only [exists_filterRowsBy_iff]
  constructor
  · exact fun h keep c hc p hp => lt_of_lt_of_le (lt_of_mem_positionsBy hp) (h c hc)
  · intro h c hc
    rcases Nat.eq_zero_or_pos t.size with hzero | hpos
    · exact hzero ▸ Nat.zero_le _
    · -- the last row is chosen with all others
      have hlt : t.size - 1 < t.index.length := Nat.sub_lt hpos Nat.one_pos
      have hlast : t.size - 1 ∈ positionsBy t.index fun _ _ => true :=
        mem_positionsBy.mpr ⟨_, List.getElem?_eq_getElem hlt, rfl⟩
      have := h _ c hc _ hlast
      omega

theorem isOutside_of_gatherColumn {positions : List (Option Nat)}
    (h : gatherColumn positions c = .error e) : e.IsOutside :=
  gatherColumn_eq_error h ▸ trivial

/-- Rows that cannot be chosen lie past the end of a column. -/
theorem isOutside_of_filterRowsBy {keep : Nat → RowKey → Bool}
    (h : t.filterRowsBy keep = .error e) : e.IsOutside := by
  rcases bind_eq_error.mp h with h | ⟨columns, -, h⟩
  · obtain ⟨c, -, hc⟩ := mapM_eq_error h
    exact isOutside_of_gatherColumn hc
  · cases h

/-! ### Operations that read no cell -/

theorem not_isOutside_of_insertColumn (h : t.insertColumn c = .error e) : ¬e.IsOutside := by
  rw [insertColumn] at h
  split at h
  · cases h
    exact id
  split at h
  · cases h
    exact id
  · cases h

theorem not_isOutside_of_select (h : t.select names = .error e) : ¬e.IsOutside := by
  obtain ⟨selected, name, -, h⟩ := foldlM_eq_error h
  split at h
  · cases h
    exact id
  · exact not_isOutside_of_insertColumn h

theorem not_isOutside_of_pushRow (h : t.pushRow key cells = .error e) : ¬e.IsOutside := by
  rw [pushRow] at h
  split at h
  · cases h
    exact id
  split at h
  · cases h
    exact id
  split at h
  · cases h
    exact id
  · cases h

/-! ### Operations on complete tables -/

/-- A cell is refused for its type only, where every row has a cell in every column. -/
theorem not_isOutside_of_setCell (ht : t.IsComplete) (h : t.setCell key name cell = .error e) :
    ¬e.IsOutside := by
  rw [setCell] at h
  split at h
  · cases h
    exact id
  next p hp =>
  rw [setAt] at h
  split at h
  · cases h
    exact id
  next c hc =>
  have hlt : p < c.length := lt_of_lt_of_le
    (List.findIdx?_eq_some_iff_getElem.mp hp).1 (ht c (mem_of_column? hc).1)
  rw [Column.setCell, if_neg (Nat.not_le.mpr hlt)] at h
  split at h
  · cases h
  · cases h
    exact id

/-- A join that fails asks for a column that neither table has, or for a cell that a column of
the other table does not have. -/
theorem join_failure (h : (t.join source names).failure = some e) :
    (∃ name, e = .joinSource name) ∨ ∃ c ∈ source.columns,
      gatherColumn (t.index.map (lastPosition? source.index)) c = .error e := by
  induction names using List.reverseRecOn with
  | nil => cases h
  | append_singleton names name ih =>
    rw [join, List.foldl_append, ← join, List.foldl_cons, List.foldl_nil, Joined.addColumn] at h
    split at h
    · exact ih h
    next hgoes =>
    have hnone : (t.join source names).failure = none := by
      simp only [Bool.or_eq_true, not_or] at hgoes
      simpa using hgoes.1
    split at h
    · exact .inl ⟨name, (Option.some.inj h).symm⟩
    next c hc =>
    split at h
    · next e' he =>
      exact .inr ⟨c, (mem_of_column? hc).1, he.trans (congrArg _ (Option.some.inj h))⟩
    · cases hnone.symm.trans h

/-- A join with a complete table ends early only at a column that neither table has. -/
theorem not_isOutside_of_join (hsource : source.IsComplete)
    (h : (t.join source names).failure = some e) : ¬e.IsOutside := by
  rcases join_failure h with ⟨name, rfl⟩ | ⟨c, hc, hgather⟩
  · exact id
  · have hcopied : gatherColumn (t.index.map (lastPosition? source.index)) c = .ok _ :=
      gatherColumn_eq_ok_iff.mpr ⟨fun p hp => by
        obtain ⟨key, -, hkey⟩ := List.mem_map.mp hp
        exact lt_of_lt_of_le (lastPosition?_lt hkey) (hsource c hc), rfl⟩
    cases hgather.symm.trans hcopied

end Table

end PowerTables
