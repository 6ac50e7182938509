import PowerTables.Proofs.List
import PowerTables.Proofs.Table.Cells
import PowerTables.Table.Relational

/-!
# Choosing rows and columns

On a table whose columns are all as long as the index, the rows of some keys can always be
chosen, and so can columns that are there.  The outcome is given in closed form: the chosen
rows as `Table.rowsWhere`, the chosen columns as `Table.withColumns`.  On other tables, rows can
be chosen exactly if every column goes on to all of them.

## Main definitions

* `Column.gathered` : the values of a column at some positions.
* `Table.rowsWhere` : the rows of a table at the positions that satisfy a condition.
* `Table.rows` : the row keys, each with its cells.
* `Table.filterRowsBy` : the rows that a condition accepts which may have a memory.
* `Table.withColumns` : the columns of some names.

## Main results

* `Table.gatherColumn_eq_ok_iff` : the cells that can be copied.
* `Table.rows_rowsWhere`, `Table.cell?_rowsWhere` : the cells of chosen rows.
* `Table.exists_filterRowsBy_iff`, `Table.filterRowsBy_spec` : the rows that can be chosen.
* `Table.filterRows_spec`, `Table.filterRows_eq` : the rows of some keys.
* `Table.map_some_withColumns` : the columns of some names.
-/

namespace PowerTables

/-! ### Copied cells -/

namespace Column

/-- The values of a column at some positions, with a missing value where there is none. -/
def gathered (c : Column) (positions : List (Option Nat)) : Column :=
  ⟨c.name, c.type, positions.map fun p => (p.bind (c.values[·]?)).getD c.type.missing⟩

theorem gather?_eq {c : Column} {positions : List (Option Nat)}
    (h : ∀ p, some p ∈ positions → p < c.length) :
    c.gather? positions = some (c.gathered positions) := by
  rw [gather?, gathered]
  refine Option.map_eq_some_iff.mpr ⟨_, ?_, rfl⟩
  induction positions with
  | nil => rfl
  | cons p positions ih =>
    rw [List.mapM_cons, ih fun q hq => h q (List.mem_cons_of_mem p hq)]
    cases p with
    | none => rfl
    | some p =>
      have hp : p < c.values.length := h p List.mem_cons_self
      simp [hp]

theorem cell?_gathered (c : Column) (positions : List (Option Nat)) (i : Nat) :
    (c.gathered positions).cell? i =
      (positions[i]?).map fun p => (p.bind c.cell?).getD ⟨c.type, c.type.missing⟩ := by
  rw [cell?, gathered, List.getElem?_map, Option.map_map]
  congr 1
  funext p
  rcases p with _ | p
  · rfl
  · cases h : c.values[p]? with
    | none => simp [cell?, h]
    | some value => simp [cell?, h]

theorem gathered_map_some {c : Column} {positions : List Nat}
    (h : ∀ p ∈ positions, p < c.length) : c.gathered (positions.map some) =
      ⟨c.name, c.type, positions.filterMap (c.values[·]?)⟩ := by
  rw [gathered, List.map_map]
  congr 1
  induction positions with
  | nil => rfl
  | cons p positions ih =>
    have hp : c.values[p]? = some _ := List.getElem?_eq_getElem (h p List.mem_cons_self)
    rw [List.map_cons, ih fun q hq => h q (List.mem_cons_of_mem p hq),
      List.filterMap_cons_some hp, Function.comp_apply, Option.bind_some, hp, Option.getD_some]

end Column

namespace Table

/-- Cells are copied from the positions that are asked for, none of which may lie past the end of
the column. -/
theorem gatherColumn_eq_ok_iff {positions : List (Option Nat)} {c d : Column} :
    gatherColumn positions c = .ok d ↔
      (∀ p, some p ∈ positions → p < c.length) ∧ d = c.gathered positions := by
  constructor
  · intro h
    have hreach : ∀ p, some p ∈ positions → p < c.length := by
      intro p hp
      rw [gatherColumn] at h
      split at h
      · next hgather =>
        obtain ⟨values, hvalues, -⟩ := Option.map_eq_some_iff.mp hgather
        obtain ⟨value, -, hvalue⟩ := exists_of_forall₂ (mapM_eq_some_iff.mp hvalues) hp
        exact (List.getElem?_eq_some_iff.mp hvalue).1
      · cases h
    rw [gatherColumn, Column.gather?_eq hreach] at h
    exact ⟨hreach, (Except.ok.inj h).symm⟩
  · rintro ⟨hreach, rfl⟩
    rw [gatherColumn, Column.gather?_eq hreach]

theorem gatherColumn_eq_error {positions : List (Option Nat)} {c : Column} {e : TableError}
    (h : gatherColumn positions c = .error e) : e = .shortColumn c.name := by
  rw [gatherColumn] at h
  split at h
  · cases h
  · exact (Except.error.inj h).symm

end Table

/-! ### Rows -/

/-- The rows of a column at the positions that satisfy a condition. -/
def Column.rowsWhere (keep : Nat → Bool) (c : Column) : Column :=
  ⟨c.name, c.type, pick keep c.values⟩

theorem Column.cells_rowsWhere (keep : Nat → Bool) (c : Column) :
    (c.rowsWhere keep).cells = pick keep c.cells := (pick_map keep _ _).symm

namespace Table

/-- The rows of a table at the positions that satisfy a condition. -/
def rowsWhere (keep : Nat → Bool) (t : Table) : Table :=
  ⟨pick keep t.index, t.columns.map (Column.rowsWhere keep)⟩

@[simp] theorem signature_rowsWhere (keep : Nat → Bool) (t : Table) :
    (t.rowsWhere keep).signature = t.signature := by
  simp [signature, rowsWhere, Column.rowsWhere, Function.comp_def]

theorem mem_index_rowsWhere {keep : Nat → Bool} {t : Table} {key : RowKey} :
    key ∈ (t.rowsWhere keep).index ↔ ∃ p, t.index[p]? = some key ∧ keep p = true := mem_pick

theorem mem_zip_rowsWhere {index : List RowKey} {col : Column} {keep : Nat → Bool} {key : RowKey}
    {cell : Cell} :
    (key, cell) ∈ (pick keep index).zip (col.rowsWhere keep).cells ↔
      ∃ p, index[p]? = some key ∧ col.cell? p = some cell ∧ keep p = true := by
  rw [Column.cells_rowsWhere, pick_zip, mem_pick]
  simp only [List.getElem?_zip_eq_some, Column.getElem?_cells, and_assoc]

theorem IsRectangular.rowsWhere {t : Table} (ht : t.IsRectangular) (keep : Nat → Bool) :
    (t.rowsWhere keep).IsRectangular := by
  intro col hcol
  obtain ⟨col, hmem, rfl⟩ := List.mem_map.mp hcol
  exact length_pick_congr keep (ht col hmem)

theorem rowsWhere_congr {keep keep' : Nat → Bool} {t : Table} (ht : t.IsRectangular)
    (h : ∀ p < t.size, keep p = keep' p) : t.rowsWhere keep = t.rowsWhere keep' := by
  rw [rowsWhere, rowsWhere, pick_congr h]
  congr 1
  refine List.map_congr_left fun c hc => ?_
  have hlength : c.values.length = t.size := ht c hc
  rw [Column.rowsWhere, Column.rowsWhere, pick_congr fun p hp => h p (hlength ▸ hp)]

theorem rowsWhere_eq_self {keep : Nat → Bool} {t : Table} (ht : t.IsRectangular)
    (h : ∀ p < t.size, keep p = true) : t.rowsWhere keep = t := by
  obtain ⟨index, columns⟩ := t
  rw [rowsWhere, pick_eq_self h]
  congr 1
  refine (List.map_congr_left fun c hc => ?_).trans (List.map_id columns)
  have hlength : c.values.length = index.length := ht c hc
  have hvalues : pick keep c.values = c.values :=
    pick_eq_self fun p hp => h p (show p < index.length from hlength ▸ hp)
  rw [Column.rowsWhere, hvalues]
  rfl

/-! ### Rows with their cells -/

/-- The rows of a table: each key with its cells, which are told by the names of the columns. -/
def rows (t : Table) : List (RowKey × (String → Option Cell)) :=
  t.index.zipIdx.map fun (key, p) => (key, t.cellAt? p)

theorem getElem?_rows (t : Table) (p : Nat) :
    t.rows[p]? = (t.index[p]?).map fun key => (key, t.cellAt? p) := by
  rw [rows, List.getElem?_map, List.getElem?_zipIdx, Option.map_map, Nat.zero_add]
  rfl

@[simp] theorem length_rows (t : Table) : t.rows.length = t.size := by
  rw [rows, List.length_map, List.length_zipIdx, size]

/-- A cell is that of the first row of its key. -/
theorem cell?_eq_find?_rows (t : Table) (key : RowKey) (name : String) :
    t.cell? key name = (t.rows.find? (·.1 == key)).bind (·.2 name) := by
  rw [cell?_eq_bind, position?, List.findIdx?_eq_fst_find?_zipIdx, rows, List.find?_map,
    Option.bind_map, Option.bind_map]
  rfl

theorem cellAt?_rowsWhere {t : Table} (ht : t.IsRectangular) (keep : Nat → Bool) (i : Nat)
    (name : String) : (t.rowsWhere keep).cellAt? i name =
      ((pick keep (List.range t.size))[i]?).bind (t.cellAt? · name) := by
  have hcolumn : (t.rowsWhere keep).column? name =
      (t.column? name).map (Column.rowsWhere keep) := by
    rw [column?, rowsWhere, List.find?_map, column?]
    rfl
  rw [cellAt?, hcolumn]
  cases hc : t.column? name with
  | none => simp [cellAt?, hc]
  | some c =>
    have hlength : c.cells.length = t.size :=
      c.length_cells.trans (ht c (mem_of_column? hc).1)
    rw [Option.map_some, Option.bind_some, ← Column.getElem?_cells, Column.cells_rowsWhere,
      getElem?_pick, hlength]
    simp only [Column.getElem?_cells, cellAt?_of_column? hc]

/-- The rows that are chosen come with all their cells. -/
theorem rows_rowsWhere {t : Table} (ht : t.IsRectangular) (keep : Nat → Bool) :
    (t.rowsWhere keep).rows = pick keep t.rows := by
  ext i : 1
  have hindex : (t.rowsWhere keep).index[i]? =
      ((pick keep (List.range t.size))[i]?).bind (t.index[·]?) := getElem?_pick keep t.index i
  have hcells := funext (cellAt?_rowsWhere ht keep i)
  rw [getElem?_rows, getElem?_pick, length_rows, hindex, hcells]
  cases (pick keep (List.range t.size))[i]? with
  | none => rfl
  | some p => rw [Option.bind_some, Option.bind_some, getElem?_rows]; rfl

/-- A condition on the keys chooses whole rows, and leaves their order. -/
theorem rows_rowsWhere_any {t : Table} (ht : t.IsRectangular) (keep : RowKey → Bool) :
    (t.rowsWhere fun p => (t.index[p]?).any keep).rows = t.rows.filter (keep ·.1) := by
  rw [rows_rowsWhere ht]
  refine pick_eq_filter fun p row hrow => ?_
  rw [getElem?_rows, Option.map_eq_some_iff] at hrow
  obtain ⟨key, hkey, rfl⟩ := hrow
  rw [hkey, Option.any_some]

/-- The cells of the keys that satisfy a condition are found as before, and no others. -/
theorem cell?_rowsWhere {t : Table} (ht : t.IsRectangular) (keep : RowKey → Bool) (key : RowKey)
    (name : String) : (t.rowsWhere fun p => (t.index[p]?).any keep).cell? key name =
      if keep key then t.cell? key name else none := by
  rw [cell?_eq_find?_rows, rows_rowsWhere_any ht, List.find?_filter, cell?_eq_find?_rows]
  by_cases hkeep : keep key = true
  · have hcongr : (fun row : RowKey × (String → Option Cell) =>
        decide (keep row.1 = true ∧ (row.1 == key) = true)) = (·.1 == key) := by
      funext row
      by_cases hrow : row.1 = key
      · simp [hrow, hkeep]
      · simp [hrow]
    rw [if_pos hkeep, hcongr]
  · have hnone : t.rows.find? (fun row => decide (keep row.1 = true ∧ (row.1 == key) = true)) =
        none := by
      rw [List.find?_eq_none]
      intro row _ hrow
      obtain ⟨hkeeps, hkey⟩ := of_decide_eq_true hrow
      exact hkeep (beq_iff_eq.mp hkey ▸ hkeeps)
    rw [if_neg hkeep, hnone, Option.bind_none]

/-! ### Conditions on rows -/

/-- The positions of the rows that a condition on position and key accepts. -/
def positionsBy (index : List RowKey) (keep : Nat → RowKey → Bool) : List Nat :=
  (index.zipIdx.filter fun e => keep e.2 e.1).map (·.2)

/-- The rows that a condition accepts.  It is asked once for each row, in order, so that one
which remembers what it was asked before goes by the position as well as by the key. -/
def filterRowsBy (t : Table) (keep : Nat → RowKey → Bool) : Except TableError Table := do
  let positions := positionsBy t.index keep
  let columns ← t.columns.mapM (gatherColumn (positions.map some))
  return ⟨positions.filterMap (t.index[·]?), columns⟩

section FilterRowsBy

variable {index : List RowKey} {keep : Nat → RowKey → Bool} {t u : Table}

theorem mem_positionsBy {p : Nat} :
    p ∈ positionsBy index keep ↔ ∃ key, index[p]? = some key ∧ keep p key = true :=
  mem_zipIdx_filter

theorem lt_of_mem_positionsBy {p : Nat} (h : p ∈ positionsBy index keep) : p < index.length := by
  obtain ⟨key, hkey, -⟩ := mem_positionsBy.mp h
  exact (List.getElem?_eq_some_iff.mp hkey).1

/-- The entries at the positions of the rows that are accepted, if none of them lies past the
end. -/
theorem filterMap_positionsBy {α : Type} {values : List α}
    (h : ∀ p ∈ positionsBy index keep, p < values.length) :
    (positionsBy index keep).filterMap (values[·]?) =
      pick (fun p => (index[p]?).any (keep p)) values := filterMap_zipIdx_filter h

/-- The rows that are accepted can be copied exactly if every column goes on to all of them. -/
theorem exists_filterRowsBy_iff : (∃ u, t.filterRowsBy keep = .ok u) ↔
    ∀ c ∈ t.columns, ∀ p ∈ positionsBy t.index keep, p < c.length := by
  have hcolumn (c : Column) : (∃ d, gatherColumn ((positionsBy t.index keep).map some) c = .ok d) ↔
      ∀ p ∈ positionsBy t.index keep, p < c.length := by
    simp [gatherColumn_eq_ok_iff]
  simp only [← hcolumn]
  rw [← exists_mapM_iff]
  constructor
  · rintro ⟨u, hu⟩
    obtain ⟨columns, hcolumns, -⟩ := bind_eq_ok.mp hu
    exact ⟨columns, hcolumns⟩
  · rintro ⟨columns, hcolumns⟩
    exact ⟨_, bind_eq_ok.mpr ⟨columns, hcolumns, rfl⟩⟩

/-- The rows that are accepted, where they can be copied. -/
theorem filterRowsBy_spec (h : t.filterRowsBy keep = .ok u) :
    u = t.rowsWhere fun p => (t.index[p]?).any (keep p) := by
  have hreach := exists_filterRowsBy_iff.mp ⟨u, h⟩
  obtain ⟨columns, hcolumns, hu⟩ := bind_eq_ok.mp h
  obtain rfl := Except.ok.inj hu
  rw [filterMap_positionsBy fun p hp => lt_of_mem_positionsBy hp, rowsWhere]
  congr 1
  refine eq_map_of_mapM hcolumns fun c d hc hd => ?_
  obtain ⟨-, rfl⟩ := gatherColumn_eq_ok_iff.mp hd
  rw [Column.gathered_map_some (hreach c hc), Column.rowsWhere,
    filterMap_positionsBy (hreach c hc)]

/-- The rows that are accepted can be copied in a table whose columns are as long as the
index. -/
theorem filterRowsBy_eq (ht : t.IsRectangular) (keep : Nat → RowKey → Bool) :
    t.filterRowsBy keep = .ok (t.rowsWhere fun p => (t.index[p]?).any (keep p)) := by
  obtain ⟨u, hu⟩ : ∃ u, t.filterRowsBy keep = .ok u :=
    exists_filterRowsBy_iff.mpr fun c hc p hp => lt_of_lt_of_eq (lt_of_mem_positionsBy hp)
      (ht c hc).symm
  rw [hu, filterRowsBy_spec hu]

end FilterRowsBy

/-- A condition on the keys alone. -/
theorem filterRows_eq_filterRowsBy (t : Table) (keep : RowKey → Bool) :
    t.filterRows keep = t.filterRowsBy fun _ => keep := by
  have hindex : t.index.filter keep =
      (positionsBy t.index fun _ => keep).filterMap (t.index[·]?) := by
    rw [filterMap_positionsBy fun p hp => lt_of_mem_positionsBy hp]
    exact (pick_eq_filter fun p key hp => by rw [hp, Option.any_some]).symm
  rw [filterRows, filterRowsBy, ← hindex]
  rfl

/-- The rows of some keys, where they can be chosen. -/
theorem filterRows_spec {t u : Table} {keep : RowKey → Bool} (h : t.filterRows keep = .ok u) :
    u = t.rowsWhere fun p => (t.index[p]?).any keep :=
  filterRowsBy_spec (filterRows_eq_filterRowsBy t keep ▸ h)

/-- The rows of some keys can be chosen in a table whose columns are as long as the index. -/
theorem filterRows_eq {t : Table} (ht : t.IsRectangular) (keep : RowKey → Bool) :
    t.filterRows keep = .ok (t.rowsWhere fun p => (t.index[p]?).any keep) := by
  rw [filterRows_eq_filterRowsBy, filterRowsBy_eq ht]

/-! ### Columns -/

/-- The table with the same rows and the columns of some names. -/
def withColumns (t : Table) (names : List String) : Table :=
  ⟨t.index, names.filterMap t.column?⟩

/-- The columns that are found for some names have these names. -/
theorem map_name_of_lookup {t : Table} {names : List String} {columns : List Column}
    (h : columns.map some = names.map t.column?) : columns.map (·.name) = names := by
  induction names generalizing columns with
  | nil => simpa using h
  | cons name names ih =>
    rw [List.map_cons] at h
    obtain ⟨c, columns, rfl, hc, hrest⟩ := List.map_eq_cons_iff.mp h
    rw [List.map_cons, (mem_of_column? hc.symm).2, ih hrest]

theorem map_some_withColumns {t : Table} {names : List String}
    (h : ∀ name ∈ names, name ∈ t.columnNames) :
    (t.withColumns names).columns.map some = names.map t.column? := by
  rw [withColumns]
  induction names with
  | nil => rfl
  | cons name names ih =>
    obtain ⟨c, hc⟩ := exists_column?_of_mem (h name List.mem_cons_self)
    rw [List.filterMap_cons_some hc, List.map_cons, List.map_cons, hc,
      ih fun other hother => h other (List.mem_cons_of_mem name hother)]

theorem columnNames_withColumns {t : Table} {names : List String}
    (h : ∀ name ∈ names, name ∈ t.columnNames) : (t.withColumns names).columnNames = names :=
  map_name_of_lookup (map_some_withColumns h)

theorem IsRectangular.withColumns {t : Table} (ht : t.IsRectangular) (names : List String) :
    (t.withColumns names).IsRectangular := by
  intro c hc
  obtain ⟨name, -, hname⟩ := List.mem_filterMap.mp hc
  exact ht c (mem_of_column? hname).1

theorem column?_withColumns {t : Table} {names : List String}
    (h : ∀ name ∈ names, name ∈ t.columnNames) (hnodup : names.Nodup) {name : String}
    (hname : name ∈ names) : (t.withColumns names).column? name = t.column? name := by
  have hnames : (t.withColumns names).columnNames.Nodup := by rwa [columnNames_withColumns h]
  obtain ⟨c, hc⟩ := exists_column?_of_mem (h name hname)
  rw [hc, column?_eq_some_iff hnames]
  exact ⟨List.mem_filterMap.mpr ⟨name, hname, hc⟩, (mem_of_column? hc).2⟩

end Table

end PowerTables
