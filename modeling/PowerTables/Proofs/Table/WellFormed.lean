import PowerTables.Proofs.Table.Join
import PowerTables.Proofs.Table.Writing

/-!
# Well-formed tables

A table is well-formed when its columns are as long as its index and their names are apart.
Columns that are put in one after another are checked for just this, so given columns make a
table exactly if the outcome is well-formed, and columns can be chosen by name exactly if what
is chosen is well-formed.  Every other operation on tables keeps the property.

## Main definitions

* `Table.WellFormed` : the columns are as long as the index, and their names are apart.

## Main results

* `Table.insertColumn_eq_ok_iff`, `Table.ofColumns_eq_ok_iff` : the columns that can be put in.
* `Table.select_eq_ok_iff`, `Table.IsRectangular.exists_select_iff` : the columns that can be
  chosen.
* `Table.pushRow_spec` : the rows that are taken in.
* `Table.WellFormed.rowsWhere`, `Table.WellFormed.joined_added` and the like : operations.
-/

namespace PowerTables

theorem Column.append_spec {col : Column} {cell : Cell} (h : col.type = cell.type) :
    (col.append cell).name = col.name ∧ (col.append cell).type = col.type ∧
      (col.append cell).length = col.length + 1 := by
  obtain ⟨type, value⟩ := cell
  obtain rfl : col.type = type := h
  rw [append, Cell.as?_self]
  simp [length]

namespace Table

/-- The columns of a table are as long as its index, and their names are apart. -/
structure WellFormed (t : Table) : Prop where
  rectangular : t.IsRectangular
  names : t.columnNames.Nodup

instance (t : Table) : Decidable t.WellFormed :=
  decidable_of_iff (t.IsRectangular ∧ t.columnNames.Nodup)
    ⟨fun h => ⟨h.1, h.2⟩, fun h => ⟨h.rectangular, h.names⟩⟩

variable {t u source : Table} {c : Column} {name : String} {names : List String}
  {key : RowKey} {cells : List Cell}

theorem wellFormed_ofIndex (index : List RowKey) : (ofIndex index).WellFormed :=
  ⟨nofun, List.nodup_nil⟩

/-- Some of the columns of a table, in their order. -/
theorem WellFormed.of_sublist (ht : t.WellFormed) {columns : List Column}
    (h : columns.Sublist t.columns) : WellFormed ⟨t.index, columns⟩ :=
  ⟨fun c hc => ht.rectangular c (h.subset hc), ht.names.sublist (h.map _)⟩

theorem WellFormed.of_signature (ht : t.WellFormed) (hu : u.IsRectangular)
    (h : u.signature = t.signature) : u.WellFormed :=
  ⟨hu, columnNames_of_signature h ▸ ht.names⟩

/-! ### Columns put in -/

/-- A column is put in under a new name, if it is as long as the index, and comes last. -/
theorem insertColumn_eq_ok_iff : t.insertColumn c = .ok u ↔
    c.name ∉ t.columnNames ∧ c.length = t.size ∧ u = ⟨t.index, t.columns ++ [c]⟩ := by
  rw [insertColumn, ← hasColumn_iff]
  split
  · next hname => simp [hname]
  · next hname =>
    split
    · next hlength => simp [hlength]
    · next hlength =>
      rw [not_not] at hlength
      simp [hname, hlength, eq_comm]

/-- The columns that can be put in keep a table well-formed. -/
theorem WellFormed.insertColumn_eq_ok_iff (ht : t.WellFormed) : t.insertColumn c = .ok u ↔
    u = ⟨t.index, t.columns ++ [c]⟩ ∧ u.WellFormed := by
  rw [Table.insertColumn_eq_ok_iff]
  constructor
  · rintro ⟨hname, hlength, rfl⟩
    refine ⟨rfl, List.forall_mem_append.mpr ⟨ht.rectangular, ?_⟩, ?_⟩
    · exact List.forall_mem_singleton.mpr hlength
    rw [columnNames, List.map_append, List.nodup_append]
    refine ⟨ht.names, List.nodup_singleton _, fun other hother d hd => ?_⟩
    obtain rfl := List.mem_singleton.mp hd
    rintro rfl
    exact hname hother
  · rintro ⟨rfl, hu⟩
    have hnames := hu.names
    rw [columnNames, List.map_append, List.nodup_append] at hnames
    exact ⟨fun hname => hnames.2.2 _ hname _ (List.mem_singleton_self _) rfl,
      hu.rectangular c (by simp), rfl⟩

/-- Columns are put in one after another exactly if the whole is well-formed. -/
theorem WellFormed.foldlM_insertColumn_eq_ok_iff (ht : t.WellFormed) {columns : List Column} :
    columns.foldlM insertColumn t = .ok u ↔
      u = ⟨t.index, t.columns ++ columns⟩ ∧ u.WellFormed := by
  induction columns generalizing t with
  | nil =>
    rw [List.foldlM_nil, List.append_nil]
    constructor
    · rintro ⟨⟩
      exact ⟨rfl, ht⟩
    · rintro ⟨rfl, -⟩
      rfl
  | cons c columns ih =>
    rw [List.foldlM_cons, bind_eq_ok]
    constructor
    · rintro ⟨v, hv, hrest⟩
      obtain ⟨rfl, hv⟩ := ht.insertColumn_eq_ok_iff.mp hv
      rw [List.append_cons]
      exact (ih hv).mp hrest
    · rw [List.append_cons]
      rintro ⟨rfl, hu⟩
      have hv : WellFormed ⟨t.index, t.columns ++ [c]⟩ :=
        hu.of_sublist (List.sublist_append_left _ _)
      exact ⟨_, ht.insertColumn_eq_ok_iff.mpr ⟨rfl, hv⟩, (ih hv).mpr ⟨rfl, hu⟩⟩

/-- Given columns make a table exactly if it is well-formed. -/
theorem ofColumns_eq_ok_iff {index : List RowKey} {columns : List Column} :
    ofColumns index columns = .ok u ↔ u = ⟨index, columns⟩ ∧ u.WellFormed :=
  (wellFormed_ofIndex index).foldlM_insertColumn_eq_ok_iff

/-! ### Columns chosen -/

/-- Choosing columns is to look them up and to put them in. -/
theorem foldlM_select_eq_ok_iff {selected : Table} :
    names.foldlM (fun selected name =>
        match t.column? name with
        | none => Except.error (TableError.unknownColumn name)
        | some c => selected.insertColumn c) selected = .ok u ↔
    ∃ columns : List Column, columns.map some = names.map t.column? ∧
      columns.foldlM insertColumn selected = .ok u := by
  induction names generalizing selected with
  | nil => simp
  | cons name names ih =>
    rw [List.foldlM_cons, List.map_cons]
    cases hc : t.column? name with
    | none =>
      simp only [List.map_eq_cons_iff]
      constructor
      · intro h
        cases h
      · rintro ⟨_, ⟨_, _, -, h, -⟩, -⟩
        cases h
    | some c =>
      rw [bind_eq_ok]
      simp only [ih]
      constructor
      · rintro ⟨v, hv, columns, hcolumns, hrest⟩
        exact ⟨c :: columns, by rw [List.map_cons, hcolumns],
          by rw [List.foldlM_cons, bind_eq_ok]; exact ⟨v, hv, hrest⟩⟩
      · rintro ⟨columns, hcolumns, hrun⟩
        obtain ⟨_, columns, rfl, ⟨⟩, hrest⟩ := List.map_eq_cons_iff.mp hcolumns
        rw [List.foldlM_cons, bind_eq_ok] at hrun
        obtain ⟨v, hv, hrun⟩ := hrun
        exact ⟨v, hv, columns, hrest, hrun⟩

theorem select_eq_ok_iff : t.select names = .ok u ↔
    u.index = t.index ∧ u.columns.map some = names.map t.column? ∧ u.WellFormed := by
  refine Iff.trans foldlM_select_eq_ok_iff ?_
  constructor
  · rintro ⟨columns, hcolumns, hrun⟩
    obtain ⟨rfl, hu⟩ := (wellFormed_ofIndex t.index).foldlM_insertColumn_eq_ok_iff.mp hrun
    exact ⟨rfl, hcolumns, hu⟩
  · rintro ⟨hindex, hcolumns, hu⟩
    refine ⟨u.columns, hcolumns, ofColumns_eq_ok_iff.mpr ⟨?_, hu⟩⟩
    rw [← hindex]

/-- Columns that are there can be chosen, each once. -/
theorem select_eq (ht : t.IsRectangular) (h : ∀ name ∈ names, name ∈ t.columnNames)
    (hnodup : names.Nodup) : t.select names = .ok (t.withColumns names) :=
  select_eq_ok_iff.mpr ⟨rfl, map_some_withColumns h, ht.withColumns names,
    (columnNames_withColumns h).symm ▸ hnodup⟩

/-- Columns can be chosen exactly if they are there, each once. -/
theorem IsRectangular.exists_select_iff (ht : t.IsRectangular) :
    (∃ u, t.select names = .ok u) ↔ names.Nodup ∧ ∀ name ∈ names, name ∈ t.columnNames := by
  constructor
  · rintro ⟨u, hu⟩
    obtain ⟨-, hcolumns, hu⟩ := select_eq_ok_iff.mp hu
    refine ⟨map_name_of_lookup hcolumns ▸ hu.names, fun name hname => ?_⟩
    have hmem : t.column? name ∈ u.columns.map some := hcolumns ▸ List.mem_map_of_mem hname
    obtain ⟨c, -, hc⟩ := List.mem_map.mp hmem
    exact mem_columnNames_iff.mpr ⟨c, mem_of_column? hc.symm⟩
  · rintro ⟨hnodup, hnames⟩
    exact ⟨_, select_eq ht hnames hnodup⟩

/-! ### Rows put in -/

/-- A row is taken in under a key that no row had, and comes last; every column gets one cell
more, and keeps its name and type. -/
theorem pushRow_spec (h : t.pushRow key cells = .ok u) :
    key ∉ t.index ∧ u.index = t.index ++ [key] ∧
      u.shape = t.columns.map fun c => (c.name, c.type, c.length + 1) := by
  rw [pushRow] at h
  split at h
  · cases h
  next hnew =>
  split at h
  · cases h
  next hlength =>
  rw [not_not] at hlength
  split at h
  · cases h
  next hfind =>
  obtain rfl := Except.ok.inj h
  refine ⟨mt isSome_position?_iff.mpr hnew, rfl, ?_⟩
  refine List.ext_getElem (by simp [shape, hlength]) fun i hi hi' => ?_
  have hcolumn : i < t.columns.length := by simpa using hi'
  have hcell : i < cells.length := hlength ▸ hcolumn
  have htype : t.columns[i].type = cells[i].type := by
    have hmem : (t.columns[i], cells[i]) ∈ t.columns.zip cells :=
      List.mem_iff_getElem.mpr ⟨i, by rw [List.length_zip]; omega, by simp⟩
    simpa using List.find?_eq_none.mp hfind _ hmem
  obtain ⟨hname, htype, hlength⟩ := Column.append_spec htype
  simp [shape, hname, htype, hlength]

theorem signature_pushRow (h : t.pushRow key cells = .ok u) : u.signature = t.signature := by
  have hshape := congrArg (List.map fun e : String × CellType × Nat => (e.1, e.2.1))
    (pushRow_spec h).2.2
  simpa [shape, signature, Function.comp_def] using hshape

theorem IsRectangular.pushRow (ht : t.IsRectangular) (h : t.pushRow key cells = .ok u) :
    u.IsRectangular := by
  obtain ⟨-, hindex, hshape⟩ := pushRow_spec h
  intro c hc
  have hmem : (c.name, c.type, c.length) ∈ u.shape := List.mem_map_of_mem hc
  rw [hshape] at hmem
  obtain ⟨d, hd, heq⟩ := List.mem_map.mp hmem
  have hlength : d.length + 1 = c.length := congrArg (·.2.2) heq
  rw [← hlength, ht d hd, size, size, hindex, List.length_append, List.length_singleton]

/-! ### What stays well-formed -/

theorem WellFormed.sameShape (ht : t.WellFormed) (h : SameShape t u) : u.WellFormed :=
  ht.of_signature (h.isRectangular ht.rectangular) h.signature

theorem WellFormed.removeColumn (ht : t.WellFormed) (name : String) :
    (t.removeColumn name).WellFormed := ht.of_sublist List.eraseP_sublist

theorem WellFormed.rowsWhere (ht : t.WellFormed) (keep : Nat → Bool) :
    (t.rowsWhere keep).WellFormed :=
  ht.of_signature (ht.rectangular.rowsWhere keep) (signature_rowsWhere keep t)

theorem WellFormed.pushRow (ht : t.WellFormed) (h : t.pushRow key cells = .ok u) :
    u.WellFormed := ht.of_signature (ht.rectangular.pushRow h) (signature_pushRow h)

/-- The columns that a join adds are lacking, and it adds each once. -/
theorem WellFormed.joined_added (ht : t.WellFormed) (source : Table) (names : List String) :
    (t.joined source (t.added source names)).WellFormed :=
  ⟨ht.rectangular.joined source _,
    nodup_columnNames_joined (fun _ h => (mem_added h).2.2) (nodup_eraseDups _) ht.names⟩

end Table

end PowerTables
