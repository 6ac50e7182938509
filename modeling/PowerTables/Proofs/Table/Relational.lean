import PowerTables.Proofs.Table.Lookups
import PowerTables.Proofs.Table.Rearrangement
import PowerTables.Proofs.Table.WellFormed

/-!
# The meaning of choosing and joining

On well-formed tables, the operations that make tables out of tables mean what they mean for
relations.  Columns are chosen by name, rows by key, and a join brings in for every row the cells
that another table has for its key.  Rows of the table that is joined may share a key; where the
other table has none of a row, the row gets missing values.

## Main definitions

* `Table.IsSelection` : some columns of a table, in a given order.
* `Table.IsRestriction` : the rows of a table whose key satisfies a condition.
* `Table.IsExtension` : a table with the columns of another one that it lacks.

## Main results

* `Table.isExtension_join` : a join that succeeds.
* `Table.operations_relational` : all operations.
-/

namespace PowerTables.Table

variable {t u source : Table} {names : List String} {name : String}

/-! ### Columns and rows -/

/-- A table has the rows of another one, and its columns of some names, as they are and in the
order of the names. -/
structure IsSelection (t : Table) (names : List String) (u : Table) : Prop where
  index : u.index = t.index
  columns : u.columns.map some = names.map t.column?

/-- A table has the rows of another one whose key satisfies a condition, in order and with all
their cells. -/
structure IsRestriction (t : Table) (keep : RowKey → Bool) (u : Table) : Prop where
  signature : u.signature = t.signature
  rectangular : u.IsRectangular
  rows : u.rows = t.rows.filter (keep ·.1)
  cell? : ∀ key name, u.cell? key name = if keep key then t.cell? key name else none

theorem isSelection_of_select (h : t.select names = .ok u) : t.IsSelection names u := by
  obtain ⟨hindex, hcolumns, -⟩ := select_eq_ok_iff.mp h
  exact ⟨hindex, hcolumns⟩

theorem isRestriction_rowsWhere (ht : t.IsRectangular) (keep : RowKey → Bool) :
    t.IsRestriction keep (t.rowsWhere fun p => (t.index[p]?).any keep) :=
  ⟨signature_rowsWhere _ t, ht.rowsWhere _, rows_rowsWhere_any ht keep, cell?_rowsWhere ht keep⟩

/-! ### Joined columns -/

/-- A column holds, for every row of a table, the cell that another table has for its key, or a
missing value where it has no such row. -/
structure BringsIn (t source : Table) (c : Column) : Prop where
  type : (source.column? c.name).map (·.type) = some c.type
  length : c.length = t.size
  cell? : ∀ p key, t.index[p]? = some key → c.cell? p =
    if key ∈ source.index then source.cell? key c.name else some ⟨c.type, c.type.missing⟩

/-- A join has added those of the requested columns that a table lacks, each once and in order,
behind the columns that are there; taken out again, in any order, they leave the table. -/
structure IsExtension (t source : Table) (names : List String) (joined : Joined) : Prop where
  added : joined.added = (t.lacking names).eraseDups
  index : joined.table.index = t.index
  columns : ∃ new, joined.table.columns = t.columns ++ new ∧ new.map (·.name) = joined.added ∧
    ∀ c ∈ new, BringsIn t source c
  removed : ∀ order : List String, order.Perm joined.added → order.foldl removeColumn joined.table = t

/-- What a join brings in for a key, from a table whose keys are apart. -/
theorem IsKeyed.joinedCell?_eq (hsource : source.IsKeyed) {c : Column}
    (hc : source.column? name = some c) (key : RowKey) : source.joinedCell? key name =
      if key ∈ source.index then source.cell? key name else some ⟨c.type, c.type.missing⟩ := by
  have hname : name ∈ source.columnNames :=
    mem_columnNames_iff.mpr ⟨c, mem_of_column? hc⟩
  split
  · next hkey =>
    rw [joinedCell?_of_mem hsource.rectangular hname hkey, lastCell?_eq_cell? hsource.keys]
  · next hkey =>
    rw [joinedCell?, hc, Option.map_some, lastCell?_eq_cell? hsource.keys,
      cell?_eq_none_of_notMem hkey, Option.getD_none]

theorem IsKeyed.bringsIn (hsource : source.IsKeyed) {c : Column}
    (hc : source.joinedColumn? t.index name = some c) : BringsIn t source c := by
  obtain ⟨rfl, hlength, hcells⟩ := joinedColumn?_spec hc
  obtain ⟨d, hd, hgathered⟩ := Option.map_eq_some_iff.mp hc
  have htype : d.type = c.type := by rw [← hgathered]; rfl
  refine ⟨by rw [hd, Option.map_some, htype], hlength, fun p key hkey => ?_⟩
  rw [hcells, hkey, Option.bind_some, hsource.joinedCell?_eq hd, htype]

/-- Columns that are taken out by name, where the names are apart. -/
theorem foldl_removeColumn_eq_filter (ht : t.columnNames.Nodup) (names : List String) :
    names.foldl removeColumn t = ⟨t.index, t.columns.filter fun c => !names.contains c.name⟩ := by
  induction names generalizing t with
  | nil => simp
  | cons name names ih =>
    have hremove : t.removeColumn name = ⟨t.index, t.columns.filter (·.name != name)⟩ := by
      rw [removeColumn, eraseP_key_eq_filter ht]
    have hnames : (t.removeColumn name).columnNames.Nodup :=
      ht.sublist (List.eraseP_sublist.map _)
    rw [List.foldl_cons, ih hnames, hremove, List.filter_filter]
    congr 1
    refine List.filter_congr fun c _ => ?_
    rw [List.contains_cons, Bool.not_or, Bool.and_comm]
    rfl

/-- A join with a keyed table that succeeds extends the table. -/
theorem isExtension_join (ht : t.WellFormed) (hsource : source.IsKeyed)
    (h : (t.join source names).failure = none) :
    t.IsExtension source names (t.join source names) := by
  have hknown : ∀ name ∈ names, t.knows source name = true := fun name hname =>
    knows_iff.mpr ((join_failure_eq_none_iff hsource.rectangular).mp h name hname)
  have hsourced : ∀ name ∈ t.added source names, name ∈ source.columnNames :=
    fun _ hname => (mem_added hname).2.2
  have hnew := map_name_joinedColumns hsourced t.index
  rw [join_outcome hsource.rectangular]
  refine ⟨added_of_known hknown, rfl, ⟨_, by rw [joined, lacking_added], hnew, ?_⟩, ?_⟩
  · intro c hc
    obtain ⟨name, -, hname⟩ := List.mem_filterMap.mp hc
    exact hsource.bringsIn hname
  · intro order horder
    rw [foldl_removeColumn_eq_filter (ht.joined_added source names).names, joined, lacking_added,
      List.filter_append, List.filter_eq_self.mpr, List.filter_eq_nil_iff.mpr, List.append_nil]
    · intro c hc
      have hmem : c.name ∈ order := horder.mem_iff.mpr (hnew ▸ List.mem_map_of_mem hc)
      simpa using hmem
    · intro c hc
      have hnot : c.name ∉ order := fun hmem => (mem_added (horder.mem_iff.mp hmem)).2.1
        (mem_columnNames_iff.mpr ⟨c, hc, rfl⟩)
      simpa using hnot

/-! ### All operations -/

/-- Choosing and joining on well-formed tables.  Columns can be chosen exactly if they are there,
each once; rows always; and a join with a keyed table succeeds exactly if each requested column
is in one of the two tables. -/
theorem operations_relational (ht : t.WellFormed) (hsource : source.IsKeyed)
    (names : List String) (keep : RowKey → Bool) :
    ((∃ u, t.select names = .ok u) ↔ names.Nodup ∧ ∀ name ∈ names, name ∈ t.columnNames) ∧
      (∀ u, t.select names = .ok u → t.IsSelection names u) ∧
      (∃ u, t.filterRows keep = .ok u ∧ t.IsRestriction keep u) ∧
      ((t.join source names).failure = none ↔
        ∀ name ∈ names, name ∈ t.columnNames ∨ name ∈ source.columnNames) ∧
      ((t.join source names).failure = none →
        t.IsExtension source names (t.join source names)) :=
  ⟨ht.rectangular.exists_select_iff, fun _ => isSelection_of_select,
    ⟨_, filterRows_eq ht.rectangular keep, isRestriction_rowsWhere ht.rectangular keep⟩,
    join_failure_eq_none_iff hsource.rectangular, isExtension_join ht hsource⟩

/-- Three rows, two of which share a key. -/
def twiceKeyed : Table :=
  ⟨[.plain "L1", .plain "L2", .plain "L1"], [⟨"rank", .int, [1, 2, 3]⟩]⟩

/-- A table that has one of the two keys, and another one. -/
def oneKeyKnown : Table :=
  ⟨[.plain "L3", .plain "L1"], [⟨"level", .string, ["VL3", "VL1"]⟩, ⟨"rank", .int, [8, 9]⟩]⟩

theorem operations_relational_twiceKeyed :
    (twiceKeyed.WellFormed ∧ oneKeyKnown.IsKeyed) ∧
      (∃ u, twiceKeyed.filterRows (· == .plain "L1") = .ok u ∧
        twiceKeyed.IsRestriction (· == .plain "L1") u) ∧
      twiceKeyed.IsExtension oneKeyKnown ["level", "rank", "level"]
        (twiceKeyed.join oneKeyKnown ["level", "rank", "level"]) := by
  have ht : twiceKeyed.WellFormed := by decide
  have hsource : oneKeyKnown.IsKeyed := ⟨by decide, by decide, by decide⟩
  obtain ⟨-, -, hfilter, hjoins, hjoined⟩ :=
    operations_relational ht hsource ["level", "rank", "level"] (· == .plain "L1")
  exact ⟨⟨ht, hsource⟩, hfilter, hjoined (hjoins.mpr (by decide))⟩

end PowerTables.Table
