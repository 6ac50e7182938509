import PowerTables.Proofs.Table.Join

/-!
# Rows and columns in another order

Where the keys of a table are apart, and the names of its columns, its cells are told by key and
name, in whatever order the rows and the columns stand.  Two tables that have the same keys, the
same columns and the same cells in this sense still have them after columns were brought in, and
after the rows of some keys were chosen.

## Main definitions

* `Table.IsKeyed` : the keys and the names are apart, and no column is too short or too long.
* `Table.Rearranges` : the rows and the columns of a table in another order.
* `Table.SameCells` : two tables with the same keys, columns and cells.

## Main results

* `Table.IsKeyed.cell?_eq_some_iff` : the cells of a table, column by column.
* `Table.Rearranges.sameCells` : a rearranged table has the same cells.
* `Table.SameCells.joined`, `Table.SameCells.rowsWhere` : columns brought in and rows chosen.
-/

namespace PowerTables

namespace Table

/-! ### Tables with keys -/

/-- The columns are as long as the index, and the keys and the names of the columns are apart. -/
structure IsKeyed (t : Table) : Prop where
  rectangular : t.IsRectangular
  keys : t.index.Nodup
  names : t.columnNames.Nodup

variable {t u : Table} {key : RowKey} {name : String} {cell : Cell}

theorem mem_zip_cells {col : Column} {index : List RowKey} :
    (key, cell) ∈ index.zip col.cells ↔
      ∃ p, index[p]? = some key ∧ col.cell? p = some cell := by
  rw [List.mem_iff_getElem?]
  simp only [List.getElem?_zip_eq_some, Column.getElem?_cells]

namespace IsKeyed

/-- The cell of a key is the one beside it in the column. -/
theorem cell?_eq_some_iff (ht : t.IsKeyed) : t.cell? key name = some cell ↔
    ∃ col ∈ t.columns, col.name = name ∧ (key, cell) ∈ t.index.zip col.cells := by
  rw [cell?_eq_bind, Option.bind_eq_some_iff]
  simp only [mem_zip_cells]
  constructor
  · rintro ⟨p, hp, hcell⟩
    obtain ⟨col, hcol, hcell⟩ := Option.bind_eq_some_iff.mp hcell
    obtain ⟨hmem, hname⟩ := mem_of_column? hcol
    exact ⟨col, hmem, hname, p, position?_eq_some hp, hcell⟩
  · rintro ⟨col, hcol, rfl, p, hkey, hcell⟩
    refine ⟨p, position?_of_nodup ht.keys hkey, ?_⟩
    rw [cellAt?_of_column? (column?_of_mem ht.names hcol), hcell]

theorem cell?_of_getElem? (ht : t.IsKeyed) {p : Nat} (hp : t.index[p]? = some key) :
    t.cell? key = t.cellAt? p := by
  funext name
  rw [cell?_eq_bind, position?_of_nodup ht.keys hp, Option.bind_some]

/-- Whether a column holds doubles is told by the signature. -/
theorem isSome_doubles?_iff (ht : t.IsKeyed) :
    (t.doubles? name).isSome ↔ (name, CellType.double) ∈ t.signature := by
  rw [Option.isSome_iff_exists, signature, List.mem_map]
  constructor
  · rintro ⟨values, hvalues⟩
    exact ⟨_, (mem_of_column? (doubles?_eq_some_iff.mp hvalues)).1, rfl⟩
  · rintro ⟨⟨name', type, values⟩, hcol, heq⟩
    obtain ⟨rfl, rfl⟩ := Prod.mk.inj heq
    exact ⟨values, doubles?_eq_some_iff.mpr (column?_of_mem ht.names hcol)⟩

end IsKeyed

theorem cell?_eq_none_of_notMem (h : key ∉ t.index) (name : String) : t.cell? key name = none := by
  have hposition : t.position? key = none := by
    rwa [← Option.not_isSome_iff_eq_none, isSome_position?_iff]
  rw [cell?_eq_bind, hposition, Option.bind_none]

/-! ### Rearranged tables -/

/-- The rows of a table at some positions, in their order. -/
def rowsAt (t : Table) (positions : List Nat) : Table :=
  ⟨positions.filterMap (t.index[·]?),
    t.columns.map fun c => ⟨c.name, c.type, positions.filterMap (c.values[·]?)⟩⟩

/-- The rows and the columns of a table in another order. -/
def Rearranges (t u : Table) : Prop :=
  ∃ positions, positions.Perm (List.range t.size) ∧ u.index = (t.rowsAt positions).index ∧
    u.columns.Perm (t.rowsAt positions).columns

/-- Two tables have the same keys, columns of the same names and types, and the same cells. -/
structure SameCells (t u : Table) : Prop where
  index : u.index.Perm t.index
  signature : u.signature.Perm t.signature
  cell? : ∀ key name, u.cell? key name = t.cell? key name

theorem signature_rowsAt (t : Table) (positions : List Nat) :
    (t.rowsAt positions).signature = t.signature := by
  rw [signature, rowsAt, List.map_map]
  rfl

namespace Rearranges

theorem index_perm (h : t.Rearranges u) : u.index.Perm t.index := by
  obtain ⟨positions, hpositions, hindex, -⟩ := h
  rw [hindex]
  have hperm := hpositions.filterMap (t.index[·]?)
  rwa [size, filterMap_range_getElem?] at hperm

theorem signature_perm (h : t.Rearranges u) : u.signature.Perm t.signature := by
  obtain ⟨positions, -, -, hcolumns⟩ := h
  rw [← signature_rowsAt t positions]
  exact hcolumns.map _

variable (ht : t.IsKeyed) (h : t.Rearranges u)

include ht h

/-- A rearranged table has keys and names that are apart as well. -/
theorem isKeyed : u.IsKeyed := by
  have hnames : u.columnNames.Perm t.columnNames := by
    rw [← map_fst_signature, ← map_fst_signature]
    exact h.signature_perm.map _
  refine ⟨fun col hcol => ?_, h.index_perm.nodup_iff.mpr ht.keys, hnames.nodup_iff.mpr ht.names⟩
  obtain ⟨positions, hpositions, hindex, hcolumns⟩ := h
  have hlt : ∀ p ∈ positions, p < t.index.length := fun p hp =>
    List.mem_range.mp (hpositions.mem_iff.mp hp)
  obtain ⟨col, hmem, rfl⟩ := List.mem_map.mp (hcolumns.mem_iff.mp hcol)
  have hlength : col.values.length = t.index.length := ht.rectangular col hmem
  rw [Column.length, size, hindex, rowsAt, length_filterMap_positions hlt]
  exact length_filterMap_positions fun p hp => hlength ▸ hlt p hp

/-- A rearranged table has the same keys, columns and cells. -/
theorem sameCells : t.SameCells u := by
  refine ⟨h.index_perm, h.signature_perm, fun key name => ?_⟩
  ext cell
  rw [(isKeyed ht h).cell?_eq_some_iff, ht.cell?_eq_some_iff]
  obtain ⟨positions, hpositions, hindex, hcolumns⟩ := h
  have hlt : ∀ p ∈ positions, p < t.index.length := fun p hp =>
    List.mem_range.mp (hpositions.mem_iff.mp hp)
  -- a row at a position of the one table is at one of the chosen positions of the other
  have hrow {col : Column} (hcol : col ∈ t.columns) :
      (key, cell) ∈ u.index.zip
          (Column.cells ⟨col.name, col.type, positions.filterMap (col.values[·]?)⟩) ↔
        (key, cell) ∈ t.index.zip col.cells := by
    have hlength : col.values.length = t.index.length := ht.rectangular col hcol
    rw [mem_zip_cells, mem_zip_cells, hindex, rowsAt]
    simp only [Column.cell?, getElem?_filterMap_positions hlt,
      getElem?_filterMap_positions fun p hp => hlength ▸ hlt p hp]
    constructor
    · rintro ⟨q, hkey, hcell⟩
      obtain ⟨p, hq, hkey⟩ := Option.bind_eq_some_iff.mp hkey
      rw [hq, Option.bind_some] at hcell
      exact ⟨p, hkey, hcell⟩
    · rintro ⟨p, hkey, hcell⟩
      have hmem : p ∈ positions := hpositions.mem_iff.mpr
        (List.mem_range.mpr (List.getElem?_eq_some_iff.mp hkey).1)
      obtain ⟨q, hq⟩ := List.mem_iff_getElem?.mp hmem
      exact ⟨q, by rw [hq, Option.bind_some, hkey], by rw [hq, Option.bind_some, hcell]⟩
  constructor
  · rintro ⟨col, hcol, hname, hzip⟩
    obtain ⟨col, hmem, rfl⟩ := List.mem_map.mp (hcolumns.mem_iff.mp hcol)
    exact ⟨col, hmem, hname, (hrow hmem).mp hzip⟩
  · rintro ⟨col, hcol, hname, hzip⟩
    exact ⟨_, hcolumns.mem_iff.mpr (List.mem_map_of_mem hcol), hname, (hrow hcol).mpr hzip⟩

end Rearranges

/-! ### Tables with the same cells -/

namespace SameCells

theorem columnNames (h : t.SameCells u) : u.columnNames.Perm t.columnNames := by
  rw [← map_fst_signature, ← map_fst_signature]
  exact h.signature.map _

theorem isSome_doubles?_eq (h : t.SameCells u) (ht : t.IsKeyed) (hu : u.IsKeyed) (name : String) :
    (u.doubles? name).isSome = (t.doubles? name).isSome := by
  rw [Bool.eq_iff_iff, hu.isSome_doubles?_iff, ht.isSome_doubles?_iff, h.signature.mem_iff]

theorem lacking_eq (h : t.SameCells u) (names : List String) :
    u.lacking names = t.lacking names := by
  refine List.filter_congr fun name _ => congrArg _ ?_
  rw [Bool.eq_iff_iff, hasColumn_iff, hasColumn_iff, h.columnNames.mem_iff]

end SameCells

section Joined

variable {source : Table} {names : List String}

theorem cell?_joined_of_mem (hname : name ∈ t.columnNames) (key : RowKey) :
    (t.joined source names).cell? key name = t.cell? key name := by
  have hposition : (t.joined source names).position? key = t.position? key := rfl
  rw [cell?_eq_bind, cell?_eq_bind, hposition]
  simp only [cellAt?, column?_joined_of_mem hname]

theorem signature_joined (t source : Table) (names : List String) :
    (t.joined source names).signature = t.signature ++ (t.lacking names).filterMap fun name =>
      (source.column? name).map fun c => (c.name, c.type) := by
  rw [signature, joined, List.map_append, List.map_filterMap, signature]
  congr 2
  funext name
  rw [joinedColumn?, Option.map_map]
  rfl

variable (hsource : ∀ name ∈ names, name ∈ source.columnNames) (hnames : names.Nodup)

include hsource

theorem cell?_joined_of_notMem (hname : name ∉ t.columnNames) (hlacking : name ∉ names)
    (key : RowKey) : (t.joined source names).cell? key name = none := by
  have hcolumn : (t.joined source names).column? name = none := by
    rw [column?_eq_none_iff, columnNames_joined hsource, List.mem_append, mem_lacking]
    exact fun h => h.elim hname fun h => hlacking h.1
  rw [cell?_eq_bind]
  simp [cellAt?, hcolumn]

include hnames

theorem IsKeyed.joined (ht : t.IsKeyed) : (t.joined source names).IsKeyed :=
  ⟨ht.rectangular.joined source names, ht.keys, nodup_columnNames_joined hsource hnames ht.names⟩

theorem IsKeyed.cell?_joined_of_lacking (ht : t.IsKeyed) (hname : name ∈ t.lacking names)
    (hkey : key ∈ t.index) :
    (t.joined source names).cell? key name = source.joinedCell? key name := by
  obtain ⟨p, hp⟩ := List.mem_iff_getElem?.mp hkey
  have hrow : (t.joined source names).index[p]? = some key := hp
  rw [(ht.joined hsource hnames).cell?_of_getElem? hrow,
    cellAt?_joined_of_lacking hsource hname, hp, Option.bind_some]

/-- Columns that are brought in depend on the keys only. -/
theorem SameCells.joined (h : t.SameCells u) (ht : t.IsKeyed) (hu : u.IsKeyed) :
    (t.joined source names).SameCells (u.joined source names) := by
  refine ⟨h.index, ?_, fun key name => ?_⟩
  · rw [signature_joined, signature_joined, h.lacking_eq]
    exact h.signature.append_right _
  · by_cases hname : name ∈ t.columnNames
    · rw [cell?_joined_of_mem hname, cell?_joined_of_mem (h.columnNames.mem_iff.mpr hname),
        h.cell?]
    · have hname' := mt h.columnNames.mem_iff.mp hname
      by_cases hneeded : name ∈ names
      · by_cases hkey : key ∈ t.index
        · rw [ht.cell?_joined_of_lacking hsource hnames (mem_lacking.mpr ⟨hneeded, hname⟩) hkey,
            hu.cell?_joined_of_lacking hsource hnames (mem_lacking.mpr ⟨hneeded, hname'⟩)
              (h.index.mem_iff.mpr hkey)]
        · have hkey' : key ∉ u.index := mt h.index.mem_iff.mp hkey
          rw [cell?_eq_none_of_notMem (t := t.joined source names) hkey,
            cell?_eq_none_of_notMem (t := u.joined source names) hkey']
      · rw [cell?_joined_of_notMem hsource hname hneeded,
          cell?_joined_of_notMem hsource hname' hneeded]

end Joined

section RowsWhere

variable {keep : RowKey → Bool}

theorem index_rowsWhere (t : Table) (keep : RowKey → Bool) :
    (t.rowsWhere fun p => (t.index[p]?).any keep).index = t.index.filter keep :=
  pick_eq_filter fun p key hp => by rw [hp, Option.any_some]

theorem IsKeyed.rowsWhere (ht : t.IsKeyed) (keep : Nat → Bool) : (t.rowsWhere keep).IsKeyed := by
  refine ⟨ht.rectangular.rowsWhere keep, ?_, ?_⟩
  · exact ht.keys.sublist (pick_sublist keep t.index)
  · rw [columnNames_of_signature (signature_rowsWhere keep t)]
    exact ht.names

theorem IsKeyed.cell?_rowsWhere_eq_some_iff (ht : t.IsKeyed) :
    (t.rowsWhere fun p => (t.index[p]?).any keep).cell? key name = some cell ↔
      keep key = true ∧ t.cell? key name = some cell := by
  rw [cell?_rowsWhere ht.rectangular]
  split
  · next hkeep => simp [hkeep]
  · next hkeep => simp [hkeep]

/-- The rows of the keys that satisfy a condition. -/
theorem SameCells.rowsWhere (h : t.SameCells u) (ht : t.IsKeyed) (hu : u.IsKeyed)
    (keep : RowKey → Bool) : SameCells (t.rowsWhere fun p => (t.index[p]?).any keep)
      (u.rowsWhere fun p => (u.index[p]?).any keep) := by
  refine ⟨?_, ?_, fun key name => ?_⟩
  · rw [index_rowsWhere, index_rowsWhere]
    exact h.index.filter keep
  · rw [signature_rowsWhere, signature_rowsWhere]
    exact h.signature
  · ext cell
    rw [hu.cell?_rowsWhere_eq_some_iff, ht.cell?_rowsWhere_eq_some_iff, h.cell?]

end RowsWhere

end Table

end PowerTables
