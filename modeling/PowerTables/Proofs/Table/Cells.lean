import PowerTables.Proofs.List
import PowerTables.Table.Basic

/-!
# The cells of a table

A table is known by its index, by the names and types of its columns, and by its cells: the
cell in a row and a column is read by `Table.cellAt?`, whatever the type of the column.  Two
tables that agree in the three are equal (`Table.ext_cellAt`), so an operation on tables is
described by what it does to each of them.

## Main definitions

* `Column.cells` : the values of a column as cells.
* `Table.cellAt?` : the cell of a row, given by its position, in a column, given by its name.
* `Table.signature` : the names and types of the columns, in order.
* `Table.IsRectangular` : every column is as long as the index.
* `Table.IsFirstRow`, `Table.IsLastRow` : the first and the last row of a key.

## Main results

* `Table.column?_of_mem`, `Table.mem_of_column?` : columns and their names.
* `Table.ext_cellAt` : index, signature and cells determine a table.
* `Table.position?_of_nodup` : keys and their rows.
* `Table.mapFirst_mapFirst`, `Table.mapColumn_eq_mapFirst` : changes of columns.
-/

namespace PowerTables

/-! ### Columns -/

namespace Column

/-- The values of a column as cells. -/
def cells (c : Column) : List Cell := c.values.map (Cell.mk c.type)

@[simp] theorem length_cells (c : Column) : c.cells.length = c.length := by
  simp [cells, length]

theorem getElem?_cells (c : Column) (p : Nat) : c.cells[p]? = c.cell? p := by
  simp [cells, cell?]

theorem cell?_eq_none_iff {c : Column} {p : Nat} : c.cell? p = none ↔ c.length ≤ p := by
  simp [cell?, length]

theorem type_of_cell? {c : Column} {p : Nat} {cell : Cell} (h : c.cell? p = some cell) :
    cell.type = c.type := by
  obtain ⟨value, -, rfl⟩ := Option.map_eq_some_iff.mp h
  rfl

theorem cellMk_injective (type : CellType) : Function.Injective (Cell.mk type) := by
  intro a b h
  cases h
  rfl

/-- Two columns with one name, one type and the same cells are equal. -/
theorem ext_cells {c d : Column} (hname : c.name = d.name) (htype : c.type = d.type)
    (hcells : ∀ p, c.cell? p = d.cell? p) : c = d := by
  obtain ⟨name, type, values⟩ := c
  obtain ⟨name', type', values'⟩ := d
  obtain rfl : name = name' := hname
  obtain rfl : type = type' := htype
  congr 1
  ext p : 1
  exact Option.map_injective (cellMk_injective type) (hcells p)

theorem valuesAs?_eq_some_iff {c : Column} {type : CellType} {values : List type.Value} :
    c.valuesAs? type = some values ↔ c = ⟨c.name, type, values⟩ := by
  obtain ⟨name, type', values'⟩ := c
  rw [valuesAs?]
  split
  · next h =>
    obtain rfl : type' = type := h
    simp
  · next h => simp [h]

end Column

/-! ### Tables -/

namespace Table

/-- The cell of the row at a position in a column. -/
def cellAt? (t : Table) (p : Nat) (name : String) : Option Cell :=
  (t.column? name).bind (·.cell? p)

/-- The names and types of the columns, in order. -/
def signature (t : Table) : List (String × CellType) := t.columns.map fun c => (c.name, c.type)

/-- Every column is as long as the index. -/
def IsRectangular (t : Table) : Prop := ∀ c ∈ t.columns, c.length = t.size

instance (t : Table) : Decidable t.IsRectangular :=
  inferInstanceAs (Decidable (∀ c ∈ t.columns, c.length = t.size))

theorem cell?_eq_bind (t : Table) (key : RowKey) (name : String) :
    t.cell? key name = (t.position? key).bind (t.cellAt? · name) := rfl

theorem map_fst_signature (t : Table) : t.signature.map (·.1) = t.columnNames := by
  simp [signature, columnNames]

theorem columnNames_of_signature {t u : Table} (h : t.signature = u.signature) :
    t.columnNames = u.columnNames := by
  rw [← map_fst_signature, h, map_fst_signature]

theorem mem_columnNames_iff {t : Table} {name : String} :
    name ∈ t.columnNames ↔ ∃ c ∈ t.columns, c.name = name := by
  simp [columnNames]

theorem mem_of_column? {t : Table} {name : String} {c : Column} (h : t.column? name = some c) :
    c ∈ t.columns ∧ c.name = name :=
  ⟨List.mem_of_find?_eq_some h, by simpa using List.find?_some h⟩

theorem column?_eq_none_iff {t : Table} {name : String} :
    t.column? name = none ↔ name ∉ t.columnNames := by
  simp [column?, columnNames]

theorem exists_column?_of_mem {t : Table} {name : String} (h : name ∈ t.columnNames) :
    ∃ c, t.column? name = some c :=
  Option.ne_none_iff_exists'.mp (mt column?_eq_none_iff.mp (not_not.mpr h))

theorem hasColumn_iff {t : Table} {name : String} :
    t.hasColumn name = true ↔ name ∈ t.columnNames := by
  simp [hasColumn, columnNames]

theorem column?_eq_some_iff {t : Table} (hnames : t.columnNames.Nodup) {name : String}
    {c : Column} : t.column? name = some c ↔ c ∈ t.columns ∧ c.name = name :=
  find?_key_eq_some_iff hnames

/-- Where the names are apart, a column is found by its name. -/
theorem column?_of_mem {t : Table} (hnames : t.columnNames.Nodup) {c : Column}
    (h : c ∈ t.columns) : t.column? c.name = some c :=
  (column?_eq_some_iff hnames).mpr ⟨h, rfl⟩

/-- The type of a column is read off the signature. -/
theorem column?_map_type (t : Table) (name : String) :
    (t.column? name).map (·.type) = (t.signature.find? (·.1 == name)).map (·.2) := by
  simp [column?, signature, List.find?_map, Function.comp_def]

theorem valuesAs?_eq_some_iff {t : Table} {name : String} {type : CellType}
    {values : List type.Value} :
    t.valuesAs? name type = some values ↔ t.column? name = some ⟨name, type, values⟩ := by
  rw [valuesAs?, Option.bind_eq_some_iff]
  constructor
  · rintro ⟨c, hc, hvalues⟩
    rw [Column.valuesAs?_eq_some_iff.mp hvalues, (mem_of_column? hc).2] at hc
    exact hc
  · intro h
    exact ⟨_, h, Column.valuesAs?_eq_some_iff.mpr rfl⟩

theorem doubles?_eq_some_iff {t : Table} {name : String} {values : List Float} :
    t.doubles? name = some values ↔ t.column? name = some ⟨name, .double, values⟩ :=
  valuesAs?_eq_some_iff

theorem cellAt?_of_column? {t : Table} {name : String} {c : Column}
    (h : t.column? name = some c) (p : Nat) : t.cellAt? p name = c.cell? p := by
  simp [cellAt?, h]

theorem cellAt?_of_valuesAs? {t : Table} {name : String} {type : CellType}
    {values : List type.Value} (h : t.valuesAs? name type = some values) (p : Nat) :
    t.cellAt? p name = (values[p]?).map (Cell.mk type) :=
  cellAt?_of_column? (valuesAs?_eq_some_iff.mp h) p

theorem bind_as?_of_valuesAs? {t : Table} {name : String} {type : CellType}
    (h : t.valuesAs? name type = none) (p : Nat) :
    (t.cellAt? p name).bind (·.as? type) = none := by
  cases hc : t.column? name with
  | none => simp [cellAt?, hc]
  | some c =>
    rw [cellAt?_of_column? hc]
    cases hcell : c.cell? p with
    | none => rfl
    | some cell =>
      refine Cell.as?_eq_none fun htype => ?_
      rw [Column.type_of_cell? hcell] at htype
      simp [valuesAs?, hc, Column.valuesAs?, htype] at h

theorem isSome_doubles? {t : Table} {p : Nat} {name : String}
    (h : ((t.cellAt? p name).bind (·.as? .double)).isSome) : (t.doubles? name).isSome := by
  rw [doubles?]
  cases hvalues : t.valuesAs? name .double with
  | some values => rfl
  | none =>
    rw [bind_as?_of_valuesAs? hvalues] at h
    cases h

theorem mem_columnNames_of_cellAt? {t : Table} {p : Nat} {name : String} {cell : Cell}
    (h : t.cellAt? p name = some cell) : name ∈ t.columnNames := by
  by_contra hnot
  simp [cellAt?, column?_eq_none_iff.mpr hnot] at h

theorem mem_columnNames_of_cell? {t : Table} {key : RowKey} {name : String} {cell : Cell}
    (h : t.cell? key name = some cell) : name ∈ t.columnNames := by
  obtain ⟨p, -, hcell⟩ := Option.bind_eq_some_iff.mp h
  exact mem_columnNames_of_cellAt? hcell

theorem IsRectangular.isSome_cellAt? {t : Table} (ht : t.IsRectangular) {name : String}
    (hname : name ∈ t.columnNames) {p : Nat} (hp : p < t.size) :
    ∃ cell, t.cellAt? p name = some cell := by
  obtain ⟨c, hc⟩ := exists_column?_of_mem hname
  rw [cellAt?_of_column? hc, ← Option.ne_none_iff_exists', Ne, Column.cell?_eq_none_iff,
    ht c (mem_of_column? hc).1]
  omega

/-- Index, signature and cells determine a table whose column names are apart. -/
theorem ext_cellAt {t u : Table} (hindex : t.index = u.index)
    (hsignature : t.signature = u.signature) (hnames : t.columnNames.Nodup)
    (hcells : ∀ p, ∀ name ∈ t.columnNames, t.cellAt? p name = u.cellAt? p name) : t = u := by
  obtain ⟨index, columns⟩ := t
  obtain ⟨index', columns'⟩ := u
  obtain rfl : index = index' := hindex
  congr 1
  have hlength : columns.length = columns'.length := by
    simpa [signature] using congrArg List.length hsignature
  refine List.ext_getElem hlength fun i hi hi' => ?_
  have hentry : (columns[i].name, columns[i].type) = (columns'[i].name, columns'[i].type) := by
    have := congrArg (·[i]?) hsignature
    simpa [signature, hi, hi'] using this
  have hname : columns[i].name = columns'[i].name := congrArg Prod.fst hentry
  refine Column.ext_cells hname (congrArg Prod.snd hentry) fun p => ?_
  have hnames' : (Table.mk index columns').columnNames.Nodup :=
    columnNames_of_signature hsignature ▸ hnames
  have h := hcells p columns[i].name (mem_columnNames_iff.mpr ⟨_, List.getElem_mem hi, rfl⟩)
  rwa [cellAt?_of_column? (column?_of_mem hnames (List.getElem_mem hi)), hname,
    cellAt?_of_column? (column?_of_mem hnames' (List.getElem_mem hi'))] at h

/-! ### Rows and keys -/

section Position

variable {t : Table} {key key' : RowKey} {p : Nat}

theorem isSome_position?_iff : (t.position? key).isSome ↔ key ∈ t.index := by
  simp [position?, List.findIdx?_isSome]

theorem exists_position? (h : key ∈ t.index) : ∃ p, t.position? key = some p :=
  Option.isSome_iff_exists.mp (isSome_position?_iff.mpr h)

theorem position?_eq_some (h : t.position? key = some p) : t.index[p]? = some key := by
  obtain ⟨hp, hkey, -⟩ := List.findIdx?_eq_some_iff_getElem.mp h
  rw [List.getElem?_eq_getElem hp, beq_iff_eq.mp hkey]

theorem mem_index_of_position? (h : t.position? key = some p) : key ∈ t.index :=
  List.mem_of_getElem? (position?_eq_some h)

/-- Keys of one row are equal. -/
theorem eq_of_position? (h : t.position? key = some p) (h' : t.position? key' = some p) :
    key = key' :=
  Option.some.inj ((position?_eq_some h).symm.trans (position?_eq_some h'))

/-- Where the keys are apart, a key leads to its only row. -/
theorem position?_of_nodup (hkeys : t.index.Nodup) (h : t.index[p]? = some key) :
    t.position? key = some p := by
  obtain ⟨q, hq⟩ := exists_position? (List.mem_of_getElem? h)
  have hlt : q < t.index.length := (List.getElem?_eq_some_iff.mp (position?_eq_some hq)).1
  rw [hq, (List.getElem?_inj hlt hkeys).mp ((position?_eq_some hq).trans h.symm)]

/-- A row is the first one of its key. -/
def IsFirstRow (t : Table) (key : RowKey) (p : Nat) : Prop :=
  t.index[p]? = some key ∧ ∀ r < p, t.index[r]? ≠ some key

/-- A row is the last one of its key. -/
def IsLastRow (t : Table) (key : RowKey) (q : Nat) : Prop :=
  t.index[q]? = some key ∧ ∀ r, q < r → t.index[r]? ≠ some key

theorem IsLastRow.eq {q r : Nat} (hq : t.IsLastRow key q) (hr : t.IsLastRow key r) : q = r := by
  rcases Nat.lt_trichotomy q r with h | h | h
  · exact absurd hr.1 (hq.2 r h)
  · exact h
  · exact absurd hq.1 (hr.2 q h)

theorem position?_eq_some_iff : t.position? key = some p ↔ t.IsFirstRow key p := by
  rw [position?, List.findIdx?_eq_some_iff_getElem]
  constructor
  · rintro ⟨hp, hkey, hfirst⟩
    refine ⟨by rw [List.getElem?_eq_getElem hp, beq_iff_eq.mp hkey], fun r hr hkey' => ?_⟩
    obtain ⟨hlt, rfl⟩ := List.getElem?_eq_some_iff.mp hkey'
    simpa using hfirst r hr
  · rintro ⟨hkey, hfirst⟩
    obtain ⟨hp, rfl⟩ := List.getElem?_eq_some_iff.mp hkey
    refine ⟨hp, by simp, fun r hr => ?_⟩
    have hne := hfirst r hr
    rw [List.getElem?_eq_getElem (Nat.lt_trans hr hp), ne_eq, Option.some_inj] at hne
    simpa using hne

theorem IsFirstRow.eq {q : Nat} (hp : t.IsFirstRow key p)
    (hq : t.IsFirstRow key q) : p = q :=
  Option.some.inj ((position?_eq_some_iff.mpr hp).symm.trans (position?_eq_some_iff.mpr hq))

theorem isFirstRow_of_nodup (hkeys : t.index.Nodup) (h : t.index[p]? = some key) :
    t.IsFirstRow key p :=
  position?_eq_some_iff.mp (position?_of_nodup hkeys h)

theorem isLastRow_of_nodup (hkeys : t.index.Nodup) (h : t.index[p]? = some key) :
    t.IsLastRow key p := by
  refine ⟨h, fun r hr hkey => Nat.ne_of_lt hr ?_⟩
  exact (List.getElem?_inj (List.getElem?_eq_some_iff.mp h).1 hkeys).mp (h.trans hkey.symm)

end Position

/-! ### Changing columns -/

/-- The place of the first column of a name; past the end if there is none. -/
def place (t : Table) (name : String) : Nat := t.columns.findIdx (·.name == name)

/-- Applies a change to the first column of every name. -/
def mapFirst (f : Column → Column) (t : Table) : Table :=
  ⟨t.index, t.columns.mapIdx fun i c => if t.place c.name = i then f c else c⟩

section MapFirst

variable {t : Table} {f g : Column → Column}

theorem column?_eq_getElem? (t : Table) (name : String) :
    t.column? name = t.columns[t.place name]? := List.find?_eq_getElem?_findIdx

theorem place_congr {u : Table} (h : u.columnNames = t.columnNames) (name : String) :
    u.place name = t.place name := by
  have hplace (v : Table) : v.place name = v.columnNames.findIdx (· == name) := by
    rw [columnNames, List.findIdx_map]
    rfl
  rw [hplace, hplace, h]

theorem getElem?_mapFirst (f : Column → Column) (t : Table) (i : Nat) :
    (t.mapFirst f).columns[i]? =
      (t.columns[i]?).map fun c => if t.place c.name = i then f c else c :=
  List.getElem?_mapIdx

/-- What a change keeps in every column that is found by its name, it keeps in all of them. -/
theorem map_mapFirst {α : Type} (k : Column → α)
    (h : ∀ c, t.column? c.name = some c → k (f c) = k c) :
    (t.mapFirst f).columns.map k = t.columns.map k := by
  ext i : 1
  rw [List.getElem?_map, List.getElem?_map, getElem?_mapFirst, Option.map_map]
  cases hc : t.columns[i]? with
  | none => rfl
  | some c =>
    by_cases hplace : t.place c.name = i
    · have hfound : t.column? c.name = some c := by rw [column?_eq_getElem?, hplace, hc]
      simp [hplace, h c hfound]
    · simp [hplace]

theorem IsRectangular.mapFirst (ht : t.IsRectangular) (hf : ∀ c, (f c).length = c.length) :
    (t.mapFirst f).IsRectangular := by
  intro c hc
  have hmem := List.mem_map_of_mem (f := Column.length) hc
  rw [map_mapFirst _ fun c _ => hf c] at hmem
  obtain ⟨d, hd, hlength⟩ := List.mem_map.mp hmem
  exact hlength ▸ ht d hd

theorem columnNames_mapFirst (hf : ∀ c, t.column? c.name = some c → (f c).name = c.name) :
    (t.mapFirst f).columnNames = t.columnNames := map_mapFirst _ hf

theorem column?_mapFirst (hf : ∀ c, t.column? c.name = some c → (f c).name = c.name)
    (name : String) : (t.mapFirst f).column? name = (t.column? name).map f := by
  rw [column?_eq_getElem?, place_congr (columnNames_mapFirst hf), getElem?_mapFirst,
    ← column?_eq_getElem?]
  cases hc : t.column? name with
  | none => rfl
  | some c =>
    obtain rfl := (mem_of_column? hc).2
    simp

theorem mapFirst_congr (h : ∀ c, t.column? c.name = some c → f c = g c) :
    t.mapFirst f = t.mapFirst g := by
  rw [mapFirst, mapFirst]
  congr 1
  ext i : 1
  rw [List.getElem?_mapIdx, List.getElem?_mapIdx]
  cases hc : t.columns[i]? with
  | none => rfl
  | some c =>
    by_cases hplace : t.place c.name = i
    · have hfound : t.column? c.name = some c := by rw [column?_eq_getElem?, hplace, hc]
      simp [hplace, h c hfound]
    · simp [hplace]

theorem mapFirst_id (t : Table) : t.mapFirst id = t := by
  rw [mapFirst]
  congr 1
  ext i : 1
  simp [List.getElem?_mapIdx]

theorem mapFirst_mapFirst (hf : ∀ c, t.column? c.name = some c → (f c).name = c.name) :
    (t.mapFirst f).mapFirst g = t.mapFirst (g ∘ f) := by
  have hplace := place_congr (columnNames_mapFirst hf)
  suffices hcolumns : ((t.mapFirst f).mapFirst g).columns = (t.mapFirst (g ∘ f)).columns from
    congrArg (Table.mk t.index) hcolumns
  ext i : 1
  rw [getElem?_mapFirst, getElem?_mapFirst, getElem?_mapFirst, Option.map_map]
  cases hc : t.columns[i]? with
  | none => rfl
  | some c =>
    by_cases hi : t.place c.name = i
    · have hfound : t.column? c.name = some c := by rw [column?_eq_getElem?, hi, hc]
      simp [hi, hplace, hf c hfound]
    · simp [hi, hplace]

/-- Where the names are apart, every column is the first of its name. -/
theorem columns_mapFirst (hnames : t.columnNames.Nodup) (f : Column → Column) :
    (t.mapFirst f).columns = t.columns.map f := by
  ext i : 1
  rw [getElem?_mapFirst, List.getElem?_map]
  cases hc : t.columns[i]? with
  | none => rfl
  | some c =>
    obtain ⟨hi, rfl⟩ := List.getElem?_eq_some_iff.mp hc
    have hplace : t.place t.columns[i].name = i := by
      have hfound := column?_of_mem hnames (List.getElem_mem hi)
      rw [column?_eq_getElem?] at hfound
      obtain ⟨hlt, heq⟩ := List.getElem?_eq_some_iff.mp hfound
      have hlt' : t.place t.columns[i].name < t.columnNames.length := by
        simpa [columnNames] using hlt
      have hi' : i < t.columnNames.length := by simpa [columnNames] using hi
      have hname : t.columnNames[t.place t.columns[i].name] = t.columnNames[i] := by
        simpa [columnNames] using congrArg Column.name heq
      exact hnames.getElem_inj_iff.mp hname
    simp [hplace]

theorem mapColumn_eq_mapFirst (t : Table) (name : String) (f : Column → Column) :
    t.mapColumn name f = t.mapFirst fun c => if c.name = name then f c else c := by
  have hmodify (columns : List Column) : mapColumn.go name f columns =
      columns.modify (columns.findIdx (·.name == name)) f := by
    induction columns with
    | nil => rfl
    | cons c cs ih =>
      rw [mapColumn.go]
      by_cases hc : c.name = name
      · simp [hc, List.findIdx_cons]
      · have hne : (c.name == name) = false := by simpa using hc
        simp [hc, hne, List.findIdx_cons, ih]
  rw [mapColumn, mapFirst, hmodify]
  congr 1
  ext i : 1
  rw [List.getElem?_modify, List.getElem?_mapIdx]
  cases hc : t.columns[i]? with
  | none => rfl
  | some c =>
    by_cases hi : t.place name = i
    · have hname : c.name = name := by
        rw [← hi, ← column?_eq_getElem?] at hc
        exact (mem_of_column? hc).2
      simp [hname, hi, ← place.eq_def]
    · by_cases hname : c.name = name
      · simp [hname, hi, ← place.eq_def]
      · simp [hname, hi, ← place.eq_def]

end MapFirst

end Table

end PowerTables
