import PowerTables.Proofs.Session.Physical
import PowerTables.Proofs.Table.Lookups

/-!
# Writings in per-unit and in physical units

A writing in per-unit has the effect of a writing in physical units of another table: that of
the rows for which every voltage is found, with each converted double multiplied by its base.
The voltage of a row is read from the table itself where it has the column, and from the stored
row of the same key otherwise.

## Main definitions

* `SessionState.baseAt` : the voltage that a rule finds for a row of a table.
* `SessionState.inPhysicalUnits` : the table in physical units.

## Main results

* `Session.update_perUnit_eq_update_physical` : the two writings leave the same store.
-/

namespace PowerTables

/-! ### The table in physical units -/

/-- The cells of a row that voltages are read from: its own in the columns that the table has,
and the stored ones of its key in the others. -/
def Table.baseRow (stored t : Table) (p : Nat) (name : String) : Option Cell :=
  if t.hasColumn name then t.cellAt? p name else (t.index[p]?).bind (stored.cell? · name)

namespace SessionState

/-- The nominal voltage that a rule finds for a row of a table. -/
def baseAt (s : SessionState) (c : Category) (t : Table) (rule : ConversionRule) (p : Nat) :
    Option Float :=
  rule.baseOf (s.levels c) ((s.tables c).baseRow t p)

/-- A row has a double with a rule that finds no voltage. -/
def lacksBase (s : SessionState) (c : Category) (t : Table) (p : Nat) : Bool :=
  c.rules.any fun rule => (t.doubles? rule.column).isSome && (s.baseAt c t rule p).isNone

/-- A row is written unless its element is known and a voltage is lacking. -/
def isWritten (s : SessionState) (c : Category) (t : Table) (p : Nat) : Bool :=
  !((t.index[p]?).any (s.tables c).index.contains && s.lacksBase c t p)

/-- A column with every double multiplied by its base, if there is a rule for it; a double for
which no voltage is found is missing. -/
def columnInPhysicalUnits (s : SessionState) (c : Category) (t : Table) (col : Column) :
    Column :=
  match c.rules.find? (·.column == col.name) with
  | some rule => col.mapDoubles fun p x => match s.baseAt c t rule p with
      | some v => x * rule.dimension.base s.session.perUnit.powerBase v
      | none => Double.nan
  | none => col

/-- The rows of a table that are written, in physical units. -/
def inPhysicalUnits (s : SessionState) (c : Category) (t : Table) : Table :=
  Table.rowsWhere (s.isWritten c t) ⟨t.index, t.columns.map (s.columnInPhysicalUnits c t)⟩

end SessionState

/-! ### Voltages that are read from the store -/

theorem ConversionRule.baseOf_congr (rule : ConversionRule) (levels : VoltageLevels)
    {row row' : String → Option Cell}
    (h : ∀ name ∈ rule.source.column?, row name = row' name) :
    rule.baseOf levels row = rule.baseOf levels row' := by
  rw [baseOf, baseOf]
  cases hsource : rule.source with
  | none => rfl
  | voltageLevel column => simp only [h column (by rw [hsource]; rfl)]
  | rowColumn column => simp only [h column (by rw [hsource]; rfl)]

namespace Table

theorem joinedCell?_eq_cell? {stored : Table} (hstored : stored.IsRectangular)
    (hrepeats : stored.RepeatsAlike) {key : RowKey} (hkey : key ∈ stored.index) {name : String}
    (hname : name ∈ stored.columnNames) :
    stored.joinedCell? key name = stored.cell? key name := by
  rw [joinedCell?_of_mem hstored hname hkey, repeatsAlike_iff.mp hrepeats]

end Table

namespace SessionState

variable {s : SessionState} {c : Category} {t : Table} {rule : ConversionRule}

theorem mem_baseColumns_of_source (hrule : rule ∈ c.rules) (hcolumn : rule.column ∈ t.columnNames)
    {name : String} (hname : name ∈ rule.source.column?) : name ∈ c.baseColumns t.columnNames :=
  Category.mem_baseColumns.mpr ⟨rule, hrule, hcolumn, hname⟩

theorem column?_joined_of_rule (hs : s.WellFormed) (hrule : rule ∈ c.rules) :
    (s.joined c t).column? rule.column = t.column? rule.column := by
  by_cases hmem : rule.column ∈ t.columnNames
  · exact Table.column?_joined_of_mem hmem
  · have hjoined : rule.column ∉ (s.joined c t).columnNames := by
      rw [joined, Table.columnNames_joined fun name hname =>
        hs.mem_columnNames_of_baseColumns hname, List.mem_append, not_or]
      refine ⟨hmem, fun hlacking => ?_⟩
      obtain ⟨rule', hrule', -, hsource⟩ :=
        Category.mem_baseColumns.mp (Table.mem_lacking.mp hlacking).1
      exact Category.source_ne_ruleColumn hrule' hrule hsource
    rw [Table.column?_eq_none_iff.mpr hmem, Table.column?_eq_none_iff.mpr hjoined]

theorem doubles?_joined_of_rule (hs : s.WellFormed) (hrule : rule ∈ c.rules) :
    (s.joined c t).doubles? rule.column = t.doubles? rule.column := by
  rw [Table.doubles?, Table.doubles?, Table.valuesAs?, Table.valuesAs?,
    column?_joined_of_rule hs hrule]

/-- The voltages found after the join are those that the rows have, for known elements. -/
theorem baseOf_joined (hs : s.WellFormed) (hrepeats : (s.tables c).RepeatsAlike)
    (hrule : rule ∈ c.rules) (hcolumn : rule.column ∈ t.columnNames) {p : Nat} {key : RowKey}
    (hkey : t.index[p]? = some key) (hknown : key ∈ (s.tables c).index) :
    rule.baseOf (s.levels c) ((s.joined c t).cellAt? p) = s.baseAt c t rule p := by
  refine rule.baseOf_congr _ fun name hname => ?_
  have hneeded := mem_baseColumns_of_source hrule hcolumn hname
  have hsource := hs.mem_columnNames_of_baseColumns hneeded
  rw [Table.baseRow]
  by_cases hown : name ∈ t.columnNames
  · rw [if_pos (Table.hasColumn_iff.mpr hown), Table.cellAt?, Table.cellAt?, joined,
      Table.column?_joined_of_mem hown]
  · have hlacking := Table.mem_lacking.mpr ⟨hneeded, hown⟩
    rw [if_neg (mt Table.hasColumn_iff.mp hown), joined, Table.cellAt?_joined_of_lacking
      (fun name hname => hs.mem_columnNames_of_baseColumns hname) hlacking, hkey,
      Option.bind_some, Option.bind_some, Table.joinedCell?_eq_cell? (hs.tables c).rectangular
        hrepeats hknown hsource]

theorem mem_columnNames_of_doubles? {name : String} (h : (t.doubles? name).isSome) :
    name ∈ t.columnNames := by
  obtain ⟨values, hvalues⟩ := Option.isSome_iff_exists.mp h
  by_contra hmem
  rw [Table.doubles?_eq_some_iff, Table.column?_eq_none_iff.mpr hmem] at hvalues
  cases hvalues

section Known

variable (hs : s.WellFormed) (hrepeats : (s.tables c).RepeatsAlike) (ht : t.IsRectangular)
  {p : Nat} {key : RowKey} (hkey : t.index[p]? = some key) (hknown : key ∈ (s.tables c).index)

include hs hrepeats ht hkey hknown

theorem getElem?_bases_joined (hrule : rule ∈ c.rules) (hcolumn : rule.column ∈ t.columnNames) :
    (rule.bases (s.levels c) (s.joined c t))[p]? = some (s.baseAt c t rule p) := by
  have hp : p < t.size := (List.getElem?_eq_some_iff.mp hkey).1
  have hjoined : (s.joined c t).IsRectangular := ht.joined _ _
  rw [rule.getElem?_bases (s.levels c) hjoined hp]
  exact congrArg some (baseOf_joined hs hrepeats hrule hcolumn hkey hknown)

theorem lacksBase_joined_iff (hrule : rule ∈ c.rules) :
    rule.LacksBase (s.levels c) (s.joined c t) p ↔
      (t.doubles? rule.column).isSome ∧ s.baseAt c t rule p = none := by
  rw [ConversionRule.LacksBase, doubles?_joined_of_rule hs hrule]
  refine and_congr_right fun hdouble => ?_
  rw [getElem?_bases_joined hs hrepeats ht hkey hknown hrule
    (mem_columnNames_of_doubles? hdouble), Option.some_inj]

end Known

theorem lacksBase_iff {p : Nat} : s.lacksBase c t p = true ↔
    ∃ rule ∈ c.rules, (t.doubles? rule.column).isSome ∧ s.baseAt c t rule p = none := by
  simp [lacksBase, Option.isNone_iff_eq_none]

/-- A row that has the column of its voltage finds the voltage there. -/
theorem baseRow_ne_none (ht : t.IsRectangular) (hnames : t.columnNames.Nodup)
    (hopen : ∀ col ∈ t.columns, c.column? col.name = some ⟨col.name, col.type, true⟩)
    {column : String} (hspec : c.column? column = some (.double column))
    (hown : column ∈ t.columnNames) {p : Nat} (hp : p < t.size) :
    ((s.tables c).baseRow t p column).bind (·.as? .double) ≠ none := by
  obtain ⟨cell, hcell⟩ := ht.isSome_cellAt? hown hp
  obtain ⟨col, hcol, rfl⟩ := Table.mem_columnNames_iff.mp hown
  have hdouble : cell.type = .double := by
    have htype := congrArg (Option.map ColumnSpec.type) (hspec.symm.trans (hopen col hcol))
    rw [Table.cellAt?_of_column? (Table.column?_of_mem hnames hcol)] at hcell
    rw [Column.type_of_cell? hcell]
    simpa [ColumnSpec.double] using htype.symm
  obtain ⟨type, value⟩ := cell
  obtain rfl : type = .double := hdouble
  rw [Table.baseRow, if_pos (Table.hasColumn_iff.mpr hown), hcell, Option.bind_some,
    Cell.as?_self]
  exact Option.some_ne_none _

/-- Whether a voltage is lacking depends on the key only, in a table of columns that are open
to writes: its own voltages are all there, and the others are those of the stored row. -/
theorem baseAt_eq_none_congr (ht : t.IsRectangular) (hnames : t.columnNames.Nodup)
    (hopen : ∀ col ∈ t.columns, c.column? col.name = some ⟨col.name, col.type, true⟩)
    (hrule : rule ∈ c.rules) {p q : Nat} {key : RowKey} (hp : t.index[p]? = some key)
    (hq : t.index[q]? = some key) :
    s.baseAt c t rule p = none ↔ s.baseAt c t rule q = none := by
  have hschema := Category.schema_of_source hrule
  have hstored {name : String} (hown : name ∉ t.columnNames) :
      (s.tables c).baseRow t p name = (s.tables c).baseRow t q name := by
    have hnone : ¬t.hasColumn name = true := mt Table.hasColumn_iff.mp hown
    rw [Table.baseRow, Table.baseRow, if_neg hnone, if_neg hnone, hp, hq]
  rw [baseAt, baseAt, ConversionRule.baseOf, ConversionRule.baseOf]
  cases hsource : rule.source with
  | none => simp
  | voltageLevel column =>
    have hown : column ∉ t.columnNames := fun hmem => by
      obtain ⟨col, hcol, rfl⟩ := Table.mem_columnNames_iff.mp hmem
      rw [hsource] at hschema
      have := congrArg (Option.map ColumnSpec.writable) (hschema.symm.trans (hopen col hcol))
      simp [ColumnSpec.readOnly] at this
    simp only [hstored hown]
  | rowColumn column =>
    by_cases hown : column ∈ t.columnNames
    · rw [hsource] at hschema
      have hfound (r : Nat) (hr : r < t.size) :=
        baseRow_ne_none (s := s) ht hnames hopen hschema hown hr
      simp only [hfound p (List.getElem?_eq_some_iff.mp hp).1,
        hfound q (List.getElem?_eq_some_iff.mp hq).1]
    · simp only [hstored hown]

/-- The rows of a key are left out exactly if each of them lacks a voltage. -/
theorem skips_iff_of_repeatsAlike (hs : s.WellFormed) (hrepeats : (s.tables c).RepeatsAlike)
    (ht : t.IsRectangular) (hnames : t.columnNames.Nodup)
    (hopen : ∀ col ∈ t.columns, c.column? col.name = some ⟨col.name, col.type, true⟩)
    {p : Nat} {key : RowKey} (hkey : t.index[p]? = some key) :
    s.Skips c t key ↔ s.isWritten c t p = false := by
  have hp : p < t.size := (List.getElem?_eq_some_iff.mp hkey).1
  rw [isWritten, hkey, Option.any_some, Bool.not_eq_false', Bool.and_eq_true,
    List.contains_iff_mem, lacksBase_iff, Skips]
  refine and_congr_right fun hknown => ⟨?_, ?_⟩
  · rintro ⟨rule, hrule, q, hq, hkey', hbase⟩
    obtain ⟨hdouble, hnone⟩ :=
      (lacksBase_joined_iff hs hrepeats ht hkey' hknown hrule).mp hbase
    exact ⟨rule, hrule, hdouble,
      (baseAt_eq_none_congr ht hnames hopen hrule hkey' hkey).mp hnone⟩
  · rintro ⟨rule, hrule, hbase⟩
    exact ⟨rule, hrule, p, hp, hkey,
      (lacksBase_joined_iff hs hrepeats ht hkey hknown hrule).mpr hbase⟩

theorem skips_iff (hs : s.WellFormed) (hkeys : (s.tables c).index.Nodup) (ht : t.IsRectangular)
    (hnames : t.columnNames.Nodup)
    (hopen : ∀ col ∈ t.columns, c.column? col.name = some ⟨col.name, col.type, true⟩)
    {p : Nat} {key : RowKey} (hkey : t.index[p]? = some key) :
    s.Skips c t key ↔ s.isWritten c t p = false :=
  skips_iff_of_repeatsAlike hs (Table.repeatsAlike_of_nodup hkeys) ht hnames hopen hkey

/-- The converted columns, where all elements are known. -/
theorem physical_eq (hs : s.WellFormed) (hkeys : (s.tables c).index.Nodup) (ht : t.IsRectangular)
    (hnames : t.columnNames.Nodup) (hknown : ∀ key ∈ t.index, key ∈ (s.tables c).index) :
    s.physical c t = ⟨t.index, t.columns.map (s.columnInPhysicalUnits c t)⟩ := by
  suffices hcolumns : (s.physical c t).columns = t.columns.map (s.columnInPhysicalUnits c t) from
    congrArg (Table.mk t.index) hcolumns
  rw [physical, Table.columns_mapFirst hnames]
  refine List.map_congr_left fun col hcol => ?_
  rw [Table.convertedColumn, columnInPhysicalUnits]
  cases hfind : c.rules.find? (·.column == col.name) with
  | none => rfl
  | some rule =>
    obtain ⟨hrule, hname⟩ := Category.find?_rule_eq_some_iff.mp hfind
    have hcolumn : rule.column ∈ t.columnNames :=
      Table.mem_columnNames_iff.mpr ⟨col, hcol, hname.symm⟩
    refine Column.mapDoubles_congr fun p hp x => ?_
    have hkey : t.index[p]? = some _ :=
      List.getElem?_eq_getElem (lt_of_lt_of_eq hp (ht col hcol))
    have hbase := getElem?_bases_joined hs (Table.repeatsAlike_of_nodup hkeys) ht hkey
      (hknown _ (List.mem_of_getElem? hkey)) hrule hcolumn
    simp only [ConversionRule.convertAt, hbase, convertValue_eq]
    cases s.baseAt c t rule p <;> rfl

theorem shape_columnInPhysicalUnits (col : Column) :
    ((s.columnInPhysicalUnits c t col).name, (s.columnInPhysicalUnits c t col).type,
      (s.columnInPhysicalUnits c t col).length) = (col.name, col.type, col.length) := by
  rw [columnInPhysicalUnits]
  split
  · exact Column.shape_mapDoubles _ col
  · rfl

theorem name_columnInPhysicalUnits (col : Column) :
    (s.columnInPhysicalUnits c t col).name = col.name :=
  congrArg (·.1) (shape_columnInPhysicalUnits col)

theorem length_columnInPhysicalUnits (col : Column) :
    (s.columnInPhysicalUnits c t col).length = col.length :=
  congrArg (·.2.2) (shape_columnInPhysicalUnits col)

/-- The table in physical units has the columns of the table, in the same order. -/
theorem signature_inPhysicalUnits (s : SessionState) (c : Category) (t : Table) :
    (s.inPhysicalUnits c t).signature = t.signature := by
  rw [inPhysicalUnits, Table.signature_rowsWhere, Table.signature, Table.signature, List.map_map]
  refine List.map_congr_left fun col _ => ?_
  exact congrArg (fun e => (e.1, e.2.1)) (shape_columnInPhysicalUnits col)

theorem columnNames_inPhysicalUnits (s : SessionState) (c : Category) (t : Table) :
    (s.inPhysicalUnits c t).columnNames = t.columnNames :=
  Table.columnNames_of_signature (signature_inPhysicalUnits s c t)

/-- The table that is written is the one in physical units, where all elements are known. -/
theorem written_eq_inPhysicalUnits (hs : s.WellFormed) (hkeys : (s.tables c).index.Nodup)
    (ht : t.IsRectangular) (hnames : t.columnNames.Nodup)
    (hopen : ∀ col ∈ t.columns, c.column? col.name = some ⟨col.name, col.type, true⟩)
    (hknown : ∀ key ∈ t.index, key ∈ (s.tables c).index) :
    s.written c t = s.inPhysicalUnits c t := by
  rw [written, physical_eq hs hkeys ht hnames hknown, inPhysicalUnits]
  refine Table.rowsWhere_congr (fun col hcol => ?_) fun p hp => ?_
  · obtain ⟨col', hcol', rfl⟩ := List.mem_map.mp hcol
    exact (length_columnInPhysicalUnits col').trans (ht col' hcol')
  · have hkey : t.index[p]? = some _ := List.getElem?_eq_getElem hp
    have hskips := skips_iff hs hkeys ht hnames hopen hkey
    rw [hkey, Option.any_some, Bool.eq_iff_iff, decide_eq_true_iff, hskips,
      Bool.not_eq_false]

theorem cell?_columnInPhysicalUnits (col : Column) (p : Nat) :
    (s.columnInPhysicalUnits c t col).cell? p =
      match c.rules.find? (·.column == col.name) with
      | some rule => (col.cell? p).map (Cell.mapDouble fun x =>
          convertValue s.session.perUnit rule.dimension .fromPerUnit x (s.baseAt c t rule p))
      | none => col.cell? p := by
  rw [columnInPhysicalUnits]
  cases c.rules.find? (·.column == col.name) with
  | none => rfl
  | some rule =>
    dsimp only
    rw [Column.cell?_mapDoubles]
    congr 2
    funext x
    rw [convertValue_eq]
    cases s.baseAt c t rule p <;> rfl

/-- A row of a known element that is written finds a voltage for each of its doubles. -/
theorem exists_baseAt {rule : ConversionRule} (hrule : rule ∈ c.rules) {p : Nat} {key : RowKey}
    (hkey : t.index[p]? = some key) (hknown : key ∈ (s.tables c).index)
    (hwritten : s.isWritten c t p = true) (hdouble : (t.doubles? rule.column).isSome) :
    ∃ v, s.baseAt c t rule p = some v := by
  by_contra hnone
  rw [not_exists] at hnone
  have hlacks : s.lacksBase c t p = true :=
    lacksBase_iff.mpr ⟨rule, hrule, hdouble, Option.eq_none_iff_forall_ne_some.mpr hnone⟩
  rw [isWritten, hkey, Option.any_some, hlacks, Bool.and_true, Bool.not_eq_true',
    ← Bool.not_eq_true, List.contains_iff_mem] at hwritten
  exact hwritten hknown

/-- Where the elements are known and the columns open to writes, the table in physical units is
accepted. -/
theorem accepts_inPhysicalUnits (ht : t.IsRectangular)
    (hopen : ∀ col ∈ t.columns, c.column? col.name = some ⟨col.name, col.type, true⟩)
    (hknown : ∀ key ∈ t.index, key ∈ (s.tables c).index) :
    ∀ col ∈ (s.inPhysicalUnits c t).columns,
      c.Accepts (s.tables c) (s.inPhysicalUnits c t).index col := by
  intro col hcol
  refine ⟨?_, ?_, fun key hkey => ?_⟩
  · have hentry : (col.name, col.type) ∈ t.signature :=
      s.signature_inPhysicalUnits c t ▸ List.mem_map_of_mem hcol
    obtain ⟨col', hcol', heq⟩ := List.mem_map.mp hentry
    obtain ⟨hname, htype⟩ := Prod.mk.inj heq
    rw [← hname, ← htype]
    exact hopen col' hcol'
  · obtain ⟨_, hcol', rfl⟩ := List.mem_map.mp hcol
    obtain ⟨col, hmem, rfl⟩ := List.mem_map.mp hcol'
    exact length_pick_congr _
      ((ht col hmem).symm.trans (length_columnInPhysicalUnits col).symm)
  · obtain ⟨p, hp, -⟩ := Table.mem_index_rowsWhere.mp hkey
    exact hknown key (List.mem_of_getElem? hp)

end SessionState

/-! ### The two writings -/

namespace Table

variable {c : Category} {t : Table}

/-- A writing leaves the rows of all other keys and all other columns alone. -/
theorem cell?_putAll_of_notMem (ht : t.Fits c) {keys : List RowKey} {cols : List Column}
    (h : ∀ col ∈ cols, c.Accepts t keys col) {key : RowKey} {name : String}
    (hout : key ∉ keys ∨ name ∉ cols.map (·.name)) :
    (t.putAll keys cols).cell? key name = t.cell? key name := by
  rw [cell?_eq_bind, cell?_eq_bind, (sameShape_putAll ht h).position?]
  cases hp : t.position? key with
  | none => rfl
  | some p =>
    rw [Option.bind_some, Option.bind_some, cellAt?_putAll ht h]
    suffices hnone : t.lastWritten? keys cols p name = none by rw [hnone, Option.none_or]
    rw [lastWritten?, Option.bind_eq_none_iff]
    intro col hcol
    have hmem := List.mem_reverse.mp (List.mem_of_find?_eq_some hcol)
    have hname : col.name = name := by simpa using List.find?_some hcol
    rcases hout with hkey | hcolumn
    · rw [lastFor?_zip_eq_none_iff (by simp [(h col hmem).2.1])]
      intro key' hkey' hp'
      exact hkey (eq_of_position? hp hp' ▸ hkey')
    · exact absurd (List.mem_map.mpr ⟨col, hmem, hname⟩) hcolumn

end Table

namespace Session

open SessionState

variable {s s' : SessionState} {c : Category} {t : Table}

theorem store_setTables_congr (s s' : SessionState) (hhandle : s'.session.handle = s.session.handle)
    (hstore : s'.store = s.store) (ts : Tables) :
    (s'.setTables ts).store = (s.setTables ts).store := by
  rw [SessionState.setTables, SessionState.setTables, hhandle, hstore]
  cases s.store.network? s.session.handle with
  | none => exact hstore
  | some n => rfl

theorem wellFormed_withoutDiagnostics (hs : s.WellFormed) :
    SessionState.WellFormed ⟨{ s.session with diagnostics := [] }, s.store⟩ :=
  ⟨hs.store, hs.network⟩

/-- A writing in physical units forgets the last diagnostics and writes the table as it is. -/
theorem update_off (hoff : s.session.perUnit.enabled = false) (c : Category) (t : Table) :
    update c t s = writeTable c t ⟨{ s.session with diagnostics := [] }, s.store⟩ := by
  have hclear : clearDiagnostics s =
      .ok () ⟨{ s.session with diagnostics := [] }, s.store⟩ := rfl
  rw [update, run_bind_of_ok (context_run s), if_neg (by simp [hoff]), run_bind_of_ok hclear]

/-- A writing in physical units puts the columns into the store as they are. -/
theorem update_plain (hs : s.WellFormed) (hoff : s.session.perUnit.enabled = false)
    (hall : ∀ col ∈ t.columns, c.Accepts (s.tables c) t.index col) :
    ∃ u, update c t s = .ok () u ∧
      u.store = (s.setTables (s.tables.set c ((s.tables c).putAll t.index t.columns))).store := by
  rw [update_off hoff]
  have hstore (ts : Tables) : (SessionState.setTables
      ⟨{ s.session with diagnostics := [] }, s.store⟩ ts).store = (s.setTables ts).store :=
    store_setTables_congr s ⟨{ s.session with diagnostics := [] }, s.store⟩ rfl rfl ts
  exact ⟨_, writeTable_of_accepts (wellFormed_withoutDiagnostics hs) hall, hstore _⟩

section Accepted

variable (hall : ∀ col ∈ (s.written c t).columns,
  c.Accepts (s.tables c) (s.written c t).index col)

include hall

/-- A table of which all columns are accepted, and which has any, has known elements only. -/
theorem mem_index_of_accepts (hcolumns : t.columns ≠ []) :
    ∀ key ∈ t.index, key ∈ (s.tables c).index := by
  intro key hkey
  by_cases hskips : s.Skips c t key
  · exact hskips.1
  · obtain ⟨p, hp⟩ := List.mem_iff_getElem?.mp hkey
    have hwritten : key ∈ (s.written c t).index :=
      Table.mem_index_rowsWhere.mpr ⟨p, hp, by simp [hp, hskips]⟩
    obtain ⟨col, hcol⟩ : ∃ col, col ∈ (s.written c t).columns := by
      refine List.exists_mem_of_ne_nil _ fun hnil => hcolumns ?_
      simpa [SessionState.written, Table.rowsWhere, SessionState.physical, Table.mapFirst]
        using hnil
    exact (hall col hcol).2.2 key hwritten

end Accepted

/-- Where a table is accepted, the table in physical units is accepted too, and has the same
effect. -/
theorem putAll_inPhysicalUnits (hs : s.WellFormed) (hkeys : (s.tables c).index.Nodup)
    (ht : t.IsRectangular) (hnames : t.columnNames.Nodup)
    (hall : ∀ col ∈ (s.written c t).columns,
      c.Accepts (s.tables c) (s.written c t).index col) :
    (∀ col ∈ (s.inPhysicalUnits c t).columns,
        c.Accepts (s.tables c) (s.inPhysicalUnits c t).index col) ∧
      (s.tables c).putAll (s.inPhysicalUnits c t).index (s.inPhysicalUnits c t).columns =
        (s.tables c).putAll (s.written c t).index (s.written c t).columns := by
  by_cases hcolumns : t.columns = []
  · have hwritten : (s.written c t).columns = [] := by
      simp [SessionState.written, SessionState.physical, Table.rowsWhere, Table.mapFirst, hcolumns]
    have hphysical : (s.inPhysicalUnits c t).columns = [] := by
      simp [SessionState.inPhysicalUnits, Table.rowsWhere, hcolumns]
    rw [hwritten, hphysical]
    exact ⟨by simp, rfl⟩
  · rw [← SessionState.written_eq_inPhysicalUnits hs hkeys ht hnames
      (c.column?_of_accepts (s.signature_written c t) hall) (mem_index_of_accepts hall hcolumns)]
    exact ⟨hall, rfl⟩

/-- A writing in per-unit that succeeds leaves the store as the writing of the table in physical
units does.  That table has the columns of the table; cells of other rows or columns, and those
of rows that lack a voltage, stay as they are. -/
theorem update_perUnit_eq_update_physical (hs : s.Reachable)
    (hkeys : (s.tables c).index.Nodup) (hon : s.session.perUnit.enabled = true)
    (ht : t.IsRectangular) (hnames : t.columnNames.Nodup) (h : update c t s = .ok () s') :
    (∃ u, update c (s.inPhysicalUnits c t) ((Operation.setPerUnit false).after s) = .ok () u ∧
      u.store = s'.store) ∧
    (s.inPhysicalUnits c t).signature = t.signature ∧
    ∃ v, s'.store = (s.setTables (s.tables.set c v)).store ∧ Table.SameShape (s.tables c) v ∧
      (∀ key name, key ∉ (s.inPhysicalUnits c t).index ∨ name ∉ t.columnNames →
        v.cell? key name = (s.tables c).cell? key name) ∧
      ∀ p key, t.index[p]? = some key → s.isWritten c t p = false →
        ∀ name, v.cell? key name = (s.tables c).cell? key name := by
  have hwf := hs.wellFormed
  obtain ⟨hall, report, rfl⟩ := update_ok hwf hon ht h
  obtain ⟨haccepts, hput⟩ := putAll_inPhysicalUnits hwf hkeys ht hnames hall
  have hoff : ((Operation.setPerUnit false).after s).WellFormed :=
    ((Operation.setPerUnit false).relates s).wellFormed hwf
  obtain ⟨u, hu, hstore⟩ := update_plain hoff rfl haccepts
  have hcolumns : (s.inPhysicalUnits c t).columns.map (·.name) = t.columnNames :=
    SessionState.columnNames_inPhysicalUnits s c t
  refine ⟨⟨u, hu, ?_⟩, SessionState.signature_inPhysicalUnits s c t, _, hput ▸ rfl,
    Table.sameShape_putAll (hwf.tables c) haccepts, fun key name hout => ?_,
    fun p key hkey hdropped name => ?_⟩
  · rw [hstore]
    change (SessionState.setTables _ (s.tables.set c ((s.tables c).putAll _ _))).store = _
    rw [hput]
    exact store_setTables_congr s ((Operation.setPerUnit false).after s) rfl rfl _
  · exact Table.cell?_putAll_of_notMem (hwf.tables c) haccepts (by rwa [hcolumns])
  · refine Table.cell?_putAll_of_notMem (hwf.tables c) haccepts (.inl fun hmem => ?_)
    obtain ⟨q, hkey', hkept⟩ := Table.mem_index_rowsWhere.mp hmem
    have hopen := c.column?_of_accepts (s.signature_written c t) hall
    have hskips := (SessionState.skips_iff hwf hkeys ht hnames hopen hkey).mpr hdropped
    rw [SessionState.skips_iff hwf hkeys ht hnames hopen hkey', hkept] at hskips
    cases hskips

/-- Of two generators, the one that lacks a voltage is left out with all its columns; the target
voltage of the other one is multiplied by 400 kV. -/
theorem update_twoGenerators :
    ((twoGenerators (some 400.0)).inPhysicalUnits .generator .newTargets).index =
        [.plain "G1"] ∧
      ((twoGenerators (some 400.0)).inPhysicalUnits .generator .newTargets).doubles? "target_v" =
        some [420.0] ∧
      ∃ u, update .generator ((twoGenerators (some 400.0)).inPhysicalUnits .generator .newTargets)
          ((Operation.setPerUnit false).after (twoGenerators (some 400.0))) = .ok () u ∧
        u.store =
          ((Operation.update .generator .newTargets).after (twoGenerators (some 400.0))).store :=
  ⟨by decide +kernel, by decide +kernel,
    (update_perUnit_eq_update_physical (reachable_twoGenerators _) (by decide +kernel) rfl
      (by decide) (by decide) (run_eq_ok_stateAfter (by decide +kernel))).1⟩

end Session

end PowerTables
