import PowerTables.Proofs.Session.Refinement

/-!
# Reading and writing in per-unit

Two laws relate reading and writing.  What is read can be written back without effect, and what
is written is read again.  Both rest on the same fact: the two directions of a conversion find
the same voltage for a row, although the one looks at the stored table as a whole and the other
at some columns of it.  Of the arithmetic of doubles they need that a value divided by its base
and multiplied by it, or the other way round, is the value again.

## Main definitions

* `Session.writeBack` : a reading of which every column that is open to writes is written back.
* `SessionState.RestoresStored`, `SessionState.RestoresGiven` : what the laws need of the
  arithmetic.

## Main results

* `Session.writeBack_eq_self` : writing back what was read changes nothing.
* `Session.elements_after_update` : what was written is read again.
-/

namespace PowerTables

/-! ### Readings -/

/-- The table of a category in per-unit. -/
def SessionState.reading (s : SessionState) (c : Category) : Table :=
  (s.tables c).converted s.session.perUnit (s.levels c) .toPerUnit c.rules

theorem SessionState.fits_reading {s : SessionState} (hs : s.WellFormed) (c : Category) :
    (s.reading c).Fits c :=
  ⟨Table.signature_converted.trans (hs.tables c).signature,
    (hs.tables c).rectangular.mapFirst Table.length_convertedColumn⟩

namespace Session

variable {s : SessionState}

/-- A reading in per-unit converts the stored table and records the report. -/
theorem elements_of_convert (hs : s.WellFormed) (hon : s.session.perUnit.enabled = true)
    {c : Category} {u : Table} {report : ConversionReport}
    (h : convert s.session.perUnit c (s.levels c) .toPerUnit (s.tables c) = .ok (u, report)) :
    elements c s = .ok u ⟨s.session.recorded report, s.store⟩ := by
  have hconverted := converted_run hs c .toPerUnit (s.tables c)
  rw [h] at hconverted
  rw [elements, run_bind_of_ok (storedTable_run hs c), run_bind_of_ok (context_run s), if_pos hon,
    run_bind_of_ok hconverted]
  rfl

/-- A reading in per-unit. -/
theorem elements_run (hs : s.WellFormed) (hon : s.session.perUnit.enabled = true)
    (c : Category) : ∃ report, elements c s =
      .ok (s.reading c) ⟨s.session.recorded report, s.store⟩ := by
  obtain ⟨report, hrun⟩ := exists_convert s.session.perUnit c (s.levels c) .toPerUnit
    (hs.tables c).rectangular
  exact ⟨report, elements_of_convert hs hon hrun⟩

/-- A reading in physical units gives the stored table and forgets the last diagnostics. -/
theorem elements_off (hs : s.WellFormed) (hoff : s.session.perUnit.enabled = false)
    (c : Category) :
    elements c s = .ok (s.tables c) ⟨{ s.session with diagnostics := [] }, s.store⟩ := by
  rw [elements, run_bind_of_ok (storedTable_run hs c), run_bind_of_ok (context_run s),
    if_neg (by simp [hoff])]
  rfl

end Session

/-! ### Writing back what was read -/

/-- The columns of a category that are open to writes, in display order. -/
def Category.writableColumns (c : Category) : List String :=
  (c.schema.filter (·.writable)).map (·.name)

/-- Reads a category, and writes back every column that is open to writes. -/
def Session.writeBack (c : Category) : SessionM Unit := do
  let t ← Session.elements c
  let t ← Session.ofTable (t.select c.writableColumns)
  Session.update c t

namespace SessionState

/-- Every stored double that is converted and open to writes is restored when it is divided by
its base and multiplied by it again. -/
def RestoresStored (s : SessionState) (c : Category) : Prop :=
  ∀ rule ∈ c.rules, rule.column ∈ c.writableColumns → ∀ p < (s.tables c).size,
    ∀ x ∈ ((s.tables c).cellAt? p rule.column).bind (·.as? .double),
      ∀ v ∈ rule.baseOf (s.levels c) ((s.tables c).cellAt? p),
        x / rule.dimension.divisor s.session.perUnit v *
          rule.dimension.divisor s.session.perUnit v = x

instance (s : SessionState) (c : Category) : Decidable (s.RestoresStored c) :=
  inferInstanceAs (Decidable (∀ rule ∈ c.rules, _ → ∀ p, p < (s.tables c).size → _))

end SessionState

theorem Category.mem_writableColumns {c : Category} {name : String} :
    name ∈ c.writableColumns ↔ ∃ type, c.column? name = some ⟨name, type, true⟩ := by
  rw [writableColumns, List.mem_map]
  constructor
  · rintro ⟨⟨name, type, writable⟩, hspec, rfl⟩
    obtain ⟨hmem, hwritable⟩ := List.mem_filter.mp hspec
    obtain rfl : writable = true := hwritable
    exact ⟨type, Category.column?_eq_some_iff.mpr ⟨hmem, rfl⟩⟩
  · rintro ⟨type, hspec⟩
    exact ⟨_, List.mem_filter.mpr ⟨(Category.column?_eq_some_iff.mp hspec).1, rfl⟩, rfl⟩

theorem Category.nodup_writableColumns (c : Category) : c.writableColumns.Nodup :=
  c.nodup_schemaNames.sublist (List.filter_sublist.map _)

namespace SessionState

variable {s : SessionState} {c : Category}

/-- The columns of a reading that are open to writes. -/
def writableReading (s : SessionState) (c : Category) : Table :=
  (s.reading c).withColumns c.writableColumns

section WritableReading

theorem mem_columnNames_of_writable {t : Table} (ht : t.Fits c) {name : String}
    (h : name ∈ c.writableColumns) : name ∈ t.columnNames := by
  obtain ⟨type, hspec⟩ := Category.mem_writableColumns.mp h
  exact ht.mem_columnNames_iff.mpr ⟨_, hspec⟩

variable (hs : s.WellFormed)

include hs

theorem columnNames_writableReading :
    (s.writableReading c).columnNames = c.writableColumns :=
  Table.columnNames_withColumns fun _ => mem_columnNames_of_writable (fits_reading hs c)

theorem isRectangular_writableReading : (s.writableReading c).IsRectangular :=
  (fits_reading hs c).rectangular.withColumns _

/-- The columns of the reading are all open to writes. -/
theorem column?_writableReading : ∀ col ∈ (s.writableReading c).columns,
    c.column? col.name = some ⟨col.name, col.type, true⟩ := by
  intro col hcol
  obtain ⟨name, hname, hfound⟩ := List.mem_filterMap.mp hcol
  obtain ⟨type, hspec⟩ := Category.mem_writableColumns.mp hname
  have htype := (fits_reading hs c).type_column? name
  rw [hfound, hspec, Option.map_some, Option.map_some, Option.some_inj] at htype
  rw [(Table.mem_of_column? hfound).2, htype]
  exact hspec

theorem cellAt?_writableReading {name : String} (hname : name ∈ c.writableColumns) {p : Nat}
    (hp : p < (s.tables c).size) :
    (s.writableReading c).cellAt? p name =
      match c.rules.find? (·.column == name) with
      | some rule => ((s.tables c).cellAt? p name).map (Cell.mapDouble fun x =>
          convertValue s.session.perUnit rule.dimension .toPerUnit x
            (rule.baseOf (s.levels c) ((s.tables c).cellAt? p)))
      | none => (s.tables c).cellAt? p name := by
  have hselected : (s.writableReading c).cellAt? p name = Table.cellAt? _ p name :=
    congrArg (fun col : Option Column => col.bind (·.cell? p)) (Table.column?_withColumns
      (fun _ => mem_columnNames_of_writable (fits_reading hs c)) c.nodup_writableColumns hname)
  exact hselected.trans (Table.cellAt?_converted (hs.tables c).rectangular hp name)

/-- The voltages that are found for what was read are those that were found for the reading. -/
theorem baseAt_writableReading (hkeys : (s.tables c).index.Nodup) {rule : ConversionRule}
    (hrule : rule ∈ c.rules) {p : Nat} (hp : p < (s.tables c).size) :
    s.baseAt c (s.writableReading c) rule p =
      rule.baseOf (s.levels c) ((s.tables c).cellAt? p) := by
  refine rule.baseOf_congr _ fun name hname => ?_
  rw [Table.baseRow]
  by_cases hown : name ∈ (s.writableReading c).columnNames
  · rw [if_pos (Table.hasColumn_iff.mpr hown),
      cellAt?_writableReading hs (columnNames_writableReading hs ▸ hown) hp,
      Category.find?_rule_of_source hrule hname]
  · have hkey : (s.writableReading c).index[p]? = some (s.tables c).index[p] :=
      List.getElem?_eq_getElem hp
    have hposition := Table.position?_of_nodup hkeys (List.getElem?_eq_getElem hp)
    rw [if_neg (mt Table.hasColumn_iff.mp hown), hkey, Option.bind_some, Table.cell?_eq_bind,
      hposition, Option.bind_some]

/-- A stored double of a row that is written back has a voltage, the same in both directions. -/
theorem exists_base_of_isWritten (hkeys : (s.tables c).index.Nodup) {rule : ConversionRule}
    (hrule : rule ∈ c.rules) (hname : rule.column ∈ c.writableColumns) {p : Nat}
    (hp : p < (s.tables c).size) (hwritten : s.isWritten c (s.writableReading c) p = true)
    {x : Float} (hx : x ∈ ((s.tables c).cellAt? p rule.column).bind (·.as? .double)) :
    ∃ v, s.baseAt c (s.writableReading c) rule p = some v ∧
      rule.baseOf (s.levels c) ((s.tables c).cellAt? p) = some v := by
  have hkey : (s.writableReading c).index[p]? = some (s.tables c).index[p] :=
    List.getElem?_eq_getElem hp
  have hdouble : ((s.writableReading c).doubles? rule.column).isSome := by
    obtain ⟨cell, hcell, hx⟩ := Option.bind_eq_some_iff.mp hx
    have hread := cellAt?_writableReading hs hname hp
    rw [Category.find?_rule_eq_some_iff.mpr ⟨hrule, rfl⟩, hcell] at hread
    refine Table.isSome_doubles? (p := p) ?_
    rw [hread]
    dsimp only
    rw [Option.map_some, Option.bind_some, Cell.as?_mapDouble, Option.isSome_map,
      hx, Option.isSome_some]
  obtain ⟨v, hv⟩ := exists_baseAt hrule hkey (List.getElem_mem hp) hwritten hdouble
  exact ⟨v, hv, baseAt_writableReading hs hkeys hrule hp ▸ hv⟩

end WritableReading

/-- What is written for a reading is what is stored. -/
theorem cell?_writtenBack (hs : s.WellFormed) (hkeys : (s.tables c).index.Nodup)
    (hrestores : s.RestoresStored c) {col : Column} (hcol : col ∈ (s.writableReading c).columns)
    {p : Nat} (hp : p < (s.tables c).size)
    (hwritten : s.isWritten c (s.writableReading c) p = true) :
    (s.columnInPhysicalUnits c (s.writableReading c) col).cell? p =
      (s.tables c).cellAt? p col.name := by
  have hnames : (s.writableReading c).columnNames.Nodup :=
    columnNames_writableReading hs ▸ c.nodup_writableColumns
  have hname : col.name ∈ c.writableColumns :=
    columnNames_writableReading hs ▸ Table.mem_columnNames_iff.mpr ⟨col, hcol, rfl⟩
  have hread := cellAt?_writableReading hs hname hp
  rw [Table.cellAt?_of_column? (Table.column?_of_mem hnames hcol)] at hread
  rw [cell?_columnInPhysicalUnits]
  cases hfind : c.rules.find? (·.column == col.name) with
  | none => rw [hread, hfind]
  | some rule =>
    obtain ⟨hrule, hcolumn⟩ := Category.find?_rule_eq_some_iff.mp hfind
    rw [hfind] at hread
    dsimp only at hread ⊢
    rw [hread, Option.map_map]
    cases hstored : (s.tables c).cellAt? p col.name with
    | none => rfl
    | some cell =>
      refine congrArg some (Cell.mapDouble_mapDouble fun x hx => ?_)
      have hdouble : x ∈ ((s.tables c).cellAt? p rule.column).bind (·.as? .double) := by
        rw [hcolumn, hstored]
        exact hx
      obtain ⟨v, hv, hbase⟩ :=
        exists_base_of_isWritten hs hkeys hrule (hcolumn ▸ hname) hp hwritten hdouble
      rw [hv, hbase]
      exact hrestores rule hrule (hcolumn ▸ hname) p hp x hdouble v hbase

end SessionState

namespace Session

variable {s : SessionState} {c : Category}

/-- What was read is accepted, and changes nothing. -/
theorem update_writableReading (hs : s.WellFormed) (hkeys : (s.tables c).index.Nodup)
    (hon : s.session.perUnit.enabled = true) (hrestores : s.RestoresStored c) :
    ∃ s', update c (s.writableReading c) s = .ok () s' ∧ s'.store = s.store := by
  have hrect := SessionState.isRectangular_writableReading (c := c) hs
  have hnames : (s.writableReading c).columnNames.Nodup :=
    SessionState.columnNames_writableReading hs ▸ c.nodup_writableColumns
  have hopen := SessionState.column?_writableReading (c := c) hs
  obtain ⟨report, hphysical⟩ := exists_toPhysical hs c hrect
  rw [SessionState.written_eq_inPhysicalUnits hs hkeys hrect hnames hopen fun _ hkey => hkey]
    at hphysical
  have hall := SessionState.accepts_inPhysicalUnits hrect hopen fun _ hkey => hkey
  have hsame : (s.tables c).putAll (s.inPhysicalUnits c (s.writableReading c)).index
      (s.inPhysicalUnits c (s.writableReading c)).columns = s.tables c := by
    refine Table.putAll_eq_self (hs.tables c) hall ?_
    rintro col hcol ⟨key, cell⟩ he p hp
    obtain ⟨_, hcol', rfl⟩ := List.mem_map.mp hcol
    obtain ⟨col, hmem, rfl⟩ := List.mem_map.mp hcol'
    obtain ⟨q, hkey, hcell, hwritten⟩ := Table.mem_zip_rowsWhere.mp he
    have hq : q < (s.tables c).size := (List.getElem?_eq_some_iff.mp hkey).1
    obtain rfl : p = q :=
      Option.some.inj (hp.symm.trans (Table.position?_of_nodup hkeys hkey))
    rw [SessionState.cell?_writtenBack hs hkeys hrestores hmem hq hwritten] at hcell
    exact (congrArg _ (SessionState.name_columnInPhysicalUnits col)).trans hcell
  refine ⟨_, update_of_accepts hs hon hphysical hall, ?_⟩
  rw [hsame, Tables.set_eq_self, SessionState.setTables_tables hs]

/-- What was read can be written back, and the store is as before. -/
theorem writeBack_eq_self (hs : s.Reachable) (hkeys : (s.tables c).index.Nodup)
    (hon : s.session.perUnit.enabled = true) (hrestores : s.RestoresStored c) :
    ∃ s', writeBack c s = .ok () s' ∧ s'.store = s.store := by
  have hwf := hs.wellFormed
  obtain ⟨report, hread⟩ := elements_run hwf hon c
  have hselect : (s.reading c).select c.writableColumns = .ok (s.writableReading c) :=
    Table.select_eq (SessionState.fits_reading hwf c).rectangular
      (fun _ => SessionState.mem_columnNames_of_writable (SessionState.fits_reading hwf c))
      c.nodup_writableColumns
  have hread' : SessionState.WellFormed ⟨s.session.recorded report, s.store⟩ :=
    ⟨hwf.store, hwf.network⟩
  obtain ⟨s', hupdate, hstore⟩ := update_writableReading (c := c) hread' hkeys hon hrestores
  refine ⟨s', ?_, hstore⟩
  rw [writeBack, run_bind_of_ok hread, hselect]
  exact hupdate

theorem writeBack_twoGenerators :
    (SessionState.twoGenerators (some 400.0)).RestoresStored .generator ∧
      ∃ s', writeBack .generator (SessionState.twoGenerators (some 400.0)) = .ok () s' ∧
        s'.store = (SessionState.twoGenerators (some 400.0)).store :=
  ⟨by decide +kernel, writeBack_eq_self (SessionState.reachable_twoGenerators _)
    (by decide +kernel) rfl (by decide +kernel)⟩

end Session

/-! ### Reading what was written -/

namespace SessionState

variable {s : SessionState} {c : Category} {t : Table}

/-- Every converted double of a row that is written is restored when it is multiplied by its
base and divided by it again. -/
def RestoresGiven (s : SessionState) (c : Category) (t : Table) : Prop :=
  ∀ rule ∈ c.rules, ∀ p < t.size, s.isWritten c t p = true →
    ∀ x ∈ (t.cellAt? p rule.column).bind (·.as? .double), ∀ v ∈ s.baseAt c t rule p,
      x * rule.dimension.divisor s.session.perUnit v /
        rule.dimension.divisor s.session.perUnit v = x

instance (s : SessionState) (c : Category) (t : Table) : Decidable (s.RestoresGiven c t) :=
  inferInstanceAs (Decidable (∀ rule ∈ c.rules, ∀ p, p < t.size → _ → _))

section Put

variable (hs : s.WellFormed) (ht : t.IsRectangular)
  (hdistinct : t.index.Nodup) (hnames : t.columnNames.Nodup)
  (hall : ∀ col ∈ (s.inPhysicalUnits c t).columns,
    c.Accepts (s.tables c) (s.inPhysicalUnits c t).index col)
  {v : Table} (hv : v = (s.tables c).putAll (s.inPhysicalUnits c t).index
    (s.inPhysicalUnits c t).columns)
  {p : Nat} {key : RowKey} (hkey : t.index[p]? = some key)
  (hknown : key ∈ (s.tables c).index) (hwritten : s.isWritten c t p = true)

include hs hdistinct hnames hall hv hkey hknown hwritten

/-- A cell that was written is the one in physical units. -/
theorem cell?_put {col : Column} (hcol : col ∈ t.columns) {cell : Cell}
    (hcell : (s.columnInPhysicalUnits c t col).cell? p = some cell) :
    v.cell? key col.name = some cell := by
  obtain ⟨i, hi⟩ := Table.exists_position? hknown
  have hmem : (s.columnInPhysicalUnits c t col).rowsWhere (s.isWritten c t) ∈
      (s.inPhysicalUnits c t).columns := List.mem_map_of_mem (List.mem_map_of_mem hcol)
  have hcolumnNames : (s.inPhysicalUnits c t).columnNames.Nodup :=
    columnNames_inPhysicalUnits s c t ▸ hnames
  have hfound : (s.tables c).lastWritten? (s.inPhysicalUnits c t).index
      (s.inPhysicalUnits c t).columns i col.name = some cell := by
    rw [← s.name_columnInPhysicalUnits (c := c) (t := t) col]
    refine (Table.lastWritten?_of_mem _ _ hcolumnNames hmem i).trans ?_
    refine Table.lastFor?_eq_some (Table.mem_zip_rowsWhere.mpr ⟨p, hkey, hcell, hwritten⟩) hi ?_
    rintro ⟨key', cell'⟩ he hi'
    -- the row has no other entry, as its key occurs once
    obtain ⟨q, hkey', hcell', -⟩ := Table.mem_zip_rowsWhere.mp he
    obtain rfl := Table.eq_of_position? hi hi'
    have hq : q < t.index.length := (List.getElem?_eq_some_iff.mp hkey').1
    obtain rfl : q = p := (List.getElem?_inj hq hdistinct).mp (hkey'.trans hkey.symm)
    exact Option.some.inj (hcell'.symm.trans hcell)
  rw [hv, Table.cell?_eq_bind, (Table.sameShape_putAll (hs.tables c) hall).position?, hi,
    Option.bind_some, Table.cellAt?_putAll (hs.tables c) hall, hfound, Option.some_or]

include ht

/-- The voltages of a row are the same after the writing. -/
theorem baseOf_put {rule : ConversionRule} (hrule : rule ∈ c.rules) :
    rule.baseOf (s.levels c) (v.cell? key) = s.baseAt c t rule p := by
  refine rule.baseOf_congr _ fun name hname => ?_
  rw [Table.baseRow]
  by_cases hown : name ∈ t.columnNames
  · obtain ⟨col, hcol, rfl⟩ := Table.mem_columnNames_iff.mp hown
    obtain ⟨cell, hcell⟩ :=
      ht.isSome_cellAt? hown (List.getElem?_eq_some_iff.mp hkey).1
    rw [if_pos (Table.hasColumn_iff.mpr hown), hcell]
    rw [Table.cellAt?_of_column? (Table.column?_of_mem hnames hcol)] at hcell
    refine cell?_put hs hdistinct hnames hall hv hkey hknown hwritten hcol ?_
    rw [cell?_columnInPhysicalUnits, Category.find?_rule_of_source hrule hname, hcell]
  · have hcolumns : (s.inPhysicalUnits c t).columns.map (·.name) = t.columnNames :=
      columnNames_inPhysicalUnits s c t
    rw [if_neg (mt Table.hasColumn_iff.mp hown), hkey, Option.bind_some, hv,
      Table.cell?_putAll_of_notMem (hs.tables c) hall (.inr (hcolumns ▸ hown))]

/-- What is read after the writing is what was given. -/
theorem cell?_converted_put (hrestores : s.RestoresGiven c t) {name : String}
    (hname : name ∈ t.columnNames) :
    (v.converted s.session.perUnit (s.levels c) .toPerUnit c.rules).cell? key name =
      t.cell? key name := by
  obtain ⟨col, hcol, rfl⟩ := Table.mem_columnNames_iff.mp hname
  have hp : p < t.size := (List.getElem?_eq_some_iff.mp hkey).1
  have hshape : Table.SameShape (s.tables c) v :=
    hv ▸ Table.sameShape_putAll (hs.tables c) hall
  have hgiven : t.cell? key col.name = col.cell? p := by
    rw [Table.cell?_eq_bind, Table.position?_of_nodup hdistinct hkey, Option.bind_some,
      Table.cellAt?_of_column? (Table.column?_of_mem hnames hcol)]
  obtain ⟨cell, hcell⟩ := ht.isSome_cellAt? hname hp
  rw [Table.cellAt?_of_column? (Table.column?_of_mem hnames hcol)] at hcell
  have hput (cell' : Cell)
      (hcell' : (s.columnInPhysicalUnits c t col).cell? p = some cell') :
      v.cell? key col.name = some cell' :=
    cell?_put hs hdistinct hnames hall hv hkey hknown hwritten hcol hcell'
  rw [cell?_columnInPhysicalUnits, hcell] at hput
  rw [Table.cell?_converted (hshape.isRectangular (hs.tables c).rectangular)
    (hshape.index ▸ hknown), hgiven, hcell]
  cases hfind : c.rules.find? (·.column == col.name) with
  | none =>
    rw [hfind] at hput
    exact hput cell rfl
  | some rule =>
    obtain ⟨hrule, hcolumn⟩ := Category.find?_rule_eq_some_iff.mp hfind
    rw [hfind] at hput
    dsimp only
    rw [hput _ rfl, baseOf_put hs ht hdistinct hnames hall hv hkey hknown hwritten hrule]
    refine congrArg some (Cell.mapDouble_mapDouble fun x hx => ?_)
    have hdouble : x ∈ (t.cellAt? p rule.column).bind (·.as? .double) := by
      rw [hcolumn, Table.cellAt?_of_column? (Table.column?_of_mem hnames hcol), hcell]
      exact hx
    obtain ⟨b, hb⟩ := exists_baseAt hrule hkey hknown hwritten
      (Table.isSome_doubles? (Option.isSome_of_mem hdouble))
    rw [hb]
    exact hrestores rule hrule p hp hwritten x hdouble b hb

end Put

end SessionState

namespace Session

variable {s s' : SessionState} {c : Category} {t : Table}

theorem levels_set {c : Category} {v : Table} (h : s'.tables = s.tables.set c v) :
    s'.levels c = s.levels c := by
  rw [SessionState.levels, SessionState.levels]
  cases hneeds : c.needsVoltageLevels with
  | false => rfl
  | true =>
    have hother : Category.voltageLevel ≠ c := fun hc => by
      rw [← hc, Category.needsVoltageLevels_voltageLevel] at hneeds
      cases hneeds
    rw [h, Tables.set_of_ne _ _ hother]

/-- After a writing the rows that lack no voltage are read as they were given. -/
theorem elements_after_update (hs : s.Reachable) (hkeys : (s.tables c).index.Nodup)
    (hon : s.session.perUnit.enabled = true) (ht : t.IsRectangular)
    (hdistinct : t.index.Nodup) (hnames : t.columnNames.Nodup)
    (h : update c t s = .ok () s') (hrestores : s.RestoresGiven c t) :
    ∃ u s'', elements c s' = .ok u s'' ∧
      ∀ p key, t.index[p]? = some key → s.lacksBase c t p = false →
        ∀ name ∈ t.columnNames, u.cell? key name = t.cell? key name := by
  have hwf := hs.wellFormed
  have hs' : s'.WellFormed := by
    have hevolves := (Operation.update c t).relates s
    rw [Operation.run, stateAfter_ok h] at hevolves
    exact hevolves.wellFormed hwf
  obtain ⟨hall, report, hafter⟩ := update_ok hwf hon ht h
  obtain ⟨haccepts, hput⟩ := putAll_inPhysicalUnits hwf hkeys ht hnames hall
  have htables : s'.tables = s.tables.set c ((s.tables c).putAll
      (s.inPhysicalUnits c t).index (s.inPhysicalUnits c t).columns) :=
    SessionState.tables_of_store hwf (by rw [hafter]; rfl) (by rw [hafter, hput])
  have hcontext : s'.session.perUnit = s.session.perUnit := by
    rw [hafter]
    rfl
  obtain ⟨report', hread⟩ := elements_run hs' (hcontext ▸ hon) c
  refine ⟨_, _, hread, fun p key hkey hbases name hname => ?_⟩
  have hcolumns : t.columns ≠ [] := by
    obtain ⟨col, hcol, -⟩ := Table.mem_columnNames_iff.mp hname
    exact List.ne_nil_of_mem hcol
  have hknown := mem_index_of_accepts hall hcolumns key (List.mem_of_getElem? hkey)
  have hwritten : s.isWritten c t p = true := by
    rw [SessionState.isWritten, hbases, Bool.and_false, Bool.not_false]
  rw [SessionState.reading, hcontext, levels_set htables, htables, Tables.set_self]
  exact SessionState.cell?_converted_put hwf ht hdistinct hnames haccepts rfl hkey hknown hwritten
    hrestores hname

theorem elements_after_update_twoGenerators :
    ((SessionState.twoGenerators (some 400.0)).lacksBase .generator .newTargets 0 = false) ∧
      ∃ u s'', elements .generator ((Operation.update .generator .newTargets).after
          (SessionState.twoGenerators (some 400.0))) = .ok u s'' ∧
        ∀ name ∈ ["target_v", "energy_source"],
          u.cell? (.plain "G1") name = Table.newTargets.cell? (.plain "G1") name := by
  obtain ⟨u, s'', hread, hcells⟩ := elements_after_update (c := .generator) (t := .newTargets)
    (SessionState.reachable_twoGenerators (some 400.0)) (by decide +kernel) rfl (by decide)
    (by decide) (by decide) (run_eq_ok_stateAfter (by decide +kernel)) (by decide +kernel)
  exact ⟨by decide +kernel, u, s'', hread, hcells 0 (.plain "G1") rfl (by decide +kernel)⟩

end Session

end PowerTables
