import PowerTables.Proofs.Session.Failure
import PowerTables.Proofs.Session.RoundTrip

/-!
# Why a writing is refused

The tables of a reachable session have the columns of their categories, all as long as the index,
whatever snapshots were read before.  So a reading never fails, and a writing of a table whose
columns are as long as its index is refused for one of four reasons, each of which lies in a
column or a row of the table that was given.  All the other errors guard against tables that do
not fit: the columns that voltages are read from are always found, no row is read past the end of
a column, and no cell is written past it.

## Main definitions

* `Category.Refuses` : the reasons to refuse a table.

## Main results

* `Session.refuses_of_writeColumn` : the reasons to refuse a column.
* `Session.elements_succeeds`, `Session.refuses_of_update` : readings and writings.
* `Session.fails_only_on_refused` : what a reachable session can answer.
-/

namespace PowerTables

/-- The reasons to refuse a table that is written to the rows of a stored one. -/
inductive Category.Refuses (c : Category) (stored t : Table) : SessionError → Prop
  /-- The category does not declare a column. -/
  | unknownColumn {name : String} : name ∈ t.columnNames → c.column? name = none →
    Refuses c stored t (.network (.unknownColumn c name))
  /-- A column is closed to writes. -/
  | readOnlyColumn {name : String} {type : CellType} : name ∈ t.columnNames →
    c.column? name = some ⟨name, type, false⟩ →
    Refuses c stored t (.network (.readOnlyColumn c name))
  /-- A column is declared with another type. -/
  | typeMismatch {name : String} {spec : ColumnSpec} {given : CellType} :
    (name, given) ∈ t.signature → c.column? name = some spec → spec.type ≠ given →
    Refuses c stored t (.typeMismatch c name spec.type given)
  /-- An element is not stored. -/
  | unknownElement {key : RowKey} : key ∈ t.index → key ∉ stored.index →
    Refuses c stored t (.network (.unknownElement c key.text))

namespace Category

variable {c : Category} {stored stored' t u : Table} {e : SessionError}

/-- The reasons lie in the signature and the keys of a table and in the stored keys. -/
theorem Refuses.congr (h : c.Refuses stored u e) (hstored : stored.index = stored'.index)
    (hsignature : u.signature = t.signature) (hindex : ∀ key ∈ u.index, key ∈ t.index) :
    c.Refuses stored' t e := by
  have hnames := Table.columnNames_of_signature hsignature
  cases h with
  | unknownColumn hname hspec => exact .unknownColumn (hnames ▸ hname) hspec
  | readOnlyColumn hname hspec => exact .readOnlyColumn (hnames ▸ hname) hspec
  | typeMismatch hcolumn hspec htype => exact .typeMismatch (hsignature ▸ hcolumn) hspec htype
  | unknownElement hkey hunknown => exact .unknownElement (hindex _ hkey) (hstored ▸ hunknown)

/-- Values of the declared type, one for each key, are refused only where the column is closed
to writes. -/
theorem cellsFor_eq_error {col : Column} {spec : ColumnSpec} {keys : List RowKey}
    {e : NetworkError} (hspec : c.column? col.name = some spec) (htype : spec.type = col.type)
    (hlength : keys.length = col.length) (h : c.cellsFor col.name keys col.batch = .error e) :
    c.column? col.name = some ⟨col.name, col.type, false⟩ ∧ e = .readOnlyColumn c col.name := by
  simp only [cellsFor, hspec, htype, col.cells?_batch, col.size_batch, hlength, ne_eq,
    not_true_eq_false, if_false] at h
  split at h
  · next hclosed =>
    obtain ⟨name, type, writable⟩ := spec
    obtain rfl : name = col.name := (column?_eq_some_iff.mp hspec).2
    obtain rfl : type = col.type := htype
    obtain rfl : writable = false := by simpa using hclosed
    exact ⟨hspec, (Except.error.inj h).symm⟩
  · cases h

end Category

namespace Tables

/-- Cells of a column that is declared and open to writes are refused only where an element is not
stored. -/
theorem write_eq_error {ts : Tables} {c : Category} {keys : List RowKey} {col : Column}
    {e : NetworkError} (hts : ts.WellFormed)
    (hspec : c.column? col.name = some ⟨col.name, col.type, true⟩)
    (hlength : keys.length = col.length) (h : ts.write c col.name keys col.cells = .error e) :
    ∃ key ∈ keys, key ∉ (ts c).index ∧ e = .unknownElement c key.text := by
  rw [Tables.write] at h
  cases hfind : keys.find? fun key => ((ts c).position? key).isNone with
  | some key =>
    simp only [hfind] at h
    refine ⟨key, List.mem_of_find?_eq_some hfind, fun hmem => ?_, (Except.error.inj h).symm⟩
    have hunknown := List.find?_some hfind
    rw [Option.isNone_iff_eq_none] at hunknown
    simpa [hunknown] using Table.isSome_position?_iff.mpr hmem
  | none =>
    have hknown : ∀ key ∈ keys, key ∈ (ts c).index := fun key hkey => by
      have := List.find?_eq_none.mp hfind key hkey
      rw [← Table.isSome_position?_iff, Option.isSome_iff_ne_none]
      simpa using this
    have hcolumn : (ts c).hasColumn col.name = true := by
      rw [Table.hasColumn_iff, (hts c).mem_columnNames_iff]
      exact ⟨_, hspec⟩
    simp only [hfind, hcolumn, Bool.not_true, Bool.false_eq_true, if_false,
      Table.setCells_put (hts c) ⟨hspec, hlength, hknown⟩] at h
    cases h

end Tables

namespace Session

open SessionState

variable {s s' : SessionState} {c : Category} {t : Table} {e : SessionError}

/-! ### Columns and tables -/

/-- A column with one value for each row is refused for one of the reasons. -/
theorem refuses_of_writeColumn (hs : s.WellFormed) (ht : t.IsRectangular) {col : Column}
    (hcol : col ∈ t.columns) (h : s.RefusesColumn c t.index col e) :
    c.Refuses (s.tables c) t e := by
  have hname : col.name ∈ t.columnNames := Table.mem_columnNames_iff.mpr ⟨col, hcol, rfl⟩
  have hcode := hs.typeCode?_eq c col.name
  cases h with
  | undeclared hreported =>
    rw [hreported, eq_comm, Option.map_eq_none_iff] at hcode
    exact .unknownColumn hname hcode
  | unsupported hreported hout =>
    rw [hreported, eq_comm] at hcode
    obtain ⟨spec, -, rfl⟩ := Option.map_eq_some_iff.mp hcode
    rw [← CellType.ofCode?_eq_none_iff, ofCode?_code] at hout
    cases hout
  | mismatch hreported hne =>
    rw [hreported, eq_comm] at hcode
    obtain ⟨spec, hspec, heq⟩ := Option.map_eq_some_iff.mp hcode
    obtain rfl := CellType.code_injective heq
    exact .typeMismatch (List.mem_map_of_mem hcol) hspec hne
  | store hreported hwrite =>
    rw [hreported, eq_comm] at hcode
    obtain ⟨spec, hspec, heq⟩ := Option.map_eq_some_iff.mp hcode
    have htype := CellType.code_injective heq
    have hrun := write_run hs c col.name t.index col.batch
    rw [onNetwork_run, hwrite] at hrun
    cases hcells : c.cellsFor col.name t.index col.batch with
    | error cause =>
      simp only [hcells] at hrun
      cases hrun
      obtain ⟨hclosed, rfl⟩ := Category.cellsFor_eq_error hspec htype (ht col hcol).symm hcells
      exact .readOnlyColumn hname hclosed
    | ok cells =>
      obtain ⟨rfl, hlength⟩ := cellsFor_eq_ok hspec htype hcells
      obtain rfl : col.cells = cells := by
        simpa [Category.cellsFor, hspec, col.cells?_batch, col.size_batch, hlength] using hcells
      cases htables : s.tables.write c col.name t.index col.cells with
      | ok ts =>
        simp only [hcells, htables] at hrun
        cases hrun
      | error cause =>
        simp only [hcells, htables] at hrun
        cases hrun
        obtain ⟨key, hkey, hunknown, rfl⟩ := Tables.write_eq_error hs.tables hspec hlength htables
        exact .unknownElement hkey hunknown

/-- What is written of a table leaves the rows as they are. -/
theorem index_of_writeTable (hs : s.WellFormed) (h : writeTable c t s = .ok () s') :
    (s'.tables c).index = (s.tables c).index := by
  by_cases hall : ∀ col ∈ t.columns, c.Accepts (s.tables c) t.index col
  · rw [writeTable_of_accepts hs hall] at h
    cases h
    rw [tables_setTables hs, Tables.set_self]
    exact (Table.sameShape_putAll (hs.tables c) hall).index
  · obtain ⟨e, he⟩ := writeTable_of_not_accepts hs hall
    cases he.symm.trans h

/-- A table is handed over up to a column that is refused for one of the reasons. -/
theorem refuses_of_writeTable (hs : s.WellFormed) (ht : t.IsRectangular)
    (h : writeTable c t s = .error e s') : c.Refuses (s.tables c) t e := by
  obtain ⟨j, hstops⟩ := writeTable_stopsAt h
  obtain ⟨col, hcol, -, hrefused⟩ := hstops.refused
  have hs' : s'.WellFormed := by
    have hevolves := relates_writeTable c ⟨t.index, t.columns.take j⟩ s
    rw [stateAfter_ok hstops.written] at hevolves
    exact hevolves.wellFormed hs
  have hrefuses := refuses_of_writeColumn hs' ht (List.mem_of_getElem? hcol) hrefused
  exact hrefuses.congr (index_of_writeTable hs hstops.written) rfl fun _ => id

/-! ### Readings and writings -/

/-- A reading succeeds, in per-unit or not. -/
theorem elements_succeeds (hs : s.WellFormed) (c : Category) :
    ∃ u s', elements c s = .ok u s' := by
  cases hon : s.session.perUnit.enabled with
  | true =>
    obtain ⟨report, hrun⟩ := elements_run hs hon c
    exact ⟨_, _, hrun⟩
  | false => exact ⟨_, _, elements_off hs hon c⟩

/-- A writing that fails is refused for one of the reasons. -/
theorem refuses_of_update (hs : s.WellFormed) (ht : t.IsRectangular)
    (h : update c t s = .error e s') : c.Refuses (s.tables c) t e := by
  cases hon : s.session.perUnit.enabled with
  | false =>
    rw [update_off hon] at h
    have hrefuses := refuses_of_writeTable (wellFormed_withoutDiagnostics hs) ht h
    exact hrefuses
  | true =>
    obtain ⟨report, hphysical⟩ := exists_toPhysical hs c ht
    rw [update_of_physical hon hphysical] at h
    cases hwrite : writeTable c (s.written c t) s with
    | ok a s'' => cases (run_bind_of_ok hwrite).symm.trans h
    | error cause s'' =>
      obtain ⟨rfl, rfl⟩ := EStateM.Result.error.inj ((run_bind_of_error hwrite).symm.trans h)
      have hrefuses := refuses_of_writeTable hs ((isRectangular_physical ht).rowsWhere _) hwrite
      exact hrefuses.congr rfl (signature_written s c t) fun _ => mem_index_of_written

/-- Every reading of a reachable session succeeds, and every writing of a table whose columns are
as long as its index succeeds or is refused for one of the four reasons. -/
theorem fails_only_on_refused (hs : s.Reachable) (c : Category) :
    (∃ u s', elements c s = .ok u s') ∧
      ∀ t : Table, t.IsRectangular → (∃ s', update c t s = .ok () s') ∨
        ∃ e s', update c t s = .error e s' ∧ c.Refuses (s.tables c) t e := by
  have hwf := hs.wellFormed
  refine ⟨elements_succeeds hwf c, fun t ht => ?_⟩
  cases hrun : update c t s with
  | ok a s' => exact .inl ⟨s', rfl⟩
  | error e s' => exact .inr ⟨e, s', rfl, refuses_of_update hwf ht hrun⟩

/-- A table with an element that is not stored is refused, and the generators can still be read. -/
theorem fails_only_on_refused_strayTargets :
    (∃ u s', elements .generator (twoGenerators (some 400.0)) = .ok u s') ∧
      ∃ e s', update .generator .strayTargets (twoGenerators (some 400.0)) = .error e s' ∧
        Category.Refuses .generator ((twoGenerators (some 400.0)).tables .generator)
          .strayTargets e := by
  obtain ⟨hread, hwrite⟩ := fails_only_on_refused (reachable_twoGenerators (some 400.0)) .generator
  rcases hwrite .strayTargets (by decide) with ⟨s', hok⟩ | hrefused
  · have hfails :
        succeeds (update .generator .strayTargets) (twoGenerators (some 400.0)) = false := by
      decide +kernel
    rw [succeeds, hok] at hfails
    cases hfails
  · exact ⟨hread, hrefused⟩

end Session

end PowerTables
