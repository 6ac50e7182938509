import PowerTables.Proofs.Session.Refinement

/-!
# What a writing in physical units does

A writing in physical units succeeds where all columns are declared and open to writes and all
elements are known.  The rows of a table that is written may repeat a key: the last one counts.
Its cells are stored as they are, and no other cell, table, variant or network is touched.

## Main definitions

* `Table.Takes` : a stored table after it took over the rows of another one.
* `SessionState.SameBut` : what stays when one table of the working variant is changed.

## Main results

* `Table.Takes.eq` : taking rows over leaves no choice.
* `Table.takes_putAll` : the columns of a table, put into a stored one.
* `SessionState.sameBut_setTables` : a change of one table leaves everything else alone.
* `Session.update_plain_takes` : when a writing succeeds, and what it does then.
-/

namespace PowerTables

/-! ### Rows that are taken over -/

namespace Table

/-- A stored table after it took over the rows of another one: in the columns of that table, the
cells of the last row of each key, of the declared types, and elsewhere its own. -/
structure Takes (c : Category) (stored t taken : Table) : Prop where
  shape : SameShape stored taken
  given : ∀ (p : Nat) (key : RowKey) (name : String), stored.index[p]? = some key →
    key ∈ t.index → name ∈ t.columnNames → ∃ (q : Nat) (cell : Cell), t.IsLastRow key q ∧
      t.cellAt? q name = some cell ∧ c.column? name = some ⟨name, cell.type, true⟩ ∧
      taken.cellAt? p name = some cell
  kept : ∀ (p : Nat) (key : RowKey) (name : String), stored.index[p]? = some key →
    key ∉ t.index ∨ name ∉ t.columnNames → taken.cellAt? p name = stored.cellAt? p name

variable {c : Category} {stored t : Table} {p : Nat} {key : RowKey}

theorem IsRectangular.cellAt?_eq_none (ht : t.IsRectangular) (hp : t.index[p]? = none)
    (name : String) : t.cellAt? p name = none := by
  cases hcol : t.column? name with
  | none => rw [cellAt?, hcol, Option.bind_none]
  | some col =>
    rw [cellAt?_of_column? hcol, Column.cell?_eq_none_iff, ht col (mem_of_column? hcol).1]
    exact List.getElem?_eq_none_iff.mp hp

/-- There is one way only to take the rows of a table over. -/
theorem Takes.eq (hstored : stored.Fits c) {u v : Table} (hu : Takes c stored t u)
    (hv : Takes c stored t v) : u = v := by
  have hnames : u.columnNames.Nodup := hu.shape.columnNames ▸ hstored.nodup_columnNames
  refine ext_cellAt (hu.shape.index.trans hv.shape.index.symm)
    (hu.shape.signature.trans hv.shape.signature.symm) hnames fun p name _ => ?_
  cases hp : stored.index[p]? with
  | none =>
    have hnone {w : Table} (hw : Takes c stored t w) : w.cellAt? p name = none :=
      (hw.shape.isRectangular hstored.rectangular).cellAt?_eq_none (hw.shape.index ▸ hp) name
    rw [hnone hu, hnone hv]
  | some key =>
    by_cases hin : key ∈ t.index ∧ name ∈ t.columnNames
    · obtain ⟨q, cell, hq, hcell, -, hgiven⟩ := hu.given p key name hp hin.1 hin.2
      obtain ⟨r, cell', hr, hcell', -, hgiven'⟩ := hv.given p key name hp hin.1 hin.2
      obtain rfl := hq.eq hr
      rw [hgiven, hgiven', ← hcell, hcell']
    · rw [hu.kept p key name hp (not_and_or.mp hin), hv.kept p key name hp (not_and_or.mp hin)]

/-- The last cell that a column gives to a row is the one in the last row of its key. -/
theorem lastFor?_zip_iff_isLastRow (hkeys : stored.index.Nodup)
    (hp : stored.index[p]? = some key) {col : Column} (hlength : col.length = t.size)
    {cell : Cell} : stored.lastFor? (t.index.zip col.cells) p = some cell ↔
      ∃ q, t.IsLastRow key q ∧ col.cell? q = some cell := by
  have hposition := position?_of_nodup hkeys hp
  rw [lastFor?_zip_eq_some_iff]
  simp only [Column.getElem?_cells]
  constructor
  · rintro ⟨q, key', hq, hcell, hp', hlast⟩
    obtain rfl : key = key' := eq_of_position? hposition hp'
    refine ⟨q, ⟨hq, fun r hr hkey => ?_⟩, hcell⟩
    obtain ⟨cell', hcell'⟩ : ∃ cell', col.cell? r = some cell' := by
      rw [← Option.ne_none_iff_exists', ne_eq, Column.cell?_eq_none_iff, hlength, Nat.not_le]
      exact (List.getElem?_eq_some_iff.mp hkey).1
    exact hlast r key cell' hr hkey hcell' hposition
  · rintro ⟨q, ⟨hq, hlast⟩, hcell⟩
    refine ⟨q, key, hq, hcell, hposition, fun r key' cell' hr hkey' _ hp' => ?_⟩
    obtain rfl : key = key' := eq_of_position? hposition hp'
    exact hlast r hr hkey'

/-- All columns of a table are accepted if they are declared and open to writes and, where there
are any, the elements are known. -/
theorem forall_accepts_iff (ht : t.IsRectangular) :
    (∀ col ∈ t.columns, c.Accepts stored t.index col) ↔
      (∀ col ∈ t.columns, c.column? col.name = some ⟨col.name, col.type, true⟩) ∧
        (t.columns ≠ [] → ∀ key ∈ t.index, key ∈ stored.index) := by
  constructor
  · refine fun hall => ⟨fun col hcol => (hall col hcol).1, fun hcolumns => ?_⟩
    obtain ⟨col, hcol⟩ := List.exists_mem_of_ne_nil _ hcolumns
    exact (hall col hcol).2.2
  · rintro ⟨hopen, hknown⟩ col hcol
    exact ⟨hopen col hcol, (ht col hcol).symm, hknown (List.ne_nil_of_mem hcol)⟩

/-- Putting the columns of a table into a stored one takes its rows over. -/
theorem takes_putAll (hstored : stored.Fits c) (hkeys : stored.index.Nodup)
    (ht : t.IsRectangular) (hnames : t.columnNames.Nodup)
    (hall : ∀ col ∈ t.columns, c.Accepts stored t.index col) :
    Takes c stored t (stored.putAll t.index t.columns) := by
  refine ⟨sameShape_putAll hstored hall, fun p key name hp hkey hname => ?_,
    fun p key name hp hout => ?_⟩
  · obtain ⟨col, hcol, rfl⟩ := mem_columnNames_iff.mp hname
    have hposition := position?_of_nodup hkeys hp
    -- the key is among those written, so the column has a last cell for its row
    obtain ⟨cell, hcell⟩ :
        ∃ cell, stored.lastFor? (t.index.zip col.cells) p = some cell := by
      rw [← Option.ne_none_iff_exists', ne_eq,
        lastFor?_zip_eq_none_iff (by rw [Column.length_cells, ht col hcol, size])]
      exact fun hnone => hnone key hkey hposition
    obtain ⟨q, hlast, hq⟩ := (lastFor?_zip_iff_isLastRow hkeys hp (ht col hcol)).mp hcell
    refine ⟨q, cell, hlast, ?_, ?_, ?_⟩
    · rw [cellAt?_of_column? (column?_of_mem hnames hcol), hq]
    · rw [(hall col hcol).1, Column.type_of_cell? hq]
    · rw [cellAt?_putAll hstored hall, lastWritten?_of_mem stored t.index hnames hcol, hcell,
        Option.some_or]
  · have hcell := cell?_putAll_of_notMem hstored hall hout
    have hposition := position?_of_nodup hkeys hp
    rwa [cell?_eq_bind, cell?_eq_bind, (sameShape_putAll hstored hall).position?, hposition,
      Option.bind_some, Option.bind_some] at hcell

end Table

/-! ### What stays -/

/-- A session whose network is the same but for the table of a category in the working variant,
in a store that is otherwise the same. -/
structure SessionState.SameBut (c : Category) (s s' : SessionState) : Prop where
  handle : s'.session.handle = s.session.handle
  network : ∃ n m, s.store.network? s.session.handle = some n ∧
    s'.store.network? s.session.handle = some m ∧ n.SameBut c m
  others : ∀ other ≠ s.session.handle, s'.store.network? other = s.store.network? other
  next : s'.store.next = s.store.next
  reporting : s'.store.reporting = s.store.reporting

theorem SessionState.sameBut_setTables {s s' : SessionState} (hs : s.WellFormed) {c : Category}
    {t : Table} (hhandle : s'.session.handle = s.session.handle)
    (hstore : s'.store = (s.setTables (s.tables.set c t)).store) : s.SameBut c s' := by
  obtain ⟨n, hn, -, hts⟩ := hs.exists_network
  rw [setTables_of_network hn] at hstore
  refine ⟨hhandle, ⟨n, n.setTables n.working (s.tables.set c t), hn, ?_,
    Network.sameBut_setTables hts c t⟩, fun other hother => ?_, ?_, ?_⟩
  · rw [hstore, Store.network?_setNetwork_self hn]
  · rw [hstore, Store.network?_setNetwork_of_ne s.store hother]
  · rw [hstore]
    rfl
  · rw [hstore]
    rfl

/-! ### The writing -/

/-- Target voltages and regulation of two generators, of which the first one has two rows. -/
def Table.repeatedTargets : Table :=
  ⟨[.plain "G1", .plain "G2", .plain "G1"],
    [⟨"target_v", .double, [(380.0 : Float), (390.0 : Float), (400.0 : Float)]⟩,
      ⟨"voltage_regulator_on", .boolean, [false, false, true]⟩]⟩

namespace Session

open SessionState

variable {s : SessionState} {c : Category} {t : Table}

/-- A writing in physical units succeeds exactly where all columns are accepted. -/
theorem update_plain_succeeds_iff (hs : s.WellFormed)
    (hoff : s.session.perUnit.enabled = false) :
    (∃ s', update c t s = .ok () s') ↔
      ∀ col ∈ t.columns, c.Accepts (s.tables c) t.index col := by
  constructor
  · rintro ⟨s', hrun⟩
    by_contra hall
    obtain ⟨e, herror⟩ := writeTable_of_not_accepts (wellFormed_withoutDiagnostics hs) hall
    rw [update_off hoff, herror] at hrun
    cases hrun
  · intro hall
    obtain ⟨s', hrun, -⟩ := update_plain hs hoff hall
    exact ⟨s', hrun⟩

/-- A writing in physical units succeeds exactly if all columns are declared with their types and
open to writes and, where there are any, all elements are known.  It then takes the rows of the
table over, and leaves everything else alone. -/
theorem update_plain_takes (hs : s.Reachable) (hkeys : (s.tables c).index.Nodup)
    (hoff : s.session.perUnit.enabled = false) (ht : t.IsRectangular)
    (hnames : t.columnNames.Nodup) :
    ((∃ s', update c t s = .ok () s') ↔
      (∀ col ∈ t.columns, c.column? col.name = some ⟨col.name, col.type, true⟩) ∧
        (t.columns ≠ [] → ∀ key ∈ t.index, key ∈ (s.tables c).index)) ∧
    ∀ s', update c t s = .ok () s' →
      Table.Takes c (s.tables c) t (s'.tables c) ∧ s.SameBut c s' := by
  have hwf := hs.wellFormed
  refine ⟨(update_plain_succeeds_iff hwf hoff).trans (Table.forall_accepts_iff ht),
    fun s' hrun => ?_⟩
  have hall := (update_plain_succeeds_iff hwf hoff).mp ⟨s', hrun⟩
  obtain ⟨u, hu, hstore⟩ := update_plain hwf hoff hall
  rw [hrun] at hu
  cases hu
  have hhandle : s'.session.handle = s.session.handle := by
    rw [← stateAfter_ok hrun]
    exact (relates_update c t s).handle
  have htables := tables_of_store hwf hhandle hstore
  refine ⟨?_, sameBut_setTables hwf hhandle hstore⟩
  rw [htables, Tables.set_self]
  exact Table.takes_putAll (hwf.tables c) hkeys ht hnames hall

theorem update_repeatedTargets : ∃ s',
    update .generator .repeatedTargets
        ((Operation.setPerUnit false).after (twoGenerators (some 400.0))) = .ok () s' ∧
      Table.Takes .generator
        (((Operation.setPerUnit false).after (twoGenerators (some 400.0))).tables .generator)
        .repeatedTargets (s'.tables .generator) ∧
      ((Operation.setPerUnit false).after (twoGenerators (some 400.0))).SameBut .generator s' := by
  have h := update_plain_takes (c := .generator) (t := .repeatedTargets)
    (.after (Operation.setPerUnit false) (reachable_twoGenerators (some 400.0)))
    (by decide +kernel) rfl (by decide) (by decide)
  obtain ⟨s', hrun⟩ := h.1.mpr ⟨by decide, fun _ => by decide +kernel⟩
  exact ⟨s', hrun, h.2 s' hrun⟩

end Session

end PowerTables
