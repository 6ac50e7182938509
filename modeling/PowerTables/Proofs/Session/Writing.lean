import Mathlib.Data.List.TakeWhile
import PowerTables.Proofs.Session.Reachable

/-!
# Writing a table

The state of a session is told by the tables of the working variant: what a session reads and
writes are these, and everything else in the store stays.  A table is written column by column
up to the first one that is refused, and a column is accepted if the category declares it with
its type and open to writes, it has a value for every key, and every key is known.  The outcome
of a writing is given by the columns that are accepted, put into the stored table in order.

## Main definitions

* `SessionState.tables`, `SessionState.setTables` : the tables of the working variant.
* `Category.Accepts` : a column can be written to the rows of some keys.
* `Table.put`, `Table.putAll` : a table after a column, or several, were written into it.

## Main results

* `Session.storedTable_run`, `Session.writeColumns_run` : reading and writing in closed form.
* `Table.cellAt?_putAll` : the cells of a table after a writing.
-/

namespace PowerTables

/-! ### The tables of the working variant -/

namespace SessionState

variable {s : SessionState}

/-- The tables of the working variant. -/
def tables (s : SessionState) : Tables :=
  ((s.store.network? s.session.handle).bind Network.tables?).getD .empty

/-- The same state with other tables in the working variant. -/
def setTables (s : SessionState) (ts : Tables) : SessionState :=
  match s.store.network? s.session.handle with
  | some n => { s with store := s.store.setNetwork s.session.handle (n.setTables n.working ts) }
  | none => s

theorem WellFormed.exists_network (hs : s.WellFormed) :
    ∃ n, s.store.network? s.session.handle = some n ∧ n.WellFormed ∧
      n.tables? = some s.tables := by
  obtain ⟨n, hn⟩ := Option.isSome_iff_exists.mp hs.network
  have hwf := hs.store.network hn
  obtain ⟨ts, hts, -⟩ := hwf.exists_tables?
  exact ⟨n, hn, hwf, by rw [tables, hn, Option.bind_some, hts, Option.getD_some]⟩

theorem WellFormed.tables (hs : s.WellFormed) : s.tables.WellFormed := by
  obtain ⟨n, -, hwf, hts⟩ := hs.exists_network
  exact hwf.of_tables (Network.tables_eq_ok.mpr hts)

theorem setTables_of_network {n : Network} (hn : s.store.network? s.session.handle = some n)
    (ts : Tables) : s.setTables ts =
      { s with store := s.store.setNetwork s.session.handle (n.setTables n.working ts) } := by
  rw [setTables, hn]

@[simp] theorem session_setTables (s : SessionState) (ts : Tables) :
    (s.setTables ts).session = s.session := by
  rw [setTables]
  split <;> rfl

theorem tables_setTables (hs : s.WellFormed) (ts : Tables) : (s.setTables ts).tables = ts := by
  obtain ⟨n, hn, hwf, -⟩ := hs.exists_network
  rw [setTables_of_network hn, SessionState.tables, Store.network?_setNetwork, if_pos rfl, hn]
  simp [Network.tables?_setTables hwf.working]

theorem tables_of_store (hs : s.WellFormed) {s' : SessionState} {ts : Tables}
    (hhandle : s'.session.handle = s.session.handle) (hstore : s'.store = (s.setTables ts).store) :
    s'.tables = ts := by
  have htables := tables_setTables hs ts
  rw [SessionState.tables, session_setTables] at htables
  rw [SessionState.tables, hhandle, hstore, htables]

theorem setNetwork_setNetwork (store : Store) (handle : Nat) (n m : Network) :
    (store.setNetwork handle n).setNetwork handle m = store.setNetwork handle m := by
  rw [Store.setNetwork, Store.setNetwork, Store.setNetwork, List.map_map]
  congr 1
  refine List.map_congr_left fun e _ => ?_
  by_cases he : e.1 = handle
  · simp [he]
  · simp [he]

theorem setTables_setTables (s : SessionState) (ts us : Tables) :
    (s.setTables ts).setTables us = s.setTables us := by
  cases hn : s.store.network? s.session.handle with
  | none =>
    have hsame : s.setTables ts = s := by rw [setTables, hn]
    rw [hsame]
  | some n =>
    have hn' : (s.setTables ts).store.network? (s.setTables ts).session.handle =
        some (n.setTables n.working ts) := by
      rw [session_setTables, setTables_of_network hn, Store.network?_setNetwork, if_pos rfl, hn]
      rfl
    rw [setTables_of_network hn', session_setTables, setTables_of_network hn,
      setTables_of_network hn, setNetwork_setNetwork]
    exact congrArg (fun m => { s with store := s.store.setNetwork s.session.handle m })
      (Network.setTables_setTables n n.working ts us)

theorem setTables_tables (hs : s.WellFormed) : s.setTables s.tables = s := by
  obtain ⟨n, hn, hwf, hts⟩ := hs.exists_network
  rw [setTables_of_network hn, Network.setTables_tables? hts, hs.store.setNetwork_self hn]

theorem WellFormed.setTables (hs : s.WellFormed) {ts : Tables} (hts : ts.WellFormed) :
    (s.setTables ts).WellFormed := by
  obtain ⟨n, hn, hwf, -⟩ := hs.exists_network
  rw [setTables_of_network hn]
  have hevolves := Store.evolves_setNetwork (s := s.store) s.session.handle
    fun _ => hwf.setTables hts n.working
  exact ⟨hevolves.wellFormed hs.store, hevolves.network? _ hs.network⟩

/-- The code that is reported for a column is that of its declared type. -/
theorem WellFormed.typeCode?_eq (hs : s.WellFormed) (c : Category) (name : String) :
    s.store.reporting.typeCode? c name = (c.column? name).map (·.type.code) := by
  rw [hs.store.reporting]
  rfl

end SessionState

namespace Session

variable {s : SessionState}

theorem visible_eq (c : Category) (t : Table) : Reporting.visible {} c t = t := rfl

theorem onNetwork_run {α : Type} (op : Nat → StoreM α) (s : SessionState) :
    onNetwork op s = match op s.session.handle s.store with
      | .ok a store => .ok a { s with store := store }
      | .error e store => .error (.network e) { s with store := store } := rfl

theorem storedTable_run (hs : s.WellFormed) (c : Category) :
    storedTable c s = .ok (s.tables c) s := by
  obtain ⟨n, hn, -, hts⟩ := hs.exists_network
  have hget := Store.get_eq s.session.handle s.store
  rw [hn] at hget
  have htable : Store.table s.session.handle c s.store = .ok (s.tables c) s.store := by
    rw [Store.table, run_bind_of_ok hget, Network.tables_eq_ok.mpr hts]
    change EStateM.Result.ok (s.store.reporting.visible c (s.tables c)) s.store = _
    rw [hs.store.reporting, visible_eq]
  rw [storedTable, onNetwork_run, htable]

/-- A change of the tables of the working variant. -/
theorem updateTables_run (hs : s.WellFormed) (f : Tables → Except NetworkError Tables) :
    onNetwork (fun h => Store.update h fun n => n.updateTables f) s = match f s.tables with
      | .ok ts => .ok () (s.setTables ts)
      | .error e => .error (.network e) s := by
  obtain ⟨n, hn, -, hts⟩ := hs.exists_network
  have hrun : n.updateTables f = (f s.tables).map (n.setTables n.working) := by
    rw [Network.updateTables, Network.tables_eq_ok.mpr hts]
    change (f s.tables >>= fun us => pure (n.setTables n.working us)) = _
    cases f s.tables <;> rfl
  rw [onNetwork_run, Store.update_eq, hn]
  simp only [hrun]
  cases f s.tables with
  | error e => rfl
  | ok ts => exact congrArg (EStateM.Result.ok ()) (SessionState.setTables_of_network hn ts).symm

end Session

/-! ### Columns that are accepted -/

/-- A column can be written to the rows of some keys: it is declared with its type and open to
writes, there is a value for every key, and every key is known. -/
def Category.Accepts (c : Category) (t : Table) (keys : List RowKey) (col : Column) : Prop :=
  c.column? col.name = some ⟨col.name, col.type, true⟩ ∧ keys.length = col.length ∧
    ∀ key ∈ keys, key ∈ t.index

instance (c : Category) (t : Table) (keys : List RowKey) (col : Column) :
    Decidable (c.Accepts t keys col) :=
  inferInstanceAs (Decidable (_ ∧ _ ∧ _))

/-- Columns that are accepted have names and types that are open to writes. -/
theorem Category.column?_of_accepts {c : Category} {stored t u : Table} {keys : List RowKey}
    (hsignature : u.signature = t.signature)
    (hall : ∀ col ∈ u.columns, c.Accepts stored keys col) :
    ∀ col ∈ t.columns, c.column? col.name = some ⟨col.name, col.type, true⟩ := by
  intro col hcol
  have hentry : (col.name, col.type) ∈ u.signature := hsignature ▸ List.mem_map_of_mem hcol
  obtain ⟨col', hcol', heq⟩ := List.mem_map.mp hentry
  obtain ⟨hname, htype⟩ := Prod.mk.inj heq
  rw [← hname, ← htype]
  exact (hall col' hcol').1

theorem ofTruth_ne_zero (b : Bool) : (ofTruth b != 0) = b := by
  cases b <;> decide

theorem Column.cells?_batch (col : Column) : col.batch.cells? col.type = some col.cells := by
  obtain ⟨name, type, values⟩ := col
  cases type with
  | string | double | int => rfl
  | boolean =>
    change some ((values.map ofTruth).map fun n => Cell.ofBool (n != 0)) = some (values.map _)
    rw [List.map_map]
    congr 1
    refine List.map_congr_left fun b _ => ?_
    rw [Function.comp_apply, ofTruth_ne_zero]
    rfl

theorem Column.size_batch (col : Column) : col.batch.size = col.length := by
  obtain ⟨name, type, values⟩ := col
  cases type with
  | string | double | int => rfl
  | boolean => exact List.length_map ofTruth

/-- A table after a column was written to the rows of some keys. -/
def Table.put (t : Table) (keys : List RowKey) (col : Column) : Table :=
  match t.setCells col.name (keys.zip col.cells) with
  | .ok u => u
  | .error _ => t

namespace Table

variable {c : Category} {t : Table} {keys : List RowKey} {col : Column}

theorem setCells_put (ht : t.Fits c) (h : c.Accepts t keys col) :
    t.setCells col.name (keys.zip col.cells) = .ok (t.put keys col) := by
  obtain ⟨d, hd, htype, hlength⟩ := ht.exists_column? h.1
  obtain ⟨u, hu⟩ : ∃ u, t.setCells col.name (keys.zip col.cells) = .ok u := by
    refine exists_setCells hd hlength fun (key, cell) he => ?_
    obtain ⟨hkey, hcell⟩ := List.of_mem_zip he
    refine ⟨isSome_position?_iff.mpr (h.2.2 key hkey), ?_⟩
    obtain ⟨value, -, rfl⟩ := List.mem_map.mp hcell
    exact htype.symm
  rw [put, hu]

theorem sameShape_put (ht : t.Fits c) (h : c.Accepts t keys col) :
    SameShape t (t.put keys col) := (cellAt?_setCells (setCells_put ht h)).1

theorem cellAt?_put (ht : t.Fits c) (h : c.Accepts t keys col) (p : Nat) (name : String) :
    (t.put keys col).cellAt? p name =
      if name = col.name then (t.lastFor? (keys.zip col.cells) p).or (t.cellAt? p name)
      else t.cellAt? p name := (cellAt?_setCells (setCells_put ht h)).2 p name

theorem accepts_congr {u : Table} (h : u.index = t.index) :
    c.Accepts u keys col ↔ c.Accepts t keys col := by
  rw [Category.Accepts, Category.Accepts, h]

/-- A table after several columns were written to the rows of some keys, one after another. -/
def putAll (t : Table) (keys : List RowKey) (cols : List Column) : Table :=
  cols.foldl (fun t col => t.put keys col) t

theorem sameShape_putAll (ht : t.Fits c) {cols : List Column}
    (h : ∀ col ∈ cols, c.Accepts t keys col) : SameShape t (t.putAll keys cols) := by
  induction cols generalizing t with
  | nil => exact .refl t
  | cons col cols ih =>
    have hput := sameShape_put ht (h col List.mem_cons_self)
    refine hput.trans (ih (hput.fits ht) fun col' hcol' => ?_)
    exact (accepts_congr hput.index).mpr (h col' (List.mem_cons_of_mem col hcol'))

/-- Writing cells that are there already changes nothing. -/
theorem putAll_eq_self (ht : t.Fits c) {cols : List Column}
    (h : ∀ col ∈ cols, c.Accepts t keys col)
    (hsame : ∀ col ∈ cols, ∀ e ∈ keys.zip col.cells, ∀ p, t.position? e.1 = some p →
      t.cellAt? p col.name = some e.2) : t.putAll keys cols = t := by
  induction cols with
  | nil => rfl
  | cons col cols ih =>
    have hput : t.put keys col = t :=
      setCells_eq_self ht.nodup_columnNames (setCells_put ht (h col List.mem_cons_self))
        (hsame col List.mem_cons_self)
    rw [putAll, List.foldl_cons, hput]
    exact ih (fun col' hcol' => h col' (List.mem_cons_of_mem col hcol'))
      fun col' hcol' => hsame col' (List.mem_cons_of_mem col hcol')

/-- The cell that some columns, written one after another, give to a row. -/
def lastWritten? (t : Table) (keys : List RowKey) (cols : List Column) (p : Nat)
    (name : String) : Option Cell :=
  (cols.reverse.find? (·.name == name)).bind fun col => t.lastFor? (keys.zip col.cells) p

theorem lastFor?_zip_eq_none_iff {cells : List Cell} (h : keys.length = cells.length) {p : Nat} :
    t.lastFor? (keys.zip cells) p = none ↔ ∀ key ∈ keys, t.position? key ≠ some p := by
  constructor
  · intro hnone key hkey hp
    obtain ⟨i, hi, rfl⟩ := List.mem_iff_getElem.mp hkey
    have hmem : (keys[i], cells[i]) ∈ keys.zip cells :=
      List.mem_iff_getElem.mpr ⟨i, by simpa [h] using h ▸ hi, by simp⟩
    obtain ⟨cell, hcell⟩ := exists_lastFor? hmem hp
    rw [hnone] at hcell
    cases hcell
  · intro hkeys
    by_contra hsome
    obtain ⟨cell, hcell⟩ := Option.ne_none_iff_exists'.mp hsome
    obtain ⟨key, hmem, hp⟩ := mem_of_lastFor? hcell
    exact hkeys key (List.of_mem_zip hmem).1 hp

theorem lastWritten?_of_mem (t : Table) (keys : List RowKey) {cols : List Column}
    (hnames : (cols.map (·.name)).Nodup) {col : Column} (hcol : col ∈ cols) (p : Nat) :
    t.lastWritten? keys cols p col.name = t.lastFor? (keys.zip col.cells) p := by
  have hreverse : (cols.reverse.map (·.name)).Nodup := by
    rwa [List.map_reverse, List.nodup_reverse]
  have hfind : cols.reverse.find? (·.name == col.name) = some col :=
    (find?_key_eq_some_iff hreverse).mpr ⟨List.mem_reverse.mpr hcol, rfl⟩
  rw [lastWritten?, hfind, Option.bind_some]

theorem lastWritten?_append_singleton (t : Table) (keys : List RowKey) (cols : List Column)
    (col : Column) (p : Nat) (name : String) :
    t.lastWritten? keys (cols ++ [col]) p name =
      if name = col.name then t.lastFor? (keys.zip col.cells) p
      else t.lastWritten? keys cols p name := by
  rw [lastWritten?, List.reverse_append, List.reverse_singleton, List.singleton_append]
  by_cases hname : name = col.name
  · rw [if_pos hname, List.find?_cons_of_pos (by simp [hname]), Option.bind_some]
  · rw [if_neg hname, List.find?_cons_of_neg (by simpa using Ne.symm hname), lastWritten?]

/-- The cells of a table after a writing: each row has the last cell that was given for it in
the last column of the name, and all others are as before. -/
theorem cellAt?_putAll (ht : t.Fits c) {cols : List Column}
    (h : ∀ col ∈ cols, c.Accepts t keys col) (p : Nat) (name : String) :
    (t.putAll keys cols).cellAt? p name =
      (t.lastWritten? keys cols p name).or (t.cellAt? p name) := by
  induction cols using List.reverseRecOn with
  | nil => rfl
  | append_singleton cols col ih =>
    have hcols : ∀ col' ∈ cols, c.Accepts t keys col' := fun col' hcol' =>
      h col' (List.mem_append_left _ hcol')
    have hcol : c.Accepts t keys col := h col (by simp)
    have hshape := sameShape_putAll ht hcols
    have hlast := (accepts_congr hshape.index).mpr hcol
    have hput : t.putAll keys (cols ++ [col]) = (t.putAll keys cols).put keys col := by
      rw [putAll, List.foldl_append]
      rfl
    rw [hput, cellAt?_put (hshape.fits ht) hlast, lastFor?_congr hshape, ih hcols,
      lastWritten?_append_singleton]
    by_cases hname : name = col.name
    · rw [if_pos hname, if_pos hname]
      cases hrow : t.lastFor? (keys.zip col.cells) p with
      | some cell => rfl
      | none =>
        -- no key leads to this row, so no column before has a cell for it either
        have hkeys := (lastFor?_zip_eq_none_iff (by simp [hcol.2.1])).mp hrow
        rw [Option.none_or, Option.none_or, lastWritten?]
        cases hfind : cols.reverse.find? (·.name == name) with
        | none => rfl
        | some col' =>
          have hcol' := hcols col' (List.mem_reverse.mp (List.mem_of_find?_eq_some hfind))
          rw [Option.bind_some, (lastFor?_zip_eq_none_iff (by simp [hcol'.2.1])).mpr hkeys,
            Option.none_or]
    · rw [if_neg hname, if_neg hname]

end Table

namespace Session

variable {s : SessionState}

theorem ofCode?_code (type : CellType) : CellType.ofCode? type.code = some type := by
  cases type <;> decide

theorem typeCode_run (hs : s.WellFormed) (c : Category) (name : String) :
    onStore (Store.typeCode c name) s = match c.column? name with
      | some spec => .ok spec.type.code s
      | none => .error (.network (.unknownColumn c name)) s := by
  rw [onStore, Store.typeCode_eq, hs.typeCode?_eq]
  cases c.column? name <;> rfl

theorem write_run (hs : s.WellFormed) (c : Category) (column : String) (keys : List RowKey)
    (batch : Batch) :
    onNetwork (fun h => Store.write h c column keys batch) s =
      match c.cellsFor column keys batch with
      | .error e => .error (.network e) s
      | .ok cells => match s.tables.write c column keys cells with
        | .error e => .error (.network e) s
        | .ok ts => .ok () (s.setTables ts) := by
  cases hcells : c.cellsFor column keys batch with
  | error e =>
    have hrun : Store.write s.session.handle c column keys batch s.store = .error e s.store := by
      rw [Store.write, hcells]
      rfl
    rw [onNetwork_run, hrun]
  | ok cells =>
    have hrun : onNetwork (fun h => Store.write h c column keys batch) s =
        onNetwork (fun h => Store.update h fun n => n.updateTables fun ts =>
          ts.write c column keys cells) s := by
      have hwrite : Store.write s.session.handle c column keys batch =
          Store.update s.session.handle fun n => n.updateTables fun ts =>
            ts.write c column keys cells := by
        rw [Store.write, hcells]
        rfl
      rw [onNetwork_run, onNetwork_run, hwrite]
    rw [hrun, updateTables_run hs]
    dsimp only
    cases s.tables.write c column keys cells <;> rfl

/-- The values of a declared column reach the store. -/
theorem writeColumn_run (hs : s.WellFormed) {c : Category} {col : Column} {spec : ColumnSpec}
    (hspec : c.column? col.name = some spec) (htype : spec.type = col.type) (keys : List RowKey) :
    writeColumn c keys col s = onNetwork (fun h => Store.write h c col.name keys col.batch) s := by
  have hcode := typeCode_run hs c col.name
  rw [hspec] at hcode
  rw [writeColumn, run_bind_of_ok hcode]
  simp only [ofCode?_code, htype, if_true]

/-- A column that is accepted is put into the stored table. -/
theorem writeColumn_of_accepts (hs : s.WellFormed) {c : Category} {keys : List RowKey}
    {col : Column} (h : c.Accepts (s.tables c) keys col) :
    writeColumn c keys col s =
      .ok () (s.setTables (s.tables.set c ((s.tables c).put keys col))) := by
  obtain ⟨hspec, hlength, hkeys⟩ := h
  have hcells : c.cellsFor col.name keys col.batch = .ok col.cells := by
    rw [Category.cellsFor, hspec]
    simp [col.cells?_batch, col.size_batch, hlength]
  have hwrite : s.tables.write c col.name keys col.cells =
      .ok (s.tables.set c ((s.tables c).put keys col)) := by
    have hknown : keys.find? (fun key => ((s.tables c).position? key).isNone) = none := by
      refine List.find?_eq_none.mpr fun key hkey => ?_
      have := Table.isSome_position?_iff.mpr (hkeys key hkey)
      simp [Option.isNone_iff_eq_none, ← Option.isSome_iff_ne_none, this]
    have hcolumn : (s.tables c).hasColumn col.name = true := by
      rw [Table.hasColumn_iff, (hs.tables c).mem_columnNames_iff]
      exact ⟨_, hspec⟩
    rw [Tables.write, hknown]
    simp only [hcolumn, Bool.not_true, Bool.false_eq_true, if_false,
      Table.setCells_put (hs.tables c) ⟨hspec, hlength, hkeys⟩]
  rw [writeColumn_run hs hspec rfl, write_run hs, hcells]
  simp only [hwrite]

theorem cellsFor_eq_ok {c : Category} {col : Column} {spec : ColumnSpec} {keys : List RowKey}
    {cells : List Cell} (hspec : c.column? col.name = some spec) (htype : spec.type = col.type)
    (h : c.cellsFor col.name keys col.batch = .ok cells) :
    spec = ⟨col.name, col.type, true⟩ ∧ keys.length = col.length := by
  obtain ⟨type, hdeclared, -, hlength⟩ := Category.column?_of_cellsFor h
  cases hspec.symm.trans hdeclared
  obtain rfl : type = col.type := htype
  exact ⟨rfl, hlength.trans col.size_batch⟩

/-- A column that is not accepted is refused, and nothing is changed. -/
theorem writeColumn_of_not_accepts (hs : s.WellFormed) {c : Category} {keys : List RowKey}
    {col : Column} (h : ¬c.Accepts (s.tables c) keys col) :
    ∃ e, writeColumn c keys col s = .error e s := by
  have hcode := typeCode_run hs c col.name
  cases hspec : c.column? col.name with
  | none =>
    rw [hspec] at hcode
    exact ⟨_, run_bind_of_error hcode⟩
  | some spec =>
    rw [hspec] at hcode
    by_cases htype : spec.type = col.type
    · rw [writeColumn_run hs hspec htype, write_run hs]
      cases hcells : c.cellsFor col.name keys col.batch with
      | error e => exact ⟨_, rfl⟩
      | ok cells =>
        -- only a key can be the reason for the refusal
        obtain ⟨rfl, hlength⟩ := cellsFor_eq_ok hspec htype hcells
        obtain ⟨key, hkey, hunknown⟩ : ∃ key ∈ keys, key ∉ (s.tables c).index := by
          by_contra hknown
          push Not at hknown
          exact h ⟨hspec, hlength, hknown⟩
        obtain ⟨key', hkey'⟩ : ∃ key', keys.find? (fun key =>
            ((s.tables c).position? key).isNone) = some key' := by
          rw [← Option.isSome_iff_exists, List.find?_isSome]
          refine ⟨key, hkey, ?_⟩
          rw [← Table.isSome_position?_iff] at hunknown
          simpa using hunknown
        refine ⟨.network (.unknownElement c key'.text), ?_⟩
        simp only [Tables.write, hkey']
    · refine ⟨.typeMismatch c col.name spec.type col.type, ?_⟩
      rw [writeColumn, run_bind_of_ok hcode]
      simp only [ofCode?_code, htype, if_false]
      rfl

/-- The columns of a table up to the first one that is refused. -/
def accepted (c : Category) (stored t : Table) : List Column :=
  t.columns.takeWhile fun col => c.Accepts stored t.index col

theorem accepts_of_mem_accepted {c : Category} {stored t : Table} {col : Column}
    (h : col ∈ accepted c stored t) : c.Accepts stored t.index col := by
  simpa using List.mem_takeWhile_imp h

/-- Columns that are all accepted are put into the stored table; otherwise those before the
first one that is refused. -/
theorem writeColumns_run (hs : s.WellFormed) (c : Category) (keys : List RowKey)
    (cols : List Column) :
    if ∀ col ∈ cols, c.Accepts (s.tables c) keys col then
      cols.forM (writeColumn c keys) s =
        .ok () (s.setTables (s.tables.set c ((s.tables c).putAll keys cols)))
    else ∃ e, cols.forM (writeColumn c keys) s = .error e (s.setTables (s.tables.set c
      ((s.tables c).putAll keys (cols.takeWhile fun col => c.Accepts (s.tables c) keys col)))) := by
  have hself (s : SessionState) (hs : s.WellFormed) :
      s.setTables (s.tables.set c ((s.tables c).putAll keys [])) = s := by
    rw [Table.putAll, List.foldl_nil, Tables.set_eq_self, SessionState.setTables_tables hs]
  induction cols generalizing s with
  | nil =>
    rw [if_pos (by simp), hself s hs]
    rfl
  | cons col cols ih =>
    by_cases hcol : c.Accepts (s.tables c) keys col
    · have hstep := writeColumn_of_accepts hs hcol
      have hput := Table.sameShape_put (hs.tables c) hcol
      have hs' := hs.setTables (hs.tables.set (hput.fits (hs.tables c)))
      have hrest := ih hs'
      have haccepts : ∀ col', c.Accepts ((s.tables c).put keys col) keys col' ↔
          c.Accepts (s.tables c) keys col' := fun col' => Table.accepts_congr hput.index
      simp only [SessionState.tables_setTables hs, Tables.set_self, haccepts, Tables.set_set,
        SessionState.setTables_setTables] at hrest
      have hrun : (col :: cols).forM (writeColumn c keys) s = cols.forM (writeColumn c keys) _ :=
        run_bind_of_ok hstep
      rw [hrun]
      simpa [hcol, Table.putAll] using hrest
    · obtain ⟨e, he⟩ := writeColumn_of_not_accepts hs hcol
      rw [if_neg fun hall => hcol (hall col List.mem_cons_self), List.takeWhile_cons_of_neg
        (by simpa using hcol), hself s hs]
      exact ⟨e, run_bind_of_error he⟩

/-- A table whose columns are all accepted is put into the store. -/
theorem writeTable_of_accepts (hs : s.WellFormed) {c : Category} {t : Table}
    (hall : ∀ col ∈ t.columns, c.Accepts (s.tables c) t.index col) :
    writeTable c t s =
      .ok () (s.setTables (s.tables.set c ((s.tables c).putAll t.index t.columns))) := by
  have hrun := writeColumns_run hs c t.index t.columns
  rw [if_pos hall] at hrun
  exact hrun

/-- Of another table the columns before the first one that is refused are put into the store. -/
theorem writeTable_of_not_accepts (hs : s.WellFormed) {c : Category} {t : Table}
    (hall : ¬∀ col ∈ t.columns, c.Accepts (s.tables c) t.index col) :
    ∃ e, writeTable c t s = .error e (s.setTables (s.tables.set c
      ((s.tables c).putAll t.index (accepted c (s.tables c) t)))) := by
  have hrun := writeColumns_run hs c t.index t.columns
  rw [if_neg hall] at hrun
  exact hrun

end Session

end PowerTables
