import PowerTables.Proofs.Network.Effects
import PowerTables.Proofs.Session.Refinement

/-!
# Writings that fail

A table is handed over to the store column by column, and a column is written with all its rows
or not at all.  So a writing that fails leaves the columns before the one that was refused, and
nothing else, and its error is the one of that column.  This holds for every state of a session,
also where the store reports another type for a column than the one it holds.

An element that the store does not know is never left out of a writing.  All columns are refused
then, and nothing is changed at all.

## Main definitions

* `SessionState.RefusesColumn` : why a column is refused.
* `Cell.KeptAs`, `Table.Receives` : what is stored for a cell, and a stored table after columns were
  written to it.
* `SessionState.HandsOver` : the table that a writing hands over.
* `SessionState.StopsAt` : a writing stops at a column.

## Main results

* `Session.writeColumn_eq_error_iff` : a column that is refused leaves everything as it is.
* `Session.receives_writeTable` : what is stored of columns that are taken.
* `Session.update_stopsAt` : what a writing that fails leaves.
* `Session.update_unknown_element` : a writing to an unknown element.
-/

namespace PowerTables

/-! ### Type codes -/

namespace CellType

theorem ofCode?_eq_some_iff {code : Int32} {type : CellType} :
    ofCode? code = some type ↔ type.code = code := by
  constructor
  · intro h
    simpa using List.find?_some h
  · rintro rfl
    exact Session.ofCode?_code type

theorem code_injective : Function.Injective code := fun _ type' h =>
  Option.some.inj ((ofCode?_eq_some_iff.mpr h).symm.trans (Session.ofCode?_code type'))

/-- The codes of types are the numbers from zero to three. -/
theorem ofCode?_eq_none_iff {code : Int32} : ofCode? code = none ↔ ¬(0 ≤ code ∧ code ≤ 3) := by
  have hcodes : ofCode? code = none ↔ ∀ type : CellType, type.code ≠ code := by
    simp only [Option.eq_none_iff_forall_ne_some, ne_eq, ofCode?_eq_some_iff]
  rw [hcodes]
  constructor
  · rintro h ⟨hlow, hhigh⟩
    have h0 := h .string
    have h1 := h .double
    have h2 := h .int
    have h3 := h .boolean
    simp only [CellType.code, ne_eq, ← Int32.toInt_inj, Int32.le_iff_toInt_le] at *
    simp at *
    omega
  · rintro h type rfl
    exact h (by cases type <;> decide)

end CellType

/-! ### Columns that are refused -/

/-- Why a column is refused that is written to the rows of some keys. -/
inductive SessionState.RefusesColumn (s : SessionState) (c : Category) (keys : List RowKey)
    (col : Column) : SessionError → Prop
  /-- The store has no type for a column of the name. -/
  | undeclared : s.store.reporting.typeCode? c col.name = none →
    RefusesColumn s c keys col (.network (.unknownColumn c col.name))
  /-- The code that is reported stands for no type. -/
  | unsupported {code : Int32} : s.store.reporting.typeCode? c col.name = some code →
    ¬(0 ≤ code ∧ code ≤ 3) → RefusesColumn s c keys col (.unsupportedType c col.name code)
  /-- The type that is reported is not that of the values. -/
  | mismatch {declared : CellType} :
    s.store.reporting.typeCode? c col.name = some declared.code → declared ≠ col.type →
    RefusesColumn s c keys col (.typeMismatch c col.name declared col.type)
  /-- The store refuses the values; its error is passed on as it is. -/
  | store {e : NetworkError} : s.store.reporting.typeCode? c col.name = some col.type.code →
    Store.write s.session.handle c col.name keys col.batch s.store = .error e s.store →
    RefusesColumn s c keys col (.network e)

namespace Session

variable {s s' : SessionState} {c : Category} {keys : List RowKey} {col : Column}
  {e : SessionError}

theorem writeColumn_eq (c : Category) (keys : List RowKey) (col : Column) (s : SessionState) :
    writeColumn c keys col s = match s.store.reporting.typeCode? c col.name with
      | some code => match CellType.ofCode? code with
        | none => .error (.unsupportedType c col.name code) s
        | some declared =>
          if declared = col.type then
            onNetwork (fun h => Store.write h c col.name keys col.batch) s
          else .error (.typeMismatch c col.name declared col.type) s
      | none => .error (.network (.unknownColumn c col.name)) s := by
  have hcode : onStore (Store.typeCode c col.name) s =
      match s.store.reporting.typeCode? c col.name with
      | some code => .ok code s
      | none => .error (.network (.unknownColumn c col.name)) s := by
    rw [onStore, Store.typeCode_eq]
    cases s.store.reporting.typeCode? c col.name <;> rfl
  cases hreported : s.store.reporting.typeCode? c col.name with
  | none =>
    rw [hreported] at hcode
    exact run_bind_of_error hcode
  | some code =>
    rw [hreported] at hcode
    rw [writeColumn, run_bind_of_ok hcode]
    cases htype : CellType.ofCode? code with
    | none => simp only [htype]; rfl
    | some declared =>
      simp only [htype]
      split <;> rfl

theorem replaces_write (handle : Nat) (c : Category) (col : Column) (keys : List RowKey)
    (s : Store) : Store.Replaces (Store.write handle c col.name keys col.batch) handle
      (Store.Operation.write handle c col.name keys col.batch).result s :=
  Store.Operation.replaces rfl s

/-- A column that is refused for one of the reasons leaves everything as it is. -/
theorem writeColumn_eq_error_iff :
    writeColumn c keys col s = .error e s' ↔ s' = s ∧ s.RefusesColumn c keys col e := by
  rw [writeColumn_eq]
  constructor
  · intro h
    cases hreported : s.store.reporting.typeCode? c col.name with
    | none =>
      simp only [hreported] at h
      cases h
      exact ⟨rfl, .undeclared hreported⟩
    | some code =>
      simp only [hreported] at h
      cases htype : CellType.ofCode? code with
      | none =>
        simp only [htype] at h
        cases h
        exact ⟨rfl, .unsupported hreported (CellType.ofCode?_eq_none_iff.mp htype)⟩
      | some declared =>
        simp only [htype] at h
        obtain rfl := CellType.ofCode?_eq_some_iff.mp htype
        split at h
        · next heq =>
          subst heq
          rw [onNetwork_run] at h
          cases hwrite : Store.write s.session.handle c col.name keys col.batch s.store with
          | ok a store =>
            simp only [hwrite] at h
            cases h
          | error cause store =>
            simp only [hwrite] at h
            cases h
            obtain rfl := (replaces_write s.session.handle c col keys s.store).eq_of_error hwrite
            exact ⟨rfl, .store hreported hwrite⟩
        · next hne =>
          cases h
          exact ⟨rfl, .mismatch hreported hne⟩
  · rintro ⟨rfl, hrefuses⟩
    cases hrefuses with
    | undeclared hreported => simp only [hreported]
    | unsupported hreported hcode =>
      simp only [hreported, CellType.ofCode?_eq_none_iff.mpr hcode]
    | mismatch hreported hne => simp only [hreported, ofCode?_code, if_neg hne]
    | store hreported hwrite =>
      simp only [hreported, ofCode?_code, if_true, onNetwork_run, hwrite]

end Session

/-! ### Columns that are written -/

/-- A cell and what is stored for it.  Truth values are handed over as integers, and the store
tells the two apart by its schema only. -/
inductive Cell.KeptAs : Cell → Cell → Prop
  | same (cell : Cell) : KeptAs cell cell
  | truth (n : Int64) : KeptAs (.ofInt n) (.ofBool (n != 0))
  | integer (b : Bool) : KeptAs (.ofBool b) (.ofInt (if b then 1 else 0))

/-- The cells of a column, as they are handed over, become cells of the type that is asked for. -/
theorem Column.keptAs_of_cells? {col : Column} {type : CellType} {cells : List Cell}
    (h : col.batch.cells? type = some cells) {q : Nat} {cell : Cell}
    (hq : col.cell? q = some cell) :
    ∃ kept, cells[q]? = some kept ∧ cell.KeptAs kept ∧ kept.type = type := by
  obtain ⟨name, given, values⟩ := col
  obtain ⟨value, hvalue, rfl⟩ := Option.map_eq_some_iff.mp hq
  by_cases htype : type = given
  · subst htype
    rw [Column.cells?_batch] at h
    cases h
    exact ⟨_, (Column.getElem?_cells _ q).trans hq, .same _, rfl⟩
  · -- integers and truth values are the only types that stand for each other
    cases given <;> cases type <;> first | exact absurd rfl htype | cases h
    · exact ⟨_, by rw [List.getElem?_map, hvalue]; rfl, .truth value, rfl⟩
    · refine ⟨_, ?_, .integer value, rfl⟩
      rw [List.map_map, List.getElem?_map, hvalue]
      rfl

/-- A stored table after the columns of another one were written to it, one after another.  Each of
them is declared and open to writes, and of the cells that are given for an element in a column
the last one is stored, as a cell of the declared type.  Columns may have the same name, of which
the last one counts then. -/
structure Table.Receives (c : Category) (stored t received : Table) : Prop where
  shape : SameShape stored received
  known : t.columns ≠ [] → ∀ key ∈ t.index, key ∈ stored.index
  given : ∀ before col after, t.columns = before ++ col :: after →
    (∀ later ∈ after, later.name ≠ col.name) → ∀ key q cell, t.IsLastRow key q →
      col.cell? q = some cell → ∃ kept, cell.KeptAs kept ∧
        c.column? col.name = some ⟨col.name, kept.type, true⟩ ∧
        received.cell? key col.name = some kept
  kept : ∀ p name, (∀ key, stored.index[p]? = some key → key ∉ t.index ∨ name ∉ t.columnNames) →
    received.cellAt? p name = stored.cellAt? p name

namespace Table.Receives

variable {c : Category} {keys : List RowKey} {stored t u : Table}

theorem nil (stored : Table) : Receives c stored ⟨keys, []⟩ stored :=
  ⟨.refl stored, fun hne => absurd rfl hne, fun before _ _ h => by simp at h, fun _ _ _ => rfl⟩

/-- What a column gives stays, unless a later one of the same name is written. -/
theorem cons {col : Column} {cols : List Column} (hfirst : Receives c stored ⟨keys, [col]⟩ t)
    (hrest : Receives c t ⟨keys, cols⟩ u) : Receives c stored ⟨keys, col :: cols⟩ u := by
  refine ⟨hfirst.shape.trans hrest.shape, fun _ => hfirst.known (List.cons_ne_nil _ _),
    fun before col' after hsplit hlater key q cell hlast hcell => ?_, fun p name hout => ?_⟩
  · cases before with
    | nil =>
      obtain ⟨rfl, rfl⟩ := List.cons.inj hsplit
      obtain ⟨kept, hkept, hspec, hstored⟩ :=
        hfirst.given [] col [] rfl (by simp) key q cell hlast hcell
      refine ⟨kept, hkept, hspec, ?_⟩
      rw [cell?_eq_bind, hrest.shape.position?, ← hstored, cell?_eq_bind]
      refine Option.bind_congr fun p _ => hrest.kept p col.name fun _ _ => .inr fun hname => ?_
      obtain ⟨later, hmem, hname⟩ := mem_columnNames_iff.mp hname
      exact hlater later hmem hname
    | cons _ before =>
      obtain ⟨-, hsplit⟩ := List.cons.inj hsplit
      exact hrest.given before col' after hsplit hlater key q cell hlast hcell
  · rw [hrest.kept p name, hfirst.kept p name]
    · exact fun key hp => (hout key hp).imp_right (mt (List.mem_append_left _))
    · exact fun key hp =>
        (hout key (hfirst.shape.index ▸ hp)).imp_right (mt (List.mem_cons_of_mem _))

end Table.Receives

/-- A column that is written is received by the table of the category, and by no other one. -/
theorem Tables.receives_write {ts us : Tables} {c : Category} {keys : List RowKey} {col : Column}
    {cells : List Cell} (hcells : c.cellsFor col.name keys col.batch = .ok cells)
    (h : ts.write c col.name keys cells = .ok us) :
    Table.Receives c (ts c) ⟨keys, [col]⟩ (us c) ∧ ∀ d ≠ c, us d = ts d := by
  have hknown := known_of_write h
  obtain ⟨type, hspec, hcells, -⟩ := Category.column?_of_cellsFor hcells
  obtain ⟨t, ht, rfl⟩ := write_eq_ok h
  obtain ⟨hshape, hcell⟩ := Table.cellAt?_setCells ht
  rw [set_self]
  refine ⟨⟨hshape, fun _ => hknown, fun before col' after hsplit _ key q cell hlast hq => ?_,
    fun p name hout => ?_⟩, fun d hd => set_of_ne ts t hd⟩
  · obtain ⟨rfl, rfl, rfl⟩ : before = [] ∧ col' = col ∧ after = [] := by
      cases before <;> simp_all
    obtain ⟨kept, hkept, hkeptAs, rfl⟩ := Column.keptAs_of_cells? hcells hq
    obtain ⟨p, hp⟩ := Table.exists_position? (hknown key (List.mem_of_getElem? hlast.1))
    -- a later row with a cell for the same position would have the same key
    have hwritten : (ts c).lastFor? (keys.zip cells) p = some kept :=
      Table.lastFor?_zip_eq_some_iff.mpr ⟨q, key, hlast.1, hkept, hp,
        fun r key' _ hr hkey' _ hp' => hlast.2 r hr (Table.eq_of_position? hp hp' ▸ hkey')⟩
    refine ⟨kept, hkeptAs, hspec, ?_⟩
    rw [Table.cell?_eq_bind, hshape.position?, hp, Option.bind_some, hcell, if_pos rfl, hwritten,
      Option.some_or]
  · rw [hcell]
    split
    · next hname =>
      have hnone : (ts c).lastFor? (keys.zip cells) p = none := by
        by_contra hsome
        obtain ⟨cell, hlast⟩ := Option.ne_none_iff_exists'.mp hsome
        obtain ⟨key, hmem, hp⟩ := Table.mem_of_lastFor? hlast
        rcases hout key (Table.position?_eq_some hp) with hkey | hcolumn
        · exact hkey (List.of_mem_zip hmem).1
        · exact hcolumn (by simp [Table.columnNames, hname])
      rw [hnone, Option.none_or]
    · rfl

/-- A column of the stored table of a category has the same cells in both states. -/
def SessionState.KeepsColumn (c : Category) (name : String) (s s' : SessionState) : Prop :=
  ∀ p, (s'.tables c).cellAt? p name = (s.tables c).cellAt? p name

namespace SessionState

theorem tables_eq {s : SessionState} {n : Network} {ts : Tables}
    (hn : s.store.network? s.session.handle = some n) (hts : n.tables? = some ts) :
    s.tables = ts := by
  rw [tables, hn, Option.bind_some, hts, Option.getD_some]

end SessionState

namespace Session

open SessionState

variable {s s' : SessionState} {c : Category} {keys : List RowKey} {col : Column}

/-- A column that is taken is one that the store writes. -/
theorem write_of_writeColumn {u : Unit} (h : writeColumn c keys col s = .ok u s') :
    ∃ store, Store.write s.session.handle c col.name keys col.batch s.store = .ok u store ∧
      s' = ⟨s.session, store⟩ := by
  rw [writeColumn_eq] at h
  split at h
  · split at h
    · cases h
    split at h
    · rw [onNetwork_run] at h
      split at h
      · next hwrite =>
        cases h
        exact ⟨_, hwrite, rfl⟩
      · cases h
    · cases h
  · cases h

/-- What the store writes are cells of the one column. -/
theorem tables_of_write {u : Unit} {store : Store}
    (h : Store.write s.session.handle c col.name keys col.batch s.store = .ok u store) :
    ∃ cells, c.cellsFor col.name keys col.batch = .ok cells ∧
      s.tables.write c col.name keys cells = .ok (SessionState.tables ⟨s.session, store⟩) := by
  rcases replaces_write s.session.handle c col keys s.store with
    ⟨n, m, a, hn, hm, hstore⟩ | ⟨⟨e, herror⟩, -⟩
  · cases hstore.symm.trans h
    obtain ⟨cells, hcells, hm⟩ := bind_eq_ok.mp hm
    obtain ⟨ts, us, hts, hus, rfl⟩ := Network.updateTables_eq_ok.mp hm
    refine ⟨cells, hcells, ?_⟩
    rw [tables_eq hn hts, hus]
    exact congrArg Except.ok (tables_eq (Store.network?_setNetwork_self hn _)
      (Network.tables?_setTables (Network.hasVariant_of_tables? hts) _)).symm
  · cases herror.symm.trans h

/-- A column that is taken is received by the stored table. -/
theorem receives_writeColumn {u : Unit} (h : writeColumn c keys col s = .ok u s') :
    Table.Receives c (s.tables c) ⟨keys, [col]⟩ (s'.tables c) ∧
      ∀ d ≠ c, s'.tables d = s.tables d := by
  obtain ⟨store, hwrite, rfl⟩ := write_of_writeColumn h
  obtain ⟨cells, hcells, htables⟩ := tables_of_write hwrite
  exact Tables.receives_write hcells htables

/-- A table that is taken is received by the stored one. -/
theorem receives_writeTable {t : Table} (h : writeTable c t s = .ok () s') :
    Table.Receives c (s.tables c) t (s'.tables c) ∧ ∀ d ≠ c, s'.tables d = s.tables d := by
  obtain ⟨keys, cols⟩ := t
  induction cols generalizing s with
  | nil =>
    cases h
    exact ⟨.nil _, fun _ _ => rfl⟩
  | cons col cols ih =>
    cases hfirst : writeColumn c keys col s with
    | error e s₁ => cases (run_bind_of_error hfirst).symm.trans h
    | ok u s₁ =>
      have hrest : writeTable c ⟨keys, cols⟩ s₁ = .ok () s' := (run_bind_of_ok hfirst).symm.trans h
      obtain ⟨hreceives, hothers⟩ := receives_writeColumn hfirst
      obtain ⟨hreceives', hothers'⟩ := ih hrest
      exact ⟨hreceives.cons hreceives', fun d hd => (hothers' d hd).trans (hothers d hd)⟩

end Session

/-! ### Where a writing stops -/

/-- The table that a writing hands over column by column, and the state it does so from.  In
physical units this is the table itself, and the last diagnostics are forgotten before; in
per-unit it is the converted table without the rows that are left out. -/
inductive SessionState.HandsOver (s : SessionState) (c : Category) (t : Table) :
    Table → SessionState → Prop
  | plain : s.session.perUnit.enabled = false →
    HandsOver s c t t ⟨{ s.session with diagnostics := [] }, s.store⟩
  | perUnit {u : Table} {report : ConversionReport} : s.session.perUnit.enabled = true →
    Session.toPhysical c t s = .ok (u, report) s → HandsOver s c t u s

/-- Two generators, in a store that reports a code without type for their energy sources. -/
def SessionState.misreported : SessionState :=
  ⟨(twoGenerators (some 400.0)).session,
    { (twoGenerators (some 400.0)).store with
      reporting := { typeCode := some ("energy_source", 7) } }⟩

/-- Target voltages, energy sources and target powers in per-unit of both generators. -/
def Table.lowTargets : Table :=
  ⟨[.plain "G1", .plain "G2"],
    [⟨"target_v", .double, [(0.95 : Float), (1.0 : Float)]⟩,
      ⟨"energy_source", .string, ["HYDRO", "WIND"]⟩,
      ⟨"target_p", .double, [(0.5 : Float), (0.25 : Float)]⟩]⟩

/-- A writing of a table stops at the column at a position, with an error, and leaves a state. -/
structure SessionState.StopsAt (s : SessionState) (c : Category) (t : Table) (j : Nat)
    (e : SessionError) (s' : SessionState) : Prop where
  /-- What is left are the columns before, each of them written with all rows. -/
  written : Session.writeTable c ⟨t.index, t.columns.take j⟩ s = .ok () s'
  /-- Their cells are stored. -/
  received : Table.Receives c (s.tables c) ⟨t.index, t.columns.take j⟩ (s'.tables c)
  /-- The error is the one that the column has by itself in the state that is left. -/
  refused : ∃ col, t.columns[j]? = some col ∧
    Session.writeColumn c t.index col s' = .error e s' ∧ s'.RefusesColumn c t.index col e
  /-- The cells of this column and of those after it are as before, but for a column before that
  has the same name. -/
  kept : ∀ col ∈ t.columns.drop j, col.name ∉ (t.columns.take j).map (·.name) →
    s.KeepsColumn c col.name s'
  /-- The tables of the other categories are as before. -/
  others : ∀ d ≠ c, s'.tables d = s.tables d

namespace Session

open SessionState

variable {s s' : SessionState} {c : Category} {t : Table} {e : SessionError}

/-- A table is handed over up to its first column that is refused. -/
theorem writeTable_stopsAt (h : writeTable c t s = .error e s') : ∃ j, s.StopsAt c t j e s' := by
  obtain ⟨j, col, before, hcol, hbefore, hfails⟩ := forM_eq_error h
  obtain ⟨rfl, hrefuses⟩ := writeColumn_eq_error_iff.mp hfails
  have hwritten : writeTable c ⟨t.index, t.columns.take j⟩ s = .ok () s' := hbefore
  obtain ⟨hreceives, hothers⟩ := receives_writeTable hwritten
  exact ⟨j, hwritten, hreceives, ⟨col, hcol, hfails, hrefuses⟩,
    fun col' _ hnew p => hreceives.kept p col'.name fun _ _ => .inr hnew, hothers⟩

/-- A writing that fails does so in the conversion and changes nothing, or it stops at a column of
the table that it hands over, of which the columns before are written. -/
theorem update_stopsAt (h : update c t s = .error e s') :
    (s.session.perUnit.enabled = true ∧ toPhysical c t s = .error e s ∧ s' = s) ∨
      ∃ u start, s.HandsOver c t u start ∧ ∃ j, start.StopsAt c u j e s' := by
  cases hon : s.session.perUnit.enabled with
  | false =>
    rw [update_off hon] at h
    exact .inr ⟨t, _, .plain hon, writeTable_stopsAt h⟩
  | true =>
    cases hrun : toPhysical c t s with
    | error e' s'' =>
      obtain rfl := toPhysical_error hrun
      obtain ⟨rfl, rfl⟩ := EStateM.Result.error.inj ((update_of_error hon hrun).symm.trans h)
      exact .inl ⟨rfl, rfl, rfl⟩
    | ok r s'' =>
      obtain rfl : s = s'' := (relates_eq_toPhysical c t s).trans (stateAfter_ok hrun)
      rw [update_of_physical hon hrun] at h
      -- the report is only recorded after a success, so the error is one of the writing
      cases hwrite : writeTable c r.1 s with
      | ok a s'' => cases (run_bind_of_ok hwrite).symm.trans h
      | error e' s'' =>
        obtain ⟨rfl, rfl⟩ := EStateM.Result.error.inj ((run_bind_of_error hwrite).symm.trans h)
        exact .inr ⟨r.1, s, .perUnit hon hrun, writeTable_stopsAt hwrite⟩

/-- Of three columns the second one is refused, as its type is reported by a code that stands for
none.  The first one is stored, and the third one is not. -/
theorem update_misreported : ∃ s',
    update .generator .lowTargets misreported =
        .error (.unsupportedType .generator "energy_source" 7) s' ∧
      (misreported.tables .generator).doubles? "target_v" = some [420.0, Double.nan] ∧
      (s'.tables .generator).doubles? "target_v" = some [380.0, Double.nan] ∧
      (s'.tables .generator).strings? "energy_source" = some ["", ""] ∧
      (s'.tables .generator).doubles? "target_p" = some [Double.nan, Double.nan] ∧
      ∃ u start, misreported.HandsOver .generator .lowTargets u start ∧
        ∃ j, start.StopsAt .generator u j (.unsupportedType .generator "energy_source" 7) s' := by
  have hrun : update .generator .lowTargets misreported =
      .error (.unsupportedType .generator "energy_source" 7)
        (stateAfter (update .generator .lowTargets) misreported) := by rfl
  have hbefore : (misreported.tables .generator).doubles? "target_v" =
      some [420.0, Double.nan] := by decide +kernel
  have hafter : ((stateAfter (update .generator .lowTargets) misreported).tables
      .generator).doubles? "target_v" = some [380.0, Double.nan] := by decide +kernel
  refine ⟨_, hrun, hbefore, hafter, by decide +kernel, by decide +kernel, ?_⟩
  rcases update_stopsAt hrun with ⟨-, -, hsame⟩ | hstops
  · rw [hsame, hbefore] at hafter
    exact absurd hafter (by decide +kernel)
  · exact hstops

end Session

/-! ### Unknown elements -/

/-- Target voltages in per-unit of a generator and of an element that may not be known. -/
def Table.strayTargets : Table :=
  ⟨[.plain "G1", .plain "G9"], [⟨"target_v", .double, [(1.05 : Float), (1.0 : Float)]⟩]⟩

namespace Session

open SessionState

variable {s : SessionState} {c : Category} {t : Table}

/-- No column is written to an element that is not known. -/
theorem writeTable_of_unknown (hs : s.WellFormed) (hcolumns : t.columns ≠ []) {key : RowKey}
    (hkey : key ∈ t.index) (hunknown : key ∉ (s.tables c).index) :
    ∃ e, writeTable c t s = .error e s := by
  have hrefused (col : Column) : ¬c.Accepts (s.tables c) t.index col := fun haccepts =>
    hunknown (haccepts.2.2 key hkey)
  obtain ⟨first, hfirst⟩ := List.exists_mem_of_ne_nil _ hcolumns
  obtain ⟨e, he⟩ := writeTable_of_not_accepts hs fun hall => hrefused first (hall first hfirst)
  have hnone : accepted c (s.tables c) t = [] :=
    List.eq_nil_iff_forall_not_mem.mpr fun col hcol => hrefused col (accepts_of_mem_accepted hcol)
  rw [hnone, Table.putAll, List.foldl_nil, Tables.set_eq_self,
    SessionState.setTables_tables hs] at he
  exact ⟨e, he⟩

/-- A row of an element that is not known is never left out. -/
theorem mem_index_written {key : RowKey} (hkey : key ∈ t.index)
    (hunknown : key ∉ (s.tables c).index) : key ∈ (s.written c t).index := by
  obtain ⟨p, hp⟩ := List.mem_iff_getElem?.mp hkey
  have hkept : ¬s.Skips c t key := fun hskips => hunknown hskips.1
  exact Table.mem_index_rowsWhere.mpr ⟨p, hp, by simp [hp, hkept]⟩

/-- A writing that names an element that is not known fails, whatever else it names, and changes
neither the store nor the number of cells that were missing. -/
theorem update_unknown_element (hs : s.Reachable) (ht : t.IsRectangular)
    (hcolumns : t.columns ≠ []) {key : RowKey} (hkey : key ∈ t.index)
    (hunknown : key ∉ (s.tables c).index) :
    ∃ e s', update c t s = .error e s' ∧ s'.store = s.store ∧
      s'.session.missingBases = s.session.missingBases := by
  have hwf := hs.wellFormed
  cases hon : s.session.perUnit.enabled with
  | false =>
    obtain ⟨e, he⟩ :=
      writeTable_of_unknown (wellFormed_withoutDiagnostics hwf) hcolumns hkey hunknown
    exact ⟨e, _, (update_off hon c t).trans he, rfl, rfl⟩
  | true =>
    -- the row of the unknown element is still there after the conversion, whatever was left out
    obtain ⟨report, hphysical⟩ := exists_toPhysical hwf c ht
    have hwritten : (s.written c t).columns ≠ [] := fun hnil => hcolumns (by
      simpa [SessionState.written, Table.rowsWhere, SessionState.physical, Table.mapFirst]
        using hnil)
    obtain ⟨e, he⟩ :=
      writeTable_of_unknown hwf hwritten (mem_index_written hkey hunknown) hunknown
    exact ⟨e, s, (update_of_physical hon hphysical).trans (run_bind_of_error he), rfl, rfl⟩

theorem update_unknown_generator : ∃ e s',
    update .generator .strayTargets (twoGenerators (some 400.0)) = .error e s' ∧
      s'.store = (twoGenerators (some 400.0)).store ∧
      s'.session.missingBases = (twoGenerators (some 400.0)).session.missingBases :=
  update_unknown_element (reachable_twoGenerators _) (by decide) (by decide)
    (List.mem_of_getElem? (i := 1) rfl) (by decide +kernel)

end Session

end PowerTables
