import PowerTables.Proofs.Session.Rearrangement
import PowerTables.Proofs.Session.RoundTrip

/-!
# Writings in either order

A writing reads the store before it changes it: the keys of the stored table and, in per-unit, the
columns that voltages are read from.  The keys never change, and of those columns only the nominal
voltages are open to writes.  So a writing without nominal voltages leaves alone whatever another
one reads, and two writings without a common cell can change places.

## Main definitions

* `SessionState.ReadsAlike` : a writing reads the same in two states.
* `SessionState.ChangesTables` : two states differ in tables of the working variant only.

## Main results

* `Table.putAll_comm` : columns that have no cell in common, put into a table.
* `Session.readsAlike_of_update` : what a writing leaves alone.
* `Session.update_comm` : two writings in either order.
-/

namespace PowerTables

/-! ### Columns put into a table -/

namespace Table

variable {c : Category} {t u : Table} {keys keys' : List RowKey} {cols cols' : List Column}

/-- In tables of one shape, columns with the same cells are equal. -/
theorem SameShape.column?_eq (h : SameShape t u) {name : String}
    (hcells : ∀ p, u.cellAt? p name = t.cellAt? p name) : u.column? name = t.column? name := by
  cases hc : t.column? name with
  | none => rwa [column?_eq_none_iff, h.columnNames, ← column?_eq_none_iff]
  | some col =>
    obtain ⟨col', hcol', htype, -⟩ := h.exists_column? hc
    rw [hcol', Option.some_inj]
    refine Column.ext_cells ((mem_of_column? hcol').2.trans (mem_of_column? hc).2.symm) htype
      fun p => ?_
    rw [← cellAt?_of_column? hcol', ← cellAt?_of_column? hc, hcells]

theorem lastWritten?_congr (h : SameShape t u) (keys : List RowKey) (cols : List Column) (p : Nat)
    (name : String) : u.lastWritten? keys cols p name = t.lastWritten? keys cols p name := by
  simp only [lastWritten?, lastFor?_congr h]

theorem mem_of_lastWritten? {p : Nat} {name : String} {cell : Cell}
    (h : t.lastWritten? keys cols p name = some cell) :
    (∃ key ∈ keys, t.position? key = some p) ∧ name ∈ cols.map (·.name) := by
  obtain ⟨col, hfind, hlast⟩ := Option.bind_eq_some_iff.mp h
  obtain ⟨key, hzip, hp⟩ := mem_of_lastFor? hlast
  exact ⟨⟨key, (List.of_mem_zip hzip).1, hp⟩, List.mem_map.mpr
    ⟨col, List.mem_reverse.mp (List.mem_of_find?_eq_some hfind),
      by simpa using List.find?_some hfind⟩⟩

section PutAll

variable (ht : t.Fits c) (h : ∀ col ∈ cols, c.Accepts t keys col)

include ht h

theorem forall_accepts_putAll (h' : ∀ col ∈ cols', c.Accepts t keys' col) :
    ∀ col ∈ cols', c.Accepts (t.putAll keys cols) keys' col := fun col hcol =>
  (accepts_congr (sameShape_putAll ht h).index).mpr (h' col hcol)

theorem cellAt?_putAll_of_notMem {name : String} (hname : name ∉ cols.map (·.name)) (p : Nat) :
    (t.putAll keys cols).cellAt? p name = t.cellAt? p name := by
  rw [cellAt?_putAll ht h]
  cases hlast : t.lastWritten? keys cols p name with
  | none => rw [Option.none_or]
  | some cell => exact absurd (mem_of_lastWritten? hlast).2 hname

/-- A column of another name stays as it is. -/
theorem column?_putAll_of_notMem {name : String} (hname : name ∉ cols.map (·.name)) :
    (t.putAll keys cols).column? name = t.column? name :=
  (sameShape_putAll ht h).column?_eq (cellAt?_putAll_of_notMem ht h hname)

/-- Columns that have no cell in common can be put into a table in either order. -/
theorem putAll_comm (h' : ∀ col ∈ cols', c.Accepts t keys' col)
    (hapart : ∀ key ∈ keys, key ∈ keys' →
      ∀ name ∈ cols.map (·.name), name ∉ cols'.map (·.name)) :
    (t.putAll keys cols).putAll keys' cols' = (t.putAll keys' cols').putAll keys cols := by
  have hshape := sameShape_putAll ht h
  have hshape' := sameShape_putAll ht h'
  have haccepts := forall_accepts_putAll ht h h'
  have haccepts' := forall_accepts_putAll ht h' h
  have hleft := sameShape_putAll (hshape.fits ht) haccepts
  have hright := sameShape_putAll (hshape'.fits ht) haccepts'
  refine ext_cellAt ?_ ?_ ?_ fun p name _ => ?_
  · rw [hleft.index, hshape.index, hright.index, hshape'.index]
  · rw [hleft.signature, hshape.signature, hright.signature, hshape'.signature]
  · rw [hleft.columnNames, hshape.columnNames]
    exact ht.nodup_columnNames
  · rw [cellAt?_putAll (hshape.fits ht) haccepts, cellAt?_putAll (hshape'.fits ht) haccepts',
      cellAt?_putAll ht h, cellAt?_putAll ht h', lastWritten?_congr hshape,
      lastWritten?_congr hshape']
    -- at most one of the two writes gives a cell to this place
    cases hfirst : t.lastWritten? keys cols p name with
    | none => rw [Option.none_or, Option.none_or]
    | some cell =>
      obtain ⟨⟨key, hkey, hp⟩, hname⟩ := mem_of_lastWritten? hfirst
      cases hsecond : t.lastWritten? keys' cols' p name with
      | none => rw [Option.none_or, Option.none_or]
      | some cell' =>
        obtain ⟨⟨key', hkey', hp'⟩, hname'⟩ := mem_of_lastWritten? hsecond
        exact absurd hname' (hapart key hkey (eq_of_position? hp' hp ▸ hkey') name hname)

end PutAll

/-- What a join brings in depends on the keys and the requested columns of the other table. -/
theorem joined_congr {source source' : Table} {names : List String}
    (hindex : source'.index = source.index)
    (h : ∀ name ∈ names, name ∉ t.columnNames → source'.column? name = source.column? name) :
    t.joined source' names = t.joined source names := by
  rw [joined, joined]
  congr 2
  refine List.filterMap_congr fun name hname => ?_
  obtain ⟨hneeded, hlacking⟩ := mem_lacking.mp hname
  rw [joinedColumn?, joinedColumn?, hindex, h name hneeded hlacking]

end Table

theorem VoltageLevels.ofTable_congr {t u : Table} (hindex : u.index = t.index)
    (hcolumn : u.column? "nominal_v" = t.column? "nominal_v") : ofTable u = ofTable t := by
  rw [ofTable, ofTable, Table.doubles?, Table.doubles?, Table.valuesAs?, Table.valuesAs?, hcolumn,
    hindex]

/-- The voltages of the rows themselves are the nominal ones. -/
theorem Category.eq_nominal_of_rowColumn {c : Category} {r : ConversionRule} (h : r ∈ c.rules)
    {name : String} (hsource : r.source = .rowColumn name) : name = "nominal_v" := by
  have hall : ∀ r ∈ c.rules, r.source = .rowColumn (r.source.column?.getD "") →
      r.source = .rowColumn "nominal_v" := by
    cases c <;> decide
  have hnominal := hall r h (by rw [hsource]; rfl)
  rw [hsource] at hnominal
  exact BaseSource.rowColumn.inj hnominal

theorem Tables.set_comm (ts : Tables) {c d : Category} (h : c ≠ d) (t u : Table) :
    (ts.set c t).set d u = (ts.set d u).set c t := by
  funext e
  by_cases hc : e = c
  · subst hc
    rw [set_of_ne _ _ h, set_self, set_self]
  · by_cases hd : e = d
    · subst hd
      rw [set_self, set_of_ne _ _ hc, set_self]
    · rw [set_of_ne _ _ hd, set_of_ne _ _ hc, set_of_ne _ _ hc, set_of_ne _ _ hd]

/-! ### What a writing reads -/

namespace SessionState

/-- A writing of a table reads the same in two states: the settings, the keys and, in per-unit, the
voltages. -/
structure ReadsAlike (d : Category) (u : Table) (s s' : SessionState) : Prop where
  perUnit : s'.session.perUnit = s.session.perUnit
  index : (s'.tables d).index = (s.tables d).index
  levels : s.session.perUnit.enabled = true → s'.levels d = s.levels d
  joined : s.session.perUnit.enabled = true → s'.joined d u = s.joined d u

/-- Only tables of the working variant differ, and what the session counts and reports. -/
structure ChangesTables (s s' : SessionState) : Prop where
  handle : s'.session.handle = s.session.handle
  perUnit : s'.session.perUnit = s.session.perUnit
  store : s'.store = (s.setTables s'.tables).store

variable {s s' s'' : SessionState} {d : Category} {u : Table}

theorem ChangesTables.refl (hs : s.WellFormed) : ChangesTables s s :=
  ⟨rfl, rfl, by rw [setTables_tables hs]⟩

theorem ChangesTables.trans (h : ChangesTables s s') (h' : ChangesTables s' s'') :
    ChangesTables s s'' := by
  refine ⟨h'.handle.trans h.handle, h'.perUnit.trans h.perUnit, ?_⟩
  have hsame : (s'.setTables s''.tables).store =
      ((s.setTables s'.tables).setTables s''.tables).store :=
    Session.store_setTables_congr _ s' (by rw [session_setTables, h.handle]) h.store s''.tables
  rw [h'.store, hsame, setTables_setTables]

theorem ReadsAlike.dispatched (h : ReadsAlike d u s s') : s'.dispatched d u = s.dispatched d u := by
  cases hon : s.session.perUnit.enabled with
  | false =>
    rw [SessionState.dispatched, SessionState.dispatched, h.perUnit, hon,
      if_neg Bool.false_ne_true, if_neg Bool.false_ne_true]
  | true =>
    have hlevels := h.levels hon
    have hjoined := h.joined hon
    have hphysical : s'.physical d u = s.physical d u := by
      rw [physical, physical, h.perUnit, hlevels, hjoined]
    have hskips (key : RowKey) : s'.Skips d u key ↔ s.Skips d u key := by
      rw [Skips, Skips, h.index, hlevels, hjoined]
    rw [SessionState.dispatched, SessionState.dispatched, h.perUnit, hon, if_pos rfl, if_pos rfl,
      written, written, hphysical]
    simp only [hskips]

end SessionState

/-- A lower limit of one of the two generators. -/
def Table.newMinimum : Table := ⟨[.plain "G1"], [⟨"min_p", .double, [(0.5 : Float)]⟩]⟩

namespace Session

open SessionState

variable {s s' s'' : SessionState} {c d : Category} {t u : Table}

theorem wellFormed_of_update (hs : s.WellFormed) (h : update c t s = .ok () s') :
    s'.WellFormed := by
  have hevolves := (Operation.update c t).relates s
  rw [Operation.run, stateAfter_ok h] at hevolves
  exact hevolves.wellFormed hs

/-- A writing leaves the settings as they are. -/
theorem perUnit_of_update (hs : s.WellFormed) (h : update c t s = .ok () s') :
    s'.session.perUnit = s.session.perUnit := by
  cases hon : s.session.perUnit.enabled with
  | false =>
    have hsession := session_after_update_off hs hon c t
    rw [stateAfter_ok h] at hsession
    rw [hsession]
  | true =>
    obtain ⟨report, hsession, -⟩ := lists_of_update hs hon h
    rw [hsession]
    rfl

theorem handle_of_update (h : update c t s = .ok () s') :
    s'.session.handle = s.session.handle := by
  have hevolves := (Operation.update c t).relates s
  rw [Operation.run, stateAfter_ok h] at hevolves
  exact hevolves.handle

theorem tables_of_update (hs : s.WellFormed) (ht : t.IsRectangular)
    (h : update c t s = .ok () s') : s'.tables = s.tables.set c
      ((s.tables c).putAll (s.dispatched c t).index (s.dispatched c t).columns) :=
  tables_of_store hs (handle_of_update h) (store_of_update hs ht h)

theorem columnNames_dispatched (s : SessionState) (c : Category) (t : Table) :
    (s.dispatched c t).columns.map (·.name) = t.columnNames := by
  rw [dispatched]
  split
  · exact Table.columnNames_of_signature (s.signature_written c t)
  · rfl

theorem mem_index_of_dispatched {key : RowKey} (h : key ∈ (s.dispatched c t).index) :
    key ∈ t.index := by
  rw [dispatched] at h
  split at h
  · exact mem_index_of_written h
  · exact h

/-- A column of another category or of another name stays as it is. -/
theorem column?_of_update (hs : s.WellFormed) (ht : t.IsRectangular)
    (h : update c t s = .ok () s') {name : String} (hname : d = c → name ∉ t.columnNames) :
    (s'.tables d).column? name = (s.tables d).column? name := by
  have hall := (update_succeeds_iff hs ht).mp ⟨s', h⟩
  rw [tables_of_update hs ht h]
  by_cases hd : d = c
  · subst hd
    rw [Tables.set_self]
    exact Table.column?_putAll_of_notMem (hs.tables d) hall
      (columnNames_dispatched s d t ▸ hname rfl)
  · rw [Tables.set_of_ne _ _ hd]

theorem index_of_update (hs : s.WellFormed) (ht : t.IsRectangular)
    (h : update c t s = .ok () s') (d : Category) :
    (s'.tables d).index = (s.tables d).index := by
  have hall := (update_succeeds_iff hs ht).mp ⟨s', h⟩
  rw [tables_of_update hs ht h]
  by_cases hd : d = c
  · subst hd
    rw [Tables.set_self]
    exact (Table.sameShape_putAll (hs.tables d) hall).index
  · rw [Tables.set_of_ne _ _ hd]

/-- Only nominal voltages are written of all that voltages are read from. -/
theorem notMem_columnNames_of_update (hs : s.WellFormed) (ht : t.IsRectangular)
    (h : update c t s = .ok () s') (hvoltage : "nominal_v" ∉ t.columnNames) {r : ConversionRule}
    (hr : r ∈ c.rules) {name : String} (hname : name ∈ r.source.column?) :
    name ∉ t.columnNames := by
  intro hmem
  have hall := (update_succeeds_iff hs ht).mp ⟨s', h⟩
  rw [← columnNames_dispatched s c t] at hmem
  obtain ⟨col, hcol, rfl⟩ := List.mem_map.mp hmem
  obtain ⟨hsource, -⟩ := Category.rowColumn_of_open hr hname (hall col hcol).1
  refine hvoltage ?_
  rw [← Category.eq_nominal_of_rowColumn hr hsource, ← columnNames_dispatched s c t]
  exact List.mem_map_of_mem hcol

/-- A writing without nominal voltages leaves alone what another one reads. -/
theorem readsAlike_of_update (hs : s.WellFormed) (ht : t.IsRectangular)
    (h : update c t s = .ok () s')
    (hvoltage : s.session.perUnit.enabled = true → "nominal_v" ∉ t.columnNames) (d : Category)
    (u : Table) : ReadsAlike d u s s' := by
  refine ⟨perUnit_of_update hs h, index_of_update hs ht h d, fun hon => ?_, fun hon => ?_⟩
  · rw [levels, levels]
    split
    · exact VoltageLevels.ofTable_congr (index_of_update hs ht h .voltageLevel)
        (column?_of_update hs ht h fun _ => hvoltage hon)
    · rfl
  · refine Table.joined_congr (index_of_update hs ht h d) fun name hname _ => ?_
    obtain ⟨r, hr, -, hsource⟩ := Category.mem_baseColumns.mp hname
    refine column?_of_update hs ht h fun hd => ?_
    subst hd
    exact notMem_columnNames_of_update hs ht h (hvoltage hon) hr hsource

/-! ### Two writings -/

/-- A writing changes tables of the working variant only. -/
theorem changesTables_of_update (hs : s.WellFormed) (ht : t.IsRectangular)
    (h : update c t s = .ok () s') : ChangesTables s s' :=
  ⟨handle_of_update h, perUnit_of_update hs h,
    by rw [store_of_update hs ht h, tables_of_update hs ht h]⟩

/-- Where the same is read, the same is accepted. -/
theorem succeeds_iff_of_readsAlike (hs : s.WellFormed) (hs' : s'.WellFormed)
    (hu : u.IsRectangular) (h : ReadsAlike d u s s') :
    (∃ s'', update d u s' = .ok () s'') ↔ ∃ s'', update d u s = .ok () s'' := by
  rw [update_succeeds_iff hs' hu, update_succeeds_iff hs hu, h.dispatched]
  exact forall₂_congr fun col _ => Table.accepts_congr h.index

/-- Where the same is read, the same is counted. -/
theorem missingBases_of_readsAlike (hs : s.WellFormed) (h : update c t s = .ok () s')
    {v v' : SessionState} (hv : v.WellFormed) (h' : update c t v = .ok () v')
    (hreads : ReadsAlike c t s v) : v'.session.missingBases + s.session.missingBases =
      s'.session.missingBases + v.session.missingBases := by
  rw [missingBases_of_update hs h, missingBases_of_update hv h', hreads.perUnit]
  cases hon : s.session.perUnit.enabled with
  | false =>
    rw [if_neg Bool.false_ne_true, if_neg Bool.false_ne_true]
    omega
  | true =>
    rw [hreads.levels hon, hreads.joined hon]
    omega

/-- Two writings that have no cell in common can change places, in physical units and, if neither
writes nominal voltages, in per-unit: where one after the other succeeds, so does the other order,
and it leaves the same store and the same count. -/
theorem update_comm {s₁ s₂ : SessionState} (hs : s.Reachable) (ht : t.IsRectangular)
    (hu : u.IsRectangular)
    (hvoltage : s.session.perUnit.enabled = true →
      "nominal_v" ∉ t.columnNames ∧ "nominal_v" ∉ u.columnNames)
    (hapart : c = d → ∀ key ∈ t.index, key ∈ u.index →
      ∀ name ∈ t.columnNames, name ∉ u.columnNames)
    (h₁ : update c t s = .ok () s₁) (h₂ : update d u s₁ = .ok () s₂) :
    ∃ s₁' s₂', update d u s = .ok () s₁' ∧ update c t s₁' = .ok () s₂' ∧
      s₂'.store = s₂.store ∧ s₂'.session.missingBases = s₂.session.missingBases := by
  have hwf := hs.wellFormed
  have hwf₁ := wellFormed_of_update hwf h₁
  have hreads := readsAlike_of_update hwf ht h₁ (fun hon => (hvoltage hon).1) d u
  obtain ⟨s₁', h₁'⟩ := (succeeds_iff_of_readsAlike hwf hwf₁ hu hreads).mp ⟨s₂, h₂⟩
  have hwf₁' := wellFormed_of_update hwf h₁'
  have hreads' := readsAlike_of_update hwf hu h₁' (fun hon => (hvoltage hon).2) c t
  obtain ⟨s₂', h₂'⟩ := (succeeds_iff_of_readsAlike hwf hwf₁' ht hreads').mpr ⟨s₁, h₁⟩
  refine ⟨s₁', s₂', h₁', h₂', ?_, ?_⟩
  · have hchanges := (changesTables_of_update hwf ht h₁).trans
      (changesTables_of_update hwf₁ hu h₂)
    have hchanges' := (changesTables_of_update hwf hu h₁').trans
      (changesTables_of_update hwf₁' ht h₂')
    suffices htables : s₂'.tables = s₂.tables by rw [hchanges'.store, hchanges.store, htables]
    rw [tables_of_update hwf₁' ht h₂', tables_of_update hwf hu h₁', hreads'.dispatched,
      tables_of_update hwf₁ hu h₂, tables_of_update hwf ht h₁, hreads.dispatched]
    have hall := (update_succeeds_iff hwf ht).mp ⟨s₁, h₁⟩
    have hall' := (update_succeeds_iff hwf hu).mp ⟨s₁', h₁'⟩
    by_cases hcd : c = d
    · subst hcd
      rw [Tables.set_self, Tables.set_self, Tables.set_set, Tables.set_set,
        Table.putAll_comm (hwf.tables c) hall' hall]
      intro key hkey hkey' name hname
      rw [columnNames_dispatched] at hname ⊢
      intro hmem
      exact hapart rfl key (mem_index_of_dispatched hkey') (mem_index_of_dispatched hkey) name hmem
        hname
    · rw [Tables.set_of_ne _ _ hcd, Tables.set_of_ne _ _ (Ne.symm hcd), Tables.set_comm _ hcd]
  · have hcount := missingBases_of_readsAlike hwf h₁' hwf₁ h₂ hreads
    have hcount' := missingBases_of_readsAlike hwf h₁ hwf₁' h₂' hreads'
    omega

/-- Targets and energy sources of two generators, and a lower limit of one of them. -/
theorem update_comm_newMinimum :
    ∃ s₁' s₂', update .generator .newMinimum (twoGenerators (some 400.0)) = .ok () s₁' ∧
      update .generator .newTargets s₁' = .ok () s₂' ∧
      s₂'.store = ((Operation.update .generator .newMinimum).after
        ((Operation.update .generator .newTargets).after (twoGenerators (some 400.0)))).store ∧
      s₂'.session.missingBases = ((Operation.update .generator .newMinimum).after
        ((Operation.update .generator .newTargets).after
          (twoGenerators (some 400.0)))).session.missingBases :=
  update_comm (reachable_twoGenerators (some 400.0)) (by decide) (by decide)
    (fun _ => by decide) (fun _ => by decide) (run_eq_ok_stateAfter (by decide +kernel))
    (run_eq_ok_stateAfter (by decide +kernel))

end Session

end PowerTables
