import PowerTables.Proofs.PerUnit.Conversion
import PowerTables.Proofs.Session.Writing
import PowerTables.Proofs.Table.Join

/-!
# The table that is written

A table in per-unit is turned into the one that is written in four steps: the columns that
voltages are read from are brought in, the columns that have a rule are converted, what was
brought in is taken out again, and the rows of known elements without voltage are left out.
Here the steps are put together.

## Main definitions

* `SessionState.levels` : the nominal voltages that the rules of a category need.
* `SessionState.joined` : a table with the columns that voltages are read from.
* `SessionState.physical` : a table with its columns converted.
* `SessionState.Skips` : the rows of a key are left out.
* `SessionState.written` : the table that is written.

## Main results

* `Session.toPhysical_spec`, `Session.exists_toPhysical` : the table that is written.
* `Session.update_cases` : a writing records its report, or it fails and records nothing.
* `Session.update_ok` : what a successful writing says, and does to the store.
-/

namespace PowerTables

/-! ### Columns that are brought in -/

namespace Table

theorem mapFirst_append {index : List RowKey} {kept added : List Column} {f : Column → Column}
    (h : ∀ c ∈ added, f c = c) :
    mapFirst f ⟨index, kept ++ added⟩ = ⟨index, (mapFirst f ⟨index, kept⟩).columns ++ added⟩ := by
  suffices hcolumns : (mapFirst f ⟨index, kept ++ added⟩).columns =
      (mapFirst f ⟨index, kept⟩).columns ++ added from congrArg (Table.mk index) hcolumns
  ext i : 1
  rw [getElem?_mapFirst]
  by_cases hi : i < kept.length
  · have hplace : place ⟨index, kept ++ added⟩ kept[i].name =
        place ⟨index, kept⟩ kept[i].name := by
      rw [place, place, List.findIdx_append, if_pos]
      exact List.findIdx_lt_length_of_exists ⟨kept[i], List.getElem_mem hi, by simp⟩
    rw [List.getElem?_append_left hi, List.getElem?_append_left (by simpa [mapFirst] using hi),
      getElem?_mapFirst]
    simp [hi, hplace]
  · have hlength : (mapFirst f ⟨index, kept⟩).columns.length = kept.length := by simp [mapFirst]
    have hi' : (mapFirst f ⟨index, kept⟩).columns.length ≤ i := by omega
    rw [List.getElem?_append_right (by omega), List.getElem?_append_right hi', hlength]
    cases hc : added[i - kept.length]? with
    | none => rfl
    | some c => simp [h c (List.mem_of_getElem? hc)]

end Table

namespace SessionState

variable {s : SessionState}

/-- The nominal voltages that the rules of a category need; none are read without need. -/
def levels (s : SessionState) (c : Category) : VoltageLevels :=
  if c.needsVoltageLevels then .ofTable (s.tables .voltageLevel) else {}

/-- A table with the columns of the store that its voltages are read from. -/
def joined (s : SessionState) (c : Category) (t : Table) : Table :=
  t.joined (s.tables c) (c.baseColumns t.columnNames)

/-- A table with its columns converted at the voltages that are found. -/
def physical (s : SessionState) (c : Category) (t : Table) : Table :=
  t.mapFirst (Table.convertedColumn s.session.perUnit (s.levels c) .fromPerUnit c.rules
    (s.joined c t))

/-- A key is known, and one of its rows has a converted cell for which no voltage is found. -/
def Skips (s : SessionState) (c : Category) (t : Table) (key : RowKey) : Prop :=
  key ∈ (s.tables c).index ∧ ∃ rule ∈ c.rules, ∃ p < t.size, t.index[p]? = some key ∧
    rule.LacksBase (s.levels c) (s.joined c t) p

instance (s : SessionState) (c : Category) (t : Table) (key : RowKey) :
    Decidable (s.Skips c t key) :=
  inferInstanceAs (Decidable (_ ∧ ∃ rule ∈ c.rules, ∃ p, p < t.size ∧ _))

/-- The converted columns of a table, without the rows of the keys that are left out. -/
def written (s : SessionState) (c : Category) (t : Table) : Table :=
  (s.physical c t).rowsWhere fun p => (t.index[p]?).any fun key => ¬s.Skips c t key

theorem signature_physical (s : SessionState) (c : Category) (t : Table) :
    (s.physical c t).signature = t.signature :=
  Table.map_mapFirst _ fun col _ =>
    congrArg (fun e => (e.1, e.2.1)) (Table.shape_convertedColumn col)

theorem signature_written (s : SessionState) (c : Category) (t : Table) :
    (s.written c t).signature = t.signature := by
  rw [written, Table.signature_rowsWhere, signature_physical]

theorem mem_index_of_written {c : Category} {t : Table} {key : RowKey}
    (h : key ∈ (s.written c t).index) : key ∈ t.index := by
  obtain ⟨p, hp, -⟩ := Table.mem_index_rowsWhere.mp h
  exact List.mem_of_getElem? hp

theorem WellFormed.mem_columnNames_of_baseColumns (hs : s.WellFormed) {c : Category}
    {present : List String} {name : String} (h : name ∈ c.baseColumns present) :
    name ∈ (s.tables c).columnNames := by
  obtain ⟨rule, hrule, -, hname⟩ := Category.mem_baseColumns.mp h
  have hspec := Category.schema_of_source hrule
  rw [(hs.tables c).mem_columnNames_iff]
  cases hsource : rule.source with
  | none =>
    rw [hsource] at hname
    cases hname
  | voltageLevel column =>
    rw [hsource] at hspec hname
    obtain rfl := Option.some.inj hname
    exact ⟨_, hspec⟩
  | rowColumn column =>
    rw [hsource] at hspec hname
    obtain rfl := Option.some.inj hname
    exact ⟨_, hspec⟩

end SessionState

namespace Session

variable {s : SessionState}

theorem context_run (s : SessionState) : context s = .ok s.session.perUnit s := rfl

theorem withBaseColumns_run (hs : s.WellFormed) (c : Category) (t : Table) :
    withBaseColumns c t s =
      .ok (s.joined c t, t.lacking (c.baseColumns t.columnNames)) s := by
  have hjoin := Table.join_eq (t := t) (hs.tables c).rectangular
    (fun name hname => hs.mem_columnNames_of_baseColumns hname)
    (c.nodup_baseColumns t.columnNames)
  rw [withBaseColumns]
  split
  · next hempty =>
    rw [List.isEmpty_iff] at hempty
    rw [SessionState.joined, hempty]
    simp [Table.joined, Table.lacking]
    rfl
  · rw [run_bind_of_ok (storedTable_run hs c), hjoin]
    rfl

theorem voltageLevels_run (hs : s.WellFormed) (c : Category) :
    voltageLevels c s = .ok (s.levels c) s := by
  rw [voltageLevels, SessionState.levels]
  split
  · rw [run_bind_of_ok (storedTable_run hs .voltageLevel)]
    rfl
  · rfl

theorem converted_run (hs : s.WellFormed) (c : Category) (direction : Direction) (t : Table) :
    converted c direction t s =
      match convert s.session.perUnit c (s.levels c) direction t with
      | .ok r => .ok r s
      | .error e => .error (.table e) s := by
  rw [converted, run_bind_of_ok (voltageLevels_run hs c)]
  change ofTable (convert s.session.perUnit c (s.levels c) direction t) s = _
  cases convert s.session.perUnit c (s.levels c) direction t <;> rfl

/-- What a conversion brought in can be taken out again. -/
theorem foldl_removeColumn_converted (hs : s.WellFormed) (c : Category) (t : Table) :
    (t.lacking (c.baseColumns t.columnNames)).foldl Table.removeColumn
        ((s.joined c t).converted s.session.perUnit (s.levels c) .fromPerUnit c.rules) =
      s.physical c t := by
  have hsource : ∀ name ∈ c.baseColumns t.columnNames, name ∈ (s.tables c).columnNames :=
    fun name hname => hs.mem_columnNames_of_baseColumns hname
  have hlacking : ∀ name ∈ t.lacking (c.baseColumns t.columnNames),
      name ∈ (s.tables c).columnNames := fun name hname =>
    hsource name (Table.mem_lacking.mp hname).1
  have hadded : ∀ col ∈ (t.lacking (c.baseColumns t.columnNames)).filterMap
      ((s.tables c).joinedColumn? t.index),
      col.name ∈ t.lacking (c.baseColumns t.columnNames) := fun col hcol => by
    have := List.mem_map_of_mem (f := Column.name) hcol
    rwa [Table.map_name_joinedColumns hlacking] at this
  have hconverted : (s.joined c t).converted s.session.perUnit (s.levels c) .fromPerUnit c.rules =
      ⟨t.index, (s.physical c t).columns ++ (t.lacking (c.baseColumns t.columnNames)).filterMap
        ((s.tables c).joinedColumn? t.index)⟩ := by
    rw [Table.converted]
    refine Table.mapFirst_append fun col hcol => Table.convertedColumn_of_notMem fun hmem => ?_
    -- what is brought in is read by a rule, so no rule converts it
    obtain ⟨hneeded, -⟩ := Table.mem_lacking.mp (hadded col hcol)
    obtain ⟨rule, hrule, -, hname⟩ := Category.mem_baseColumns.mp hneeded
    obtain ⟨rule', hrule', heq⟩ := List.mem_map.mp hmem
    exact Category.source_ne_ruleColumn hrule hrule' (hname.trans (congrArg some heq.symm))
  have hnames : (s.physical c t).columnNames = t.columnNames :=
    Table.columnNames_mapFirst fun col _ => Table.name_convertedColumn col
  have hapart : ∀ col ∈ (t.lacking (c.baseColumns t.columnNames)).filterMap
      ((s.tables c).joinedColumn? t.index), ∀ d ∈ (s.physical c t).columns, d.name ≠ col.name := by
    intro col hcol d hd heq
    refine (Table.mem_lacking.mp (hadded col hcol)).2 ?_
    rw [← hnames, ← heq]
    exact Table.mem_columnNames_iff.mpr ⟨d, hd, rfl⟩
  have hremove := Table.foldl_removeColumn t.index hapart
  rw [Table.map_name_joinedColumns hlacking] at hremove
  rw [hconverted, hremove]
  rfl

theorem mem_unresolved_iff {c : Category} {t u : Table} {report : ConversionReport}
    (h : convert s.session.perUnit c (s.levels c) .fromPerUnit (s.joined c t) = .ok (u, report))
    {key : RowKey} :
    key ∈ report.unresolved.filter (s.tables c).index.contains ↔ s.Skips c t key := by
  rw [List.mem_filter, List.contains_iff_mem, (convert_spec h).2, SessionState.Skips, and_comm]
  refine and_congr_right fun _ => ?_
  constructor
  · rintro ⟨rule, hrule, p, hkey, hbase⟩
    exact ⟨rule, hrule, p, (List.getElem?_eq_some_iff.mp hkey).1, hkey, hbase⟩
  · rintro ⟨rule, hrule, p, -, hkey, hbase⟩
    exact ⟨rule, hrule, p, hkey, hbase⟩

theorem not_skips_of_isEmpty {c : Category} {t u : Table} {report : ConversionReport}
    (h : convert s.session.perUnit c (s.levels c) .fromPerUnit (s.joined c t) = .ok (u, report))
    (hempty : report.unresolved.isEmpty = true) (key : RowKey) : ¬s.Skips c t key := by
  rw [← mem_unresolved_iff h, List.isEmpty_iff.mp hempty]
  simp

theorem withoutUnresolved_run (hs : s.WellFormed) (c : Category) (unresolved : List RowKey)
    (t : Table) :
    withoutUnresolved c unresolved t s =
      if unresolved.isEmpty then .ok t s
      else match t.filterRows fun key =>
          !(unresolved.filter (s.tables c).index.contains).contains key with
        | .ok u => .ok u s
        | .error e => .error (.table e) s := by
  rw [withoutUnresolved]
  split
  · rfl
  · refine (run_bind_of_ok (storedTable_run hs c)).trans ?_
    cases t.filterRows fun key =>
      !(unresolved.filter (s.tables c).index.contains).contains key <;> rfl

theorem toPhysical_run (hs : s.WellFormed) (c : Category) (t : Table) :
    toPhysical c t s =
      match convert s.session.perUnit c (s.levels c) .fromPerUnit (s.joined c t) with
      | .error e => .error (.table e) s
      | .ok (_, report) => match withoutUnresolved c report.unresolved (s.physical c t) s with
        | .ok kept s' => .ok (kept, report) s'
        | .error e s' => .error e s' := by
  have hconverted := converted_run hs c .fromPerUnit (s.joined c t)
  rw [toPhysical, run_bind_of_ok (withBaseColumns_run hs c t)]
  cases hrun : convert s.session.perUnit c (s.levels c) .fromPerUnit (s.joined c t) with
  | error e =>
    rw [hrun] at hconverted
    exact run_bind_of_error hconverted
  | ok r =>
    obtain ⟨u, report⟩ := r
    rw [hrun] at hconverted
    obtain ⟨rfl, -⟩ := convert_spec hrun
    refine (run_bind_of_ok hconverted).trans ?_
    change (withoutUnresolved c report.unresolved (List.foldl Table.removeColumn _ _) >>=
      fun kept => pure (kept, report)) s = _
    rw [foldl_removeColumn_converted hs]
    cases hkept : withoutUnresolved c report.unresolved (s.physical c t) s with
    | ok kept s' =>
      simp only [run_bind_of_ok hkept, hkept]
      rfl
    | error e s' => simp only [run_bind_of_error hkept, hkept]

theorem keeps_eq {c : Category} {t u : Table} {report : ConversionReport}
    (h : convert s.session.perUnit c (s.levels c) .fromPerUnit (s.joined c t) = .ok (u, report)) :
    (fun key => !(report.unresolved.filter (s.tables c).index.contains).contains key) =
      fun key => decide ¬s.Skips c t key := by
  funext key
  have hmem : _ ↔ s.Skips c t key := mem_unresolved_iff h
  by_cases hskips : s.Skips c t key
  · simp [hskips, hmem.mpr hskips]
  · simp [hskips, mt hmem.mp hskips]

/-- The table that is written has the converted columns, without the rows of the keys that are
left out. -/
theorem toPhysical_spec (hs : s.WellFormed) {c : Category} {t u : Table}
    {report : ConversionReport} {s' : SessionState}
    (h : toPhysical c t s = .ok (u, report) s') :
    s' = s ∧ ((u = s.physical c t ∧ ∀ key, ¬s.Skips c t key) ∨ u = s.written c t) := by
  rw [toPhysical_run hs] at h
  cases hrun : convert s.session.perUnit c (s.levels c) .fromPerUnit (s.joined c t) with
  | error e => simp [hrun] at h
  | ok r =>
    obtain ⟨v, report'⟩ := r
    simp only [hrun, withoutUnresolved_run hs, keeps_eq hrun] at h
    by_cases hempty : report'.unresolved.isEmpty = true
    · rw [if_pos hempty] at h
      cases h
      exact ⟨rfl, .inl ⟨rfl, not_skips_of_isEmpty hrun hempty⟩⟩
    · rw [if_neg hempty] at h
      cases hfilter : (s.physical c t).filterRows fun key => decide ¬s.Skips c t key with
      | error e =>
        simp only [hfilter] at h
        cases h
      | ok kept =>
        simp only [hfilter] at h
        cases h
        exact ⟨rfl, .inr (Table.filterRows_spec hfilter)⟩

/-- The report is that of the conversion.  Where it names no row, none is left out. -/
theorem convert_of_toPhysical (hs : s.WellFormed) {c : Category} {t u : Table}
    {report : ConversionReport} {s' : SessionState}
    (h : toPhysical c t s = .ok (u, report) s') :
    (∃ v, convert s.session.perUnit c (s.levels c) .fromPerUnit (s.joined c t) =
      .ok (v, report)) ∧ (report.unresolved = [] → u = s.physical c t) := by
  rw [toPhysical_run hs] at h
  cases hrun : convert s.session.perUnit c (s.levels c) .fromPerUnit (s.joined c t) with
  | error e => simp [hrun] at h
  | ok r =>
    obtain ⟨v, report'⟩ := r
    simp only [hrun, withoutUnresolved_run hs] at h
    split at h
    · next hkept =>
      cases h
      refine ⟨⟨v, rfl⟩, fun hempty => ?_⟩
      rw [hempty, List.isEmpty_nil, if_pos rfl] at hkept
      cases hkept
      rfl
    · cases h

theorem signature_of_toPhysical (hs : s.WellFormed) {c : Category} {t u : Table}
    {report : ConversionReport} {s' : SessionState}
    (h : toPhysical c t s = .ok (u, report) s') : u.signature = t.signature := by
  obtain ⟨-, ⟨rfl, -⟩ | rfl⟩ := toPhysical_spec hs h
  · exact s.signature_physical c t
  · exact s.signature_written c t

theorem isRectangular_physical {c : Category} {t : Table} (ht : t.IsRectangular) :
    (s.physical c t).IsRectangular :=
  ht.mapFirst Table.length_convertedColumn

/-- A table whose columns are as long as the index has a table that is written for it. -/
theorem exists_toPhysical (hs : s.WellFormed) (c : Category) {t : Table}
    (ht : t.IsRectangular) :
    ∃ report, toPhysical c t s = .ok (s.written c t, report) s := by
  have hphysical := isRectangular_physical (s := s) (c := c) ht
  obtain ⟨report, hrun⟩ := exists_convert s.session.perUnit c (s.levels c) .fromPerUnit
    (ht.joined (s.tables c) (c.baseColumns t.columnNames))
  change convert s.session.perUnit c (s.levels c) .fromPerUnit (s.joined c t) = _ at hrun
  refine ⟨report, ?_⟩
  simp only [toPhysical_run hs, hrun, withoutUnresolved_run hs, keeps_eq hrun,
    Table.filterRows_eq hphysical]
  by_cases hempty : report.unresolved.isEmpty = true
  · have hall : s.written c t = s.physical c t := by
      refine Table.rowsWhere_eq_self hphysical fun p hp => ?_
      have hkey : t.index[p]? = some _ := List.getElem?_eq_getElem hp
      simp only [hkey, Option.any_some, not_skips_of_isEmpty hrun hempty, not_false_eq_true,
        decide_true]
    rw [if_pos hempty, hall]
  · rw [if_neg hempty]
    rfl

/-- Where no table can be written, nothing is changed. -/
theorem toPhysical_error {c : Category} {t : Table} {e : SessionError} {s' : SessionState}
    (h : toPhysical c t s = .error e s') : s' = s := by
  rw [← stateAfter_error h]
  exact (relates_eq_toPhysical c t s).symm

/-! ### Writings in closed form -/

/-- A session after a conversion was recorded. -/
def recorded (session : Session) (report : ConversionReport) : Session :=
  { session with
    missingBases := session.missingBases + report.missingBases
    diagnostics := report.diagnostics }

section Update

variable {c : Category} {t u : Table} {report : ConversionReport}

theorem update_of_error (hon : s.session.perUnit.enabled = true)
    {e : SessionError} (h : toPhysical c t s = .error e s) : update c t s = .error e s := by
  rw [update, run_bind_of_ok (context_run s), if_pos hon]
  exact run_bind_of_error h

theorem update_of_physical (hon : s.session.perUnit.enabled = true)
    (h : toPhysical c t s = .ok (u, report) s) :
    update c t s = (writeTable c u >>= fun _ => record report) s := by
  rw [update, run_bind_of_ok (context_run s), if_pos hon]
  exact run_bind_of_ok h

theorem update_of_accepts (hs : s.WellFormed) (hon : s.session.perUnit.enabled = true)
    (h : toPhysical c t s = .ok (u, report) s)
    (hall : ∀ col ∈ u.columns, c.Accepts (s.tables c) u.index col) :
    update c t s = .ok () ⟨s.session.recorded report,
      (s.setTables (s.tables.set c ((s.tables c).putAll u.index u.columns))).store⟩ := by
  have hwrite := writeTable_of_accepts hs hall
  have hrecord (x : SessionState) :
      record report x = .ok () ⟨x.session.recorded report, x.store⟩ := rfl
  rw [update_of_physical hon h, run_bind_of_ok hwrite, hrecord,
    SessionState.session_setTables]

theorem update_of_not_accepts (hs : s.WellFormed) (hon : s.session.perUnit.enabled = true)
    (h : toPhysical c t s = .ok (u, report) s)
    (hall : ¬∀ col ∈ u.columns, c.Accepts (s.tables c) u.index col) :
    ∃ e, update c t s = .error e (s.setTables (s.tables.set c
      ((s.tables c).putAll u.index (accepted c (s.tables c) u)))) := by
  obtain ⟨e, he⟩ := writeTable_of_not_accepts hs hall
  exact ⟨e, (update_of_physical hon h).trans (run_bind_of_error he)⟩

/-- A writing in per-unit records its report and succeeds, or it fails and records nothing. -/
theorem update_cases (hs : s.WellFormed) (hon : s.session.perUnit.enabled = true) (c : Category)
    (t : Table) :
    (∃ u report s', toPhysical c t s = .ok (u, report) s ∧
      (∀ col ∈ u.columns, c.Accepts (s.tables c) u.index col) ∧
        update c t s = .ok () s' ∧ s'.session = s.session.recorded report) ∨
      ∃ e s', update c t s = .error e s' ∧ s'.session = s.session := by
  cases hrun : toPhysical c t s with
  | error e s' =>
    obtain rfl := toPhysical_error hrun
    exact .inr ⟨e, s', update_of_error hon hrun, rfl⟩
  | ok r s' =>
    obtain ⟨u, report⟩ := r
    obtain rfl : s = s' := (relates_eq_toPhysical c t s).trans (stateAfter_ok hrun)
    by_cases hall : ∀ col ∈ u.columns, c.Accepts (s.tables c) u.index col
    · exact .inl ⟨u, report, _, rfl, hall, update_of_accepts hs hon hrun hall, rfl⟩
    · obtain ⟨e, he⟩ := update_of_not_accepts hs hon hrun hall
      exact .inr ⟨e, _, he, SessionState.session_setTables s _⟩

/-- What a success says about the table that was written. -/
theorem update_ok (hs : s.WellFormed) (hon : s.session.perUnit.enabled = true)
    (ht : t.IsRectangular) {s' : SessionState} (h : update c t s = .ok () s') :
    (∀ col ∈ (s.written c t).columns, c.Accepts (s.tables c) (s.written c t).index col) ∧
      ∃ report, s' = ⟨s.session.recorded report, (s.setTables (s.tables.set c
        ((s.tables c).putAll (s.written c t).index (s.written c t).columns))).store⟩ := by
  obtain ⟨report, hphysical⟩ := exists_toPhysical hs c ht
  by_cases hall : ∀ col ∈ (s.written c t).columns,
      c.Accepts (s.tables c) (s.written c t).index col
  · rw [update_of_accepts hs hon hphysical hall] at h
    cases h
    exact ⟨hall, report, rfl⟩
  · obtain ⟨e, he⟩ := update_of_not_accepts hs hon hphysical hall
    rw [he] at h
    cases h

end Update

end Session

end PowerTables
