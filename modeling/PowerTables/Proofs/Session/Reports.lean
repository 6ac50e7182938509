import PowerTables.Proofs.PerUnit.Report
import PowerTables.Proofs.Session.Refusals
import PowerTables.Proofs.Session.Variants

/-!
# What a session counts and reports

A reading or a writing in per-unit that succeeds counts the cells for which it found no voltage,
those of rows that are left out included, and keeps an issue for each of them.  No other operation
counts anything.  This needs no assumption on the table that is written: where one of its columns
is too short for a voltage to be looked for in every row, the writing fails.

The issues that are kept are those of the latest call, unless this was a writing in per-unit that
failed: such a writing leaves the issues of an earlier call in place.

## Main definitions

* `Session.Operation.unresolvedCells` : the cells without voltage that an operation comes upon.
* `Session.Operation.issues` : the issues of an operation.

## Main results

* `Session.lists_of_update` : the report of a writing is one of the cells without voltage.
* `Session.Operation.missingBases_after` : what one operation counts.
* `Session.diagnostics_after_iff` : the issues that are kept after a reading or a writing.
-/

namespace PowerTables

namespace Session

open SessionState

variable {s s' : SessionState} {c : Category} {t u : Table} {report : ConversionReport}

/-! ### Readings and writings -/

/-- The report of a reading. -/
theorem lists_of_elements (hs : s.WellFormed) (hon : s.session.perUnit.enabled = true)
    (c : Category) : ∃ u report, elements c s = .ok u ⟨s.session.recorded report, s.store⟩ ∧
      report.Lists c (c.unresolvedCells (s.levels c) (s.tables c)) := by
  obtain ⟨report, hrun⟩ := exists_convert s.session.perUnit c (s.levels c) .toPerUnit
    (hs.tables c).rectangular
  have hcovers : ∀ rule ∈ c.rules, rule.Covers (s.levels c) (s.tables c) := fun _ _ =>
    ConversionRule.covers_of_isRectangular (hs.tables c).rectangular
  exact ⟨_, report, elements_of_convert hs hon hrun, convert_lists hcovers hrun⟩

/-- A table with a column of its own that voltages are read from is accepted only if all its
columns are as long as the index. -/
theorem isRectangular_of_ownVoltage (hs : s.WellFormed)
    (hphysical : toPhysical c t s = .ok (u, report) s)
    (hall : ∀ col ∈ u.columns, c.Accepts (s.tables c) u.index col) {rule : ConversionRule}
    (hrule : rule ∈ c.rules) {name : String} (hname : name ∈ rule.source.column?)
    (hown : name ∈ t.columnNames) : t.IsRectangular := by
  have hopen := c.column?_of_accepts (signature_of_toPhysical hs hphysical) hall
  obtain ⟨first, hfirst⟩ := Table.exists_column?_of_mem hown
  obtain ⟨hmem, rfl⟩ := Table.mem_of_column? hfirst
  -- the column is open to writes, so it holds the voltages of the rows themselves
  obtain ⟨hsource, htype⟩ := Category.rowColumn_of_open hrule hname (hopen first hmem)
  obtain ⟨values, hvalues⟩ : ∃ values, (s.joined c t).doubles? first.name = some values := by
    obtain ⟨name, type, values⟩ := first
    obtain rfl : type = .double := htype
    exact ⟨values, Table.doubles?_eq_some_iff.mpr ((Table.column?_joined_of_mem hown).trans hfirst)⟩
  obtain ⟨⟨v, hrun⟩, hphysical⟩ := convert_of_toPhysical hs hphysical
  have hnone : report.unresolved = [] := by
    refine List.eq_nil_iff_forall_not_mem.mpr fun key hkey => ?_
    obtain ⟨rule', hrule', p, -, hlacks⟩ := ((convert_spec hrun).2 key).mp hkey
    exact ConversionRule.not_lacksBase hvalues
      (Category.source_of_rowColumn hrule hrule' hsource) p hlacks
  obtain rfl := hphysical hnone
  intro col hcol
  have hlength : col.length ∈ (s.physical c t).columns.map Column.length := by
    rw [SessionState.physical, Table.map_mapFirst _ fun col _ => Table.length_convertedColumn col]
    exact List.mem_map_of_mem hcol
  obtain ⟨col', hcol', heq⟩ := List.mem_map.mp hlength
  exact heq.symm.trans (hall col' hcol').2.1.symm

/-- In a table that is accepted after its conversion, a voltage was looked for in every row. -/
theorem covers_of_accepts (hs : s.WellFormed) (hphysical : toPhysical c t s = .ok (u, report) s)
    (hall : ∀ col ∈ u.columns, c.Accepts (s.tables c) u.index col) {rule : ConversionRule}
    (hrule : rule ∈ c.rules) : rule.Covers (s.levels c) (s.joined c t) := by
  refine fun _ => Nat.le_of_eq (Eq.symm ?_)
  refine rule.length_bases_of_column? (s.levels c) fun name hname col hcol => ?_
  by_cases hown : name ∈ t.columnNames
  · have ht := isRectangular_of_ownVoltage hs hphysical hall hrule hname hown
    exact ht.joined (s.tables c) _ col (Table.mem_of_column? hcol).1
  · exact Table.length_of_column?_joined hown hcol

/-- The report of a writing that succeeds, whatever the table. -/
theorem lists_of_update (hs : s.WellFormed) (hon : s.session.perUnit.enabled = true)
    (h : update c t s = .ok () s') : ∃ report, s'.session = s.session.recorded report ∧
      report.Lists c (c.unresolvedCells (s.levels c) (s.joined c t)) := by
  rcases update_cases hs hon c t with
    ⟨u, report, s'', hphysical, hall, hrun, hsession⟩ | ⟨e, _, he, -⟩
  · cases hrun.symm.trans h
    obtain ⟨v, hconvert⟩ := (convert_of_toPhysical hs hphysical).1
    exact ⟨report, hsession,
      convert_lists (fun _ hrule => covers_of_accepts hs hphysical hall hrule) hconvert⟩
  · cases he.symm.trans h

/-- A writing in per-unit that fails leaves count and issues as they were. -/
theorem session_of_update_error (hs : s.WellFormed) (hon : s.session.perUnit.enabled = true)
    {e : SessionError} (h : update c t s = .error e s') : s'.session = s.session := by
  rcases update_cases hs hon c t with ⟨_, _, _, -, -, hrun, -⟩ | ⟨e, s'', he, hsession⟩
  · cases hrun.symm.trans h
  · cases he.symm.trans h
    exact hsession

/-- A writing in physical units only forgets the issues, whether it succeeds or not. -/
theorem session_after_update_off (hs : s.WellFormed) (hoff : s.session.perUnit.enabled = false)
    (c : Category) (t : Table) :
    (stateAfter (update c t) s).session = { s.session with diagnostics := [] } := by
  have hwf := wellFormed_withoutDiagnostics hs
  rw [stateAfter, update_off hoff]
  by_cases hall : ∀ col ∈ t.columns, c.Accepts
      (SessionState.tables ⟨{ s.session with diagnostics := [] }, s.store⟩ c) t.index col
  · rw [writeTable_of_accepts hwf hall]
    exact session_setTables _ _
  · obtain ⟨e, he⟩ := writeTable_of_not_accepts hwf hall
    rw [he]
    exact session_setTables _ _

/-! ### Operations -/

/-- The cells without voltage in the table that a call converts: the stored table of a reading,
and the given table of a writing, with the columns that voltages are read from. -/
def Operation.cellsWithoutBase (op : Operation) (s : SessionState) :
    List (ConversionRule × RowKey) :=
  match op with
  | .elements c => c.unresolvedCells (s.levels c) (s.tables c)
  | .update c t => c.unresolvedCells (s.levels c) (s.joined c t)
  | _ => []

/-- The cells without voltage that an operation comes upon.  Only a call in per-unit that succeeds
counts them. -/
def Operation.unresolvedCells (op : Operation) (s : SessionState) :
    List (ConversionRule × RowKey) :=
  if s.session.perUnit.enabled && succeeds op.run s then op.cellsWithoutBase s else []

/-- The issues of a reading or a writing: one for each cell without voltage. -/
def Operation.issues (op : Operation) (s : SessionState) : Diagnostics :=
  match op with
  | .elements c | .update c _ =>
    (op.unresolvedCells s).map fun cell => missingBaseIssue c cell.1 cell.2
  | _ => []

namespace Operation

theorem unresolvedCells_off (hoff : s.session.perUnit.enabled = false) (op : Operation) :
    op.unresolvedCells s = [] := by
  rw [unresolvedCells, hoff, Bool.false_and, if_neg Bool.false_ne_true]

theorem unresolvedCells_of_fails {op : Operation} (h : succeeds op.run s = false) :
    op.unresolvedCells s = [] := by
  rw [unresolvedCells, h, Bool.and_false, if_neg Bool.false_ne_true]

theorem unresolvedCells_of_nil {op : Operation} (h : op.cellsWithoutBase s = []) :
    op.unresolvedCells s = [] := by
  rw [unresolvedCells, h, ite_self]

/-- What a reading in per-unit records. -/
theorem lists_after_elements (hs : s.WellFormed) (hon : s.session.perUnit.enabled = true)
    (c : Category) : ∃ report,
      ((Operation.elements c).after s).session = s.session.recorded report ∧
        report.Lists c ((Operation.elements c).unresolvedCells s) := by
  obtain ⟨u, report, hrun, hlists⟩ := lists_of_elements hs hon c
  have hdiscard : (Operation.elements c).run s =
      .ok () ⟨s.session.recorded report, s.store⟩ := run_bind_of_ok hrun
  refine ⟨report, by rw [after, stateAfter_ok hdiscard], ?_⟩
  have hsucceeds : succeeds (Operation.elements c).run s = true := by rw [succeeds, hdiscard]
  rwa [unresolvedCells, hon, hsucceeds]

/-- What a writing in per-unit that succeeds records. -/
theorem lists_after_update (hs : s.WellFormed) (hon : s.session.perUnit.enabled = true)
    (hsucceeds : succeeds (Operation.update c t).run s = true) : ∃ report,
      ((Operation.update c t).after s).session = s.session.recorded report ∧
        report.Lists c ((Operation.update c t).unresolvedCells s) := by
  obtain ⟨report, hsession, hlists⟩ := lists_of_update hs hon (run_eq_ok_stateAfter hsucceeds)
  refine ⟨report, hsession, ?_⟩
  rwa [unresolvedCells, hon, hsucceeds]

/-- A writing in per-unit that fails leaves count and issues as they were. -/
theorem session_after_update_of_fails (hs : s.WellFormed) (hon : s.session.perUnit.enabled = true)
    (hfails : succeeds (Operation.update c t).run s = false) :
    ((Operation.update c t).after s).session = s.session := by
  cases hrun : (Operation.update c t).run s with
  | ok a s' =>
    rw [succeeds, hrun] at hfails
    cases hfails
  | error e s' =>
    rw [after, stateAfter_error hrun]
    exact session_of_update_error hs hon hrun

/-- A change of the network leaves the session alone. -/
theorem session_after_onNetwork {α : Type} (op : Nat → StoreM α) (s : SessionState) :
    (stateAfter (discard (onNetwork op)) s).session = s.session := by
  rw [stateAfter_discard, stateAfter, onNetwork_run]
  cases op s.session.handle s.store <;> rfl

/-- A change of the variants leaves the session alone. -/
theorem session_after_variants (hs : s.WellFormed) (op : VariantOperation) :
    (stateAfter (Session.variants >>= fun v => op.through v) s).session = s.session := by
  obtain ⟨n, hn, -⟩ := hs.exists_network
  change (stateAfter (op.through ⟨s.session.handle⟩) s).session = s.session
  rw [stateAfter, VariantOperation.through_eq hn]
  cases op.result n <;> rfl

/-- An operation adds to the count the number of cells without voltage that it comes upon. -/
theorem missingBases_after (hs : s.WellFormed) (op : Operation) :
    (op.after s).session.missingBases =
      s.session.missingBases + (op.unresolvedCells s).length := by
  have hkeeps (hcells : op.unresolvedCells s = [])
      (h : (op.after s).session.missingBases = s.session.missingBases) :
      (op.after s).session.missingBases =
        s.session.missingBases + (op.unresolvedCells s).length := by
    rw [h, hcells, List.length_nil, Nat.add_zero]
  cases op with
  | elements c =>
    cases hon : s.session.perUnit.enabled with
    | true =>
      obtain ⟨report, hsession, hlists⟩ := lists_after_elements hs hon c
      rw [hsession, recorded, hlists.missingBases]
    | false =>
      refine hkeeps (unresolvedCells_off hon _) ?_
      have hrun : (Operation.elements c).run s =
          .ok () ⟨{ s.session with diagnostics := [] }, s.store⟩ :=
        run_bind_of_ok (elements_off hs hon c)
      rw [after, stateAfter_ok hrun]
  | update c t =>
    cases hon : s.session.perUnit.enabled with
    | true =>
      cases hsucceeds : succeeds (Operation.update c t).run s with
      | true =>
        obtain ⟨report, hsession, hlists⟩ := lists_after_update hs hon hsucceeds
        rw [hsession, recorded, hlists.missingBases]
      | false =>
        refine hkeeps (unresolvedCells_of_fails hsucceeds) ?_
        rw [session_after_update_of_fails hs hon hsucceeds]
    | false =>
      refine hkeeps (unresolvedCells_off hon _) ?_
      change (stateAfter (Session.update c t) s).session.missingBases = _
      rw [session_after_update_off hs hon]
  | setPerUnit enabled => exact hkeeps (unresolvedCells_of_nil rfl) rfl
  | setPowerBase value =>
    refine hkeeps (unresolvedCells_of_nil rfl) ?_
    change (stateAfter (context >>= _) s).session.missingBases = _
    rw [stateAfter, run_bind_of_ok (context_run s)]
    cases s.session.perUnit.withPowerBase? value <;> rfl
  | openSwitch id | closeSwitch id | connect id | disconnect id =>
    exact hkeeps (unresolvedCells_of_nil rfl)
      (congrArg Session.missingBases (session_after_onNetwork _ s))
  | cloneVariant source target mayOverwrite =>
    exact hkeeps (unresolvedCells_of_nil rfl) (congrArg Session.missingBases
      (session_after_variants hs (.clone source target mayOverwrite)))
  | selectVariant id =>
    exact hkeeps (unresolvedCells_of_nil rfl)
      (congrArg Session.missingBases (session_after_variants hs (.select id)))
  | removeVariant id =>
    exact hkeeps (unresolvedCells_of_nil rfl)
      (congrArg Session.missingBases (session_after_variants hs (.remove id)))

end Operation

/-! ### The issues that are kept -/

/-- After a reading, the issues are those of this reading.  After a writing they are those of this
writing, unless it was one in per-unit that failed: then there are none to keep, and the issues of
an earlier call stay. -/
theorem diagnostics_after_iff (hs : s.Reachable) (c : Category) :
    ((Operation.elements c).after s).session.diagnostics = (Operation.elements c).issues s ∧
      ∀ t, ((Operation.update c t).after s).session.diagnostics = (Operation.update c t).issues s ↔
        (s.session.perUnit.enabled = true → succeeds (Operation.update c t).run s = false →
          s.session.diagnostics = []) := by
  have hwf := hs.wellFormed
  cases hon : s.session.perUnit.enabled with
  | false =>
    have hnone (op : Operation) : op.unresolvedCells s = [] := Operation.unresolvedCells_off hon op
    refine ⟨?_, fun t => iff_of_true ?_ fun h => absurd h Bool.false_ne_true⟩
    · rw [Operation.issues, hnone, List.map_nil, Operation.after, Operation.run,
        stateAfter_discard, stateAfter_ok (elements_off hwf hon c)]
    · rw [Operation.issues, hnone, List.map_nil, Operation.after, Operation.run,
        session_after_update_off hwf hon]
  | true =>
    refine ⟨?_, fun t => ?_⟩
    · obtain ⟨report, hsession, hlists⟩ := Operation.lists_after_elements hwf hon c
      rw [hsession, recorded, hlists.diagnostics, Operation.issues]
    · cases hsucceeds : succeeds (Operation.update c t).run s with
      | true =>
        obtain ⟨report, hsession, hlists⟩ := Operation.lists_after_update hwf hon hsucceeds
        refine iff_of_true ?_ fun _ h => absurd h.symm Bool.false_ne_true
        rw [hsession, recorded, hlists.diagnostics, Operation.issues]
      | false =>
        rw [Operation.session_after_update_of_fails hwf hon hsucceeds, Operation.issues,
          Operation.unresolvedCells_of_fails hsucceeds, List.map_nil]
        exact ⟨fun h _ _ => h, fun h => h rfl rfl⟩

theorem diagnostics_after_newTargets :
    ((Operation.update .generator .newTargets).after
        (twoGenerators (some 400.0))).session.diagnostics =
      (Operation.update .generator .newTargets).issues (twoGenerators (some 400.0)) :=
  ((diagnostics_after_iff (reachable_twoGenerators (some 400.0)) .generator).2 .newTargets).mpr
    fun _ hfails => absurd (hfails.symm.trans (by decide +kernel)) Bool.false_ne_true

/-- A writing that names an unknown element fails, and the issues of the reading before it stay. -/
theorem diagnostics_after_strayTargets :
    let read := (Operation.elements .generator).after (twoGenerators (some 400.0))
    read.Reachable ∧ succeeds (update .generator .strayTargets) read = false ∧
      (Operation.update .generator .strayTargets).issues read = [] ∧
      ((Operation.update .generator .strayTargets).after read).session.diagnostics ≠ [] := by
  refine ⟨.after _ (reachable_twoGenerators _), ?_, ?_, ?_⟩ <;> decide +kernel

end Session

end PowerTables
