import PowerTables.Proofs.Session.Effect
import PowerTables.Proofs.Session.Reports
import PowerTables.Proofs.Table.Rearrangement

/-!
# Writings of rearranged tables

A writing does not depend on the order of the rows and of the columns of its table, as long as the
keys of the rows and the names of the columns are apart.  Each step of a writing is told by the
cells of the table, by key and name: the columns that are brought in, the conversion, which reads
all its voltages before any cell is stored, the rows that are left out, and the cells that are
stored.

## Main definitions

* `SessionState.dispatched` : the table whose columns a writing hands over.

## Main results

* `Table.SameCells.forall_accepts_iff`, `Table.SameCells.putAll_eq` : what is accepted and stored.
* `SessionState.sameCells_dispatched` : what is handed over.
* `Table.SameCells.length_unresolvedCells` : what is counted.
* `Session.update_rearranged` : writings of rearranged tables.
-/

namespace PowerTables

/-! ### What is accepted and stored -/

namespace Table

variable {c : Category} {stored t u : Table}

/-- The columns of a table give to a row the cell of its key. -/
theorem IsKeyed.lastWritten?_eq_some_iff (ht : t.IsKeyed) {p : Nat} {name : String} {cell : Cell} :
    stored.lastWritten? t.index t.columns p name = some cell ↔
      ∃ key, stored.position? key = some p ∧ t.cell? key name = some cell := by
  constructor
  · intro h
    obtain ⟨col, hfind, hlast⟩ := Option.bind_eq_some_iff.mp h
    obtain ⟨key, hzip, hp⟩ := mem_of_lastFor? hlast
    exact ⟨key, hp, ht.cell?_eq_some_iff.mpr ⟨col,
      List.mem_reverse.mp (List.mem_of_find?_eq_some hfind),
      by simpa using List.find?_some hfind, hzip⟩⟩
  · rintro ⟨key, hp, hcell⟩
    obtain ⟨col, hcol, rfl, hzip⟩ := ht.cell?_eq_some_iff.mp hcell
    rw [lastWritten?_of_mem stored t.index ht.names hcol]
    refine lastFor?_eq_some hzip hp ?_
    rintro ⟨key', cell'⟩ hzip' hp'
    obtain rfl : key' = key := eq_of_position? hp' hp
    have hcell' := ht.cell?_eq_some_iff.mpr ⟨col, hcol, rfl, hzip'⟩
    exact Option.some.inj (hcell'.symm.trans hcell)

namespace SameCells

variable (h : t.SameCells u) (ht : t.IsKeyed) (hu : u.IsKeyed)

include h ht hu

/-- Tables with the same cells are accepted alike. -/
theorem forall_accepts_iff : (∀ col ∈ u.columns, c.Accepts stored u.index col) ↔
    ∀ col ∈ t.columns, c.Accepts stored t.index col := by
  have hopen (v : Table) :
      (∀ col ∈ v.columns, c.column? col.name = some ⟨col.name, col.type, true⟩) ↔
        ∀ e ∈ v.signature, c.column? e.1 = some ⟨e.1, e.2, true⟩ := by
    rw [Table.signature, List.forall_mem_map]
  have hempty (v : Table) : v.columns ≠ [] ↔ v.signature ≠ [] := by
    rw [Table.signature, ne_eq, ne_eq, List.map_eq_nil_iff]
  have hnil : u.signature = [] ↔ t.signature = [] := by
    rw [← List.length_eq_zero_iff, h.signature.length_eq, List.length_eq_zero_iff]
  rw [Table.forall_accepts_iff hu.rectangular, Table.forall_accepts_iff ht.rectangular, hopen u,
    hopen t, hempty u, hempty t]
  simp only [h.signature.mem_iff, h.index.mem_iff, ne_eq, hnil]

/-- Tables with the same cells leave the same table when they are stored. -/
theorem putAll_eq (hstored : stored.Fits c)
    (hall : ∀ col ∈ t.columns, c.Accepts stored t.index col) :
    stored.putAll u.index u.columns = stored.putAll t.index t.columns := by
  have hall' := (h.forall_accepts_iff ht hu).mpr hall
  have hshape := sameShape_putAll hstored hall
  have hshape' := sameShape_putAll hstored hall'
  refine ext_cellAt (hshape'.index.trans hshape.index.symm)
    (hshape'.signature.trans hshape.signature.symm)
    (hshape'.columnNames ▸ hstored.nodup_columnNames) fun p name _ => ?_
  rw [cellAt?_putAll hstored hall', cellAt?_putAll hstored hall]
  congr 1
  ext cell
  rw [hu.lastWritten?_eq_some_iff, ht.lastWritten?_eq_some_iff]
  simp only [h.cell?]

end SameCells

/-! ### What is converted and counted -/

/-- A conversion is told by the cells. -/
theorem SameCells.converted (h : t.SameCells u) (ht : t.IsKeyed) (hu : u.IsKeyed)
    (ctx : PerUnitContext) (levels : VoltageLevels) (direction : Direction)
    (rules : List ConversionRule) : SameCells (t.converted ctx levels direction rules)
      (u.converted ctx levels direction rules) := by
  refine ⟨h.index, ?_, fun key name => ?_⟩
  · rw [signature_converted, signature_converted]
    exact h.signature
  · have hrow : u.cell? key = t.cell? key := funext (h.cell? key)
    by_cases hkey : key ∈ t.index
    · rw [cell?_converted ht.rectangular hkey,
        cell?_converted hu.rectangular (h.index.mem_iff.mpr hkey), hrow]
    · have hkey' : key ∉ u.index := mt h.index.mem_iff.mp hkey
      rw [cell?_eq_none_of_notMem (t := t.converted ctx levels direction rules) hkey,
        cell?_eq_none_of_notMem (t := u.converted ctx levels direction rules) hkey']

/-- The rows without voltage are told by their keys. -/
theorem IsKeyed.unresolvedRows_eq (ht : t.IsKeyed) (rule : ConversionRule)
    (levels : VoltageLevels) : rule.unresolvedRows levels t =
      if (t.doubles? rule.column).isSome then
        t.index.filter fun key => (rule.baseOf levels (t.cell? key)).isNone
      else [] := by
  rw [ConversionRule.unresolvedRows]
  congr 1
  exact pick_eq_filter fun p key hp => by rw [ht.cell?_of_getElem? hp]

/-- In tables with the same cells, there are as many without voltage. -/
theorem SameCells.length_unresolvedCells (h : t.SameCells u) (ht : t.IsKeyed) (hu : u.IsKeyed)
    (c : Category) (levels : VoltageLevels) :
    (c.unresolvedCells levels u).length = (c.unresolvedCells levels t).length := by
  have hrow (key : RowKey) : u.cell? key = t.cell? key := funext (h.cell? key)
  have hrows (rule : ConversionRule) :
      (rule.unresolvedRows levels u).Perm (rule.unresolvedRows levels t) := by
    rw [hu.unresolvedRows_eq, ht.unresolvedRows_eq, h.isSome_doubles?_eq ht hu]
    simp only [hrow]
    split
    · exact h.index.filter _
    · exact .refl _
  rw [Category.unresolvedCells, Category.unresolvedCells, List.length_flatMap, List.length_flatMap]
  refine congrArg List.sum (List.map_congr_left fun rule _ => ?_)
  rw [List.length_map, List.length_map, (hrows rule).length_eq]

end Table

/-! ### What is handed over -/

theorem Category.baseColumns_perm (c : Category) {names names' : List String}
    (h : names.Perm names') : c.baseColumns names = c.baseColumns names' := by
  have hcontains : (fun rule : ConversionRule => names.contains rule.column) =
      fun rule => names'.contains rule.column := by
    funext rule
    rw [Bool.eq_iff_iff, List.contains_iff_mem, List.contains_iff_mem, h.mem_iff]
  rw [baseColumns, baseColumns, hcontains]

namespace SessionState

variable {s : SessionState} {c : Category} {t u : Table}

/-- The table whose columns a writing hands over. -/
def dispatched (s : SessionState) (c : Category) (t : Table) : Table :=
  if s.session.perUnit.enabled then s.written c t else t

theorem isKeyed_joined (hs : s.WellFormed) (c : Category) (ht : t.IsKeyed) :
    (s.joined c t).IsKeyed :=
  ht.joined (fun _ hname => hs.mem_columnNames_of_baseColumns hname)
    (c.nodup_baseColumns t.columnNames)

theorem isKeyed_physical (c : Category) (ht : t.IsKeyed) : (s.physical c t).IsKeyed := by
  refine ⟨Session.isRectangular_physical ht.rectangular, ht.keys, ?_⟩
  rw [Table.columnNames_of_signature (s.signature_physical c t)]
  exact ht.names

theorem isKeyed_dispatched (c : Category) (ht : t.IsKeyed) : (s.dispatched c t).IsKeyed := by
  rw [dispatched]
  split
  · exact (isKeyed_physical c ht).rowsWhere _
  · exact ht

/-- A key is left out if it is known, and no voltage is found in its row for a converted cell. -/
theorem skips_iff_of_isKeyed (hs : s.WellFormed) (ht : t.IsKeyed) {key : RowKey} :
    s.Skips c t key ↔ key ∈ (s.tables c).index ∧ key ∈ t.index ∧
      ∃ rule ∈ c.rules, ((s.joined c t).doubles? rule.column).isSome ∧
        rule.baseOf (s.levels c) ((s.joined c t).cell? key) = none := by
  have hjoined := isKeyed_joined hs c ht
  have hlacks {rule : ConversionRule} {p : Nat} (hp : t.index[p]? = some key) :
      rule.LacksBase (s.levels c) (s.joined c t) p ↔
        ((s.joined c t).doubles? rule.column).isSome ∧
          rule.baseOf (s.levels c) ((s.joined c t).cell? key) = none := by
    have hlt : p < (s.joined c t).size := (List.getElem?_eq_some_iff.mp hp).1
    have hrow : (s.joined c t).index[p]? = some key := hp
    rw [ConversionRule.LacksBase, rule.getElem?_bases (s.levels c) hjoined.rectangular hlt,
      hjoined.cell?_of_getElem? hrow, Option.some_inj]
  rw [Skips]
  refine and_congr_right fun _ => ⟨?_, ?_⟩
  · rintro ⟨rule, hrule, p, -, hp, hbase⟩
    exact ⟨List.mem_of_getElem? hp, rule, hrule, (hlacks hp).mp hbase⟩
  · rintro ⟨hkey, rule, hrule, hbase⟩
    obtain ⟨p, hp⟩ := List.mem_iff_getElem?.mp hkey
    exact ⟨rule, hrule, p, (List.getElem?_eq_some_iff.mp hp).1, hp, (hlacks hp).mpr hbase⟩

/-- The converted cells of a table are those of the table with the columns brought in. -/
theorem cell?_physical_of_mem {name : String} (hname : name ∈ t.columnNames) (key : RowKey) :
    (s.physical c t).cell? key name = ((s.joined c t).converted s.session.perUnit (s.levels c)
      .fromPerUnit c.rules).cell? key name := by
  have hcolumn : (s.physical c t).column? name = ((s.joined c t).converted s.session.perUnit
      (s.levels c) .fromPerUnit c.rules).column? name := by
    rw [physical, Table.column?_mapFirst fun col _ => Table.name_convertedColumn col,
      Table.column?_converted, joined, Table.column?_joined_of_mem hname]
  have hposition : (s.physical c t).position? key = ((s.joined c t).converted s.session.perUnit
      (s.levels c) .fromPerUnit c.rules).position? key := rfl
  rw [Table.cell?_eq_bind, Table.cell?_eq_bind, hposition]
  simp only [Table.cellAt?, hcolumn]

section SameCells

variable (hs : s.WellFormed) (h : t.SameCells u) (ht : t.IsKeyed) (hu : u.IsKeyed)

include hs h ht hu

theorem sameCells_joined (c : Category) : (s.joined c t).SameCells (s.joined c u) := by
  rw [joined, joined, c.baseColumns_perm h.columnNames]
  exact h.joined (fun _ hname => hs.mem_columnNames_of_baseColumns hname)
    (c.nodup_baseColumns t.columnNames) ht hu

theorem sameCells_physical (c : Category) : (s.physical c t).SameCells (s.physical c u) := by
  refine ⟨h.index, ?_, fun key name => ?_⟩
  · rw [signature_physical, signature_physical]
    exact h.signature
  · have hconverted := (sameCells_joined hs h ht hu c).converted (isKeyed_joined hs c ht)
      (isKeyed_joined hs c hu) s.session.perUnit (s.levels c) .fromPerUnit c.rules
    by_cases hname : name ∈ t.columnNames
    · rw [cell?_physical_of_mem hname, cell?_physical_of_mem (h.columnNames.mem_iff.mpr hname),
        hconverted.cell?]
    · have hnone {v : Table} (hv : name ∉ v.columnNames) :
          (s.physical c v).cell? key name = none := by
        have hcolumn : (s.physical c v).column? name = none := by
          rw [Table.column?_eq_none_iff,
            Table.columnNames_of_signature (s.signature_physical c v)]
          exact hv
        rw [Table.cell?_eq_bind]
        simp [Table.cellAt?, hcolumn]
      rw [hnone hname, hnone (mt h.columnNames.mem_iff.mp hname)]

/-- Which rows are left out depends on the cells only. -/
theorem skips_congr {key : RowKey} : s.Skips c u key ↔ s.Skips c t key := by
  have hjoined := sameCells_joined hs h ht hu c
  have hrow : (s.joined c u).cell? key = (s.joined c t).cell? key := funext (hjoined.cell? key)
  rw [skips_iff_of_isKeyed hs hu, skips_iff_of_isKeyed hs ht, h.index.mem_iff, hrow]
  simp only [hjoined.isSome_doubles?_eq (isKeyed_joined hs c ht) (isKeyed_joined hs c hu)]

/-- What is handed over for tables with the same cells has the same cells. -/
theorem sameCells_dispatched (c : Category) :
    (s.dispatched c t).SameCells (s.dispatched c u) := by
  rw [dispatched, dispatched]
  split
  · have hskips : (fun key => decide ¬s.Skips c u key) = fun key => decide ¬s.Skips c t key := by
      funext key
      exact decide_eq_decide.mpr (not_congr (skips_congr hs h ht hu))
    rw [written, written, hskips]
    exact (sameCells_physical hs h ht hu c).rowsWhere (isKeyed_physical c ht)
      (isKeyed_physical c hu) fun key => decide ¬s.Skips c t key
  · exact h

end SameCells

end SessionState

/-! ### Writings -/

/-- Nominal voltages of two voltage levels, with limits that are converted at them. -/
def Table.newLimits : Table :=
  ⟨[.plain "VL", .plain "V2"],
    [⟨"nominal_v", .double, [(380.0 : Float), (110.0 : Float)]⟩,
      ⟨"high_voltage_limit", .double, [(1.1 : Float), (1.05 : Float)]⟩]⟩

/-- The same voltages and limits in another order. -/
def Table.newLimitsReversed : Table :=
  ⟨[.plain "V2", .plain "VL"],
    [⟨"high_voltage_limit", .double, [(1.05 : Float), (1.1 : Float)]⟩,
      ⟨"nominal_v", .double, [(110.0 : Float), (380.0 : Float)]⟩]⟩

namespace Session

open SessionState

variable {s s' : SessionState} {c : Category} {t u : Table}

/-- A writing succeeds exactly where all columns that it hands over are accepted. -/
theorem update_succeeds_iff (hs : s.WellFormed) (ht : t.IsRectangular) :
    (∃ s', update c t s = .ok () s') ↔ ∀ col ∈ (s.dispatched c t).columns,
      c.Accepts (s.tables c) (s.dispatched c t).index col := by
  cases hon : s.session.perUnit.enabled with
  | false =>
    rw [dispatched, hon, if_neg Bool.false_ne_true]
    exact update_plain_succeeds_iff hs hon
  | true =>
    rw [dispatched, hon, if_pos rfl]
    obtain ⟨report, hphysical⟩ := exists_toPhysical hs c ht
    refine ⟨fun ⟨s', hrun⟩ => (update_ok hs hon ht hrun).1, fun hall => ?_⟩
    exact ⟨_, update_of_accepts hs hon hphysical hall⟩

/-- A writing that succeeds stores the columns that it hands over. -/
theorem store_of_update (hs : s.WellFormed) (ht : t.IsRectangular)
    (h : update c t s = .ok () s') : s'.store = (s.setTables (s.tables.set c
      ((s.tables c).putAll (s.dispatched c t).index (s.dispatched c t).columns))).store := by
  cases hon : s.session.perUnit.enabled with
  | false =>
    rw [dispatched, hon, if_neg Bool.false_ne_true]
    obtain ⟨s'', hrun, hstore⟩ :=
      update_plain hs hon ((update_plain_succeeds_iff hs hon).mp ⟨s', h⟩)
    cases hrun.symm.trans h
    exact hstore
  | true =>
    rw [dispatched, hon, if_pos rfl]
    obtain ⟨-, report, rfl⟩ := update_ok hs hon ht h
    rfl

theorem missingBases_of_update (hs : s.WellFormed) (h : update c t s = .ok () s') :
    s'.session.missingBases = s.session.missingBases +
      if s.session.perUnit.enabled then
        (c.unresolvedCells (s.levels c) (s.joined c t)).length
      else 0 := by
  have hcount := (Operation.update c t).missingBases_after hs
  have hrun : (Operation.update c t).run s = .ok () s' := h
  have hsucceeds : succeeds (Operation.update c t).run s = true := by rw [succeeds, hrun]
  rw [Operation.after, stateAfter_ok hrun, Operation.unresolvedCells, hsucceeds, Bool.and_true]
    at hcount
  rw [hcount]
  split <;> rfl

/-- Of two tables that are the same but for the order of their rows and columns, one is written if
and only if the other is, and then the same is stored and counted. -/
theorem update_rearranged (hs : s.Reachable) (ht : t.IsRectangular) (hkeys : t.index.Nodup)
    (hnames : t.columnNames.Nodup) (h : t.Rearranges u) :
    ((∃ s', update c t s = .ok () s') ↔ ∃ s', update c u s = .ok () s') ∧
      ∀ s' s'', update c t s = .ok () s' → update c u s = .ok () s'' →
        s''.store = s'.store ∧ s''.session.missingBases = s'.session.missingBases := by
  have hwf := hs.wellFormed
  have ht : t.IsKeyed := ⟨ht, hkeys, hnames⟩
  have hu := h.isKeyed ht
  have hsame := h.sameCells ht
  have hdispatched := sameCells_dispatched hwf hsame ht hu c
  have hkeyed := isKeyed_dispatched (s := s) c ht
  have hkeyed' := isKeyed_dispatched (s := s) c hu
  refine ⟨?_, fun s' s'' hrun hrun' => ⟨?_, ?_⟩⟩
  · rw [update_succeeds_iff hwf ht.rectangular, update_succeeds_iff hwf hu.rectangular]
    exact (hdispatched.forall_accepts_iff hkeyed hkeyed').symm
  · have hall := (update_succeeds_iff hwf ht.rectangular).mp ⟨s', hrun⟩
    rw [store_of_update hwf ht.rectangular hrun, store_of_update hwf hu.rectangular hrun',
      hdispatched.putAll_eq hkeyed hkeyed' (hwf.tables c) hall]
  · rw [missingBases_of_update hwf hrun, missingBases_of_update hwf hrun',
      (sameCells_joined hwf hsame ht hu c).length_unresolvedCells (isKeyed_joined hwf c ht)
        (isKeyed_joined hwf c hu)]

/-- A second voltage level is added, and the voltages of both are written with their limits. -/
theorem update_rearranged_newLimits :
    let s : SessionState := { twoGenerators (some 400.0) with
      store := (Store.Operation.addElement 1 .voltageLevel (.plain "V2") []).after
        (twoGenerators (some 400.0)).store }
    Table.newLimits.Rearranges Table.newLimitsReversed ∧
      ∃ s' s'', update .voltageLevel .newLimits s = .ok () s' ∧
        update .voltageLevel .newLimitsReversed s = .ok () s'' ∧
        s''.store = s'.store ∧ s''.session.missingBases = s'.session.missingBases := by
  intro s
  have hs : s.Reachable := .others _ (reachable_twoGenerators (some 400.0)) nofun
  have hrearranges : Table.newLimits.Rearranges Table.newLimitsReversed :=
    ⟨[1, 0], by decide, rfl, .swap _ _ _⟩
  have hrun := run_eq_ok_stateAfter
    (show succeeds (update .voltageLevel .newLimits) s = true by decide +kernel)
  obtain ⟨hsucceeds, hsame⟩ := update_rearranged (c := .voltageLevel) hs (by decide) (by decide)
    (by decide) hrearranges
  obtain ⟨s'', hrun'⟩ := hsucceeds.mp ⟨_, hrun⟩
  exact ⟨hrearranges, _, s'', hrun, hrun', hsame _ s'' hrun hrun'⟩

end Session

end PowerTables
