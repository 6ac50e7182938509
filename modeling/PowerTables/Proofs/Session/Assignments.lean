import PowerTables.Proofs.Assignment.Tables
import PowerTables.Proofs.Session.Commutation

/-!
# Assignments written column by column

Assignments are written one column after the other, in the order in which the columns first occur.
Each writing starts from the state that the ones before it left, so a value that is converted at a
voltage of its own row sees the assigned voltage only if that was written before.  Nothing else
depends on the order: apart from such values, the cells are told by the assignments as a set.

## Main definitions

* `SessionState.Rewrites` : only the table of one category is written.
* `Category.storedCell?` : the cell that is stored for a given one.
* `SessionState.voltageSeen` : the voltage that an assigned value is converted at.
* `SessionState.ConvertsAlike` : two orders of some assignments convert each value alike.
* `SessionState.Assigns` : assignments take a session from one state to another.

## Main results

* `SessionState.cell?_dispatched` : what is handed over for a single column.
* `Session.cellAt?_of_forM` : a column that one writing of a series names.
* `Session.cellAt?_of_assigns` : the cells after some assignments.
* `Session.network_eq_iff_convertsAlike` : when two orders leave the same.
-/

namespace PowerTables

/-! ### A series of writings -/

namespace SessionState

/-- Only the table of a category is written, which keeps its rows and columns. -/
structure Rewrites (c : Category) (s s' : SessionState) : Prop where
  wellFormed : s'.WellFormed
  changes : ChangesTables s s'
  others : ∀ d, d ≠ c → s'.tables d = s.tables d
  shape : Table.SameShape (s.tables c) (s'.tables c)

variable {c : Category} {s s' s'' : SessionState}

theorem Rewrites.refl (hs : s.WellFormed) (c : Category) : Rewrites c s s :=
  ⟨hs, .refl hs, fun _ _ => rfl, .refl _⟩

theorem Rewrites.trans (h : Rewrites c s s') (h' : Rewrites c s' s'') : Rewrites c s s'' :=
  ⟨h'.wellFormed, h.changes.trans h'.changes, fun d hd => (h'.others d hd).trans (h.others d hd),
    h.shape.trans h'.shape⟩

/-- What is left is told by the table of the category. -/
theorem Rewrites.tables_eq (h : Rewrites c s s') : s'.tables = s.tables.set c (s'.tables c) := by
  funext d
  by_cases hd : d = c
  · rw [hd, Tables.set_self]
  · rw [Tables.set_of_ne _ _ hd, h.others d hd]

end SessionState

/-! ### The cells of one column -/

/-- Converted columns hold doubles. -/
theorem Category.type_of_rule {c : Category} {r : ConversionRule} (h : r ∈ c.rules)
    {spec : ColumnSpec} (hspec : c.column? r.column = some spec) : spec.type = .double := by
  have hall : ∀ r ∈ c.rules, ∀ spec ∈ c.column? r.column, spec.type = .double := by
    cases c <;> decide
  exact hall r h spec hspec

theorem Cell.mapDouble_ofDouble (f : Float → Float) (x : Float) :
    (ofDouble x).mapDouble f = ofDouble (f x) := rfl

/-- The cell that is stored for a given one: where the column has a rule, the value is converted,
if a voltage is found. -/
def Category.storedCell? (c : Category) (ctx : PerUnitContext)
    (voltage? : ConversionRule → Option Float) (name : String) (cell : Cell) : Option Cell :=
  if ctx.enabled then
    match c.rules.find? (·.column == name) with
    | some rule => (voltage? rule).map fun v =>
        cell.mapDouble fun x => convertValue ctx rule.dimension .fromPerUnit x (some v)
    | none => some cell
  else some cell

namespace Category

variable {c : Category} {ctx : PerUnitContext} {voltage? : ConversionRule → Option Float}
  {name : String} {cell : Cell}

theorem storedCell?_off (hoff : ctx.enabled = false) :
    c.storedCell? ctx voltage? name cell = some cell := by
  rw [storedCell?, hoff, if_neg Bool.false_ne_true]

theorem storedCell?_of_find?_eq_none (hfind : c.rules.find? (·.column == name) = none) :
    c.storedCell? ctx voltage? name cell = some cell := by
  rw [storedCell?, hfind, ite_self]

theorem storedCell?_of_rule (hon : ctx.enabled = true) {rule : ConversionRule}
    (hrule : rule ∈ c.rules) (hname : rule.column = name) :
    c.storedCell? ctx voltage? name cell = (voltage? rule).map fun v =>
      cell.mapDouble fun x => convertValue ctx rule.dimension .fromPerUnit x (some v) := by
  rw [storedCell?, if_pos hon, find?_rule_eq_some_iff.mpr ⟨hrule, hname⟩]

theorem storedCell?_congr {voltage?' : ConversionRule → Option Float}
    (h : ∀ rule ∈ c.rules, rule.column = name → voltage? rule = voltage?' rule) :
    c.storedCell? ctx voltage? name cell = c.storedCell? ctx voltage?' name cell := by
  rw [storedCell?, storedCell?]
  cases hfind : c.rules.find? (·.column == name) with
  | none => rfl
  | some rule =>
    obtain ⟨hrule, hname⟩ := find?_rule_eq_some_iff.mp hfind
    simp only [h rule hrule hname]

end Category

namespace Table

variable {t source : Table} {key : RowKey} {name : String}

/-- Of a table, only the last row of each key is looked at for voltages. -/
theorem lastCell?_congr {u : Table} (hindex : u.index = t.index)
    (hcolumn : u.column? name = t.column? name) (key : RowKey) :
    u.lastCell? key name = t.lastCell? key name := by
  rw [lastCell?, lastCell?, hindex]
  simp only [cellAt?, hcolumn]

end Table

namespace SessionState

/-- The voltage that a rule finds for an element. -/
def voltage? (s : SessionState) (c : Category) (key : RowKey) (rule : ConversionRule) :
    Option Float :=
  rule.baseOf (s.levels c) ((s.tables c).lastCell? key)

variable {s : SessionState} {c : Category} {t : Table} {key : RowKey} {name : String}
  {spec : ColumnSpec}

section Column

variable (hs : s.WellFormed) (ht : t.IsKeyed) (hnames : t.columnNames = [name])
  (hkey : key ∈ (s.tables c).index) (hmem : key ∈ t.index)

include hs ht hnames hkey hmem

/-- The voltage that is found for a row of a single column is that of the element. -/
theorem baseOf_joined_eq_voltage? {rule : ConversionRule} (hrule : rule ∈ c.rules)
    (hname : rule.column = name) :
    rule.baseOf (s.levels c) ((s.joined c t).cell? key) = s.voltage? c key rule := by
  refine rule.baseOf_congr _ fun column hcolumn => ?_
  have hneeded : column ∈ c.baseColumns t.columnNames :=
    mem_baseColumns_of_source hrule (by rw [hnames, hname]; simp) hcolumn
  have hlacking : column ∈ t.lacking (c.baseColumns t.columnNames) := by
    refine Table.mem_lacking.mpr ⟨hneeded, ?_⟩
    rw [hnames, List.mem_singleton, ← hname]
    rintro rfl
    exact Category.source_ne_ruleColumn hrule hrule hcolumn
  rw [joined, ht.cell?_joined_of_lacking (fun _ h => hs.mem_columnNames_of_baseColumns h)
    (c.nodup_baseColumns t.columnNames) hlacking hmem,
    Table.joinedCell?_of_mem (hs.tables c).rectangular
      (hs.mem_columnNames_of_baseColumns hneeded) hkey]

/-- An element is left out where the column has a rule that finds no voltage for it. -/
theorem skips_singleton_iff (hdouble : ∀ rule ∈ c.rules, rule.column = name →
    (t.doubles? name).isSome) :
    s.Skips c t key ↔
      ∃ rule ∈ c.rules, rule.column = name ∧ s.voltage? c key rule = none := by
  rw [skips_iff_of_isKeyed hs ht]
  constructor
  · rintro ⟨-, -, rule, hrule, hdoubles, hbase⟩
    rw [doubles?_joined_of_rule hs hrule] at hdoubles
    have hcolumn := mem_columnNames_of_doubles? hdoubles
    rw [hnames, List.mem_singleton] at hcolumn
    rw [baseOf_joined_eq_voltage? hs ht hnames hkey hmem hrule hcolumn] at hbase
    exact ⟨rule, hrule, hcolumn, hbase⟩
  · rintro ⟨rule, hrule, hcolumn, hvoltage⟩
    refine ⟨hkey, hmem, rule, hrule, ?_, ?_⟩
    · rw [doubles?_joined_of_rule hs hrule, hcolumn]
      exact hdouble rule hrule hcolumn
    · rw [baseOf_joined_eq_voltage? hs ht hnames hkey hmem hrule hcolumn, hvoltage]

end Column

/-- What is handed over for a single column. -/
theorem cell?_dispatched (hs : s.WellFormed) (ht : t.IsKeyed)
    (hsignature : t.signature = [(name, spec.type)]) (hspec : c.column? name = some spec)
    (hkey : key ∈ (s.tables c).index) :
    (s.dispatched c t).cell? key name =
      (t.cell? key name).bind (c.storedCell? s.session.perUnit (s.voltage? c key) name) := by
  have hnames : t.columnNames = [name] := by
    rw [← Table.map_fst_signature, hsignature]
    rfl
  have hname : name ∈ t.columnNames := by simp [hnames]
  cases hon : s.session.perUnit.enabled with
  | false =>
    rw [dispatched, hon, if_neg Bool.false_ne_true]
    cases t.cell? key name with
    | none => rfl
    | some cell => exact (Category.storedCell?_off hon).symm
  | true =>
    by_cases hmem : key ∈ t.index
    · have hdouble (rule : ConversionRule) (hrule : rule ∈ c.rules) (hcolumn : rule.column = name) :
          (t.doubles? name).isSome := by
        rw [ht.isSome_doubles?_iff, hsignature, Category.type_of_rule hrule (hcolumn ▸ hspec)]
        exact List.mem_singleton_self _
      have hphysical : (s.physical c t).cell? key name = _ :=
        (cell?_physical_of_mem hname key).trans
          (Table.cell?_converted (isKeyed_joined hs c ht).rectangular hmem name)
      rw [joined, Table.cell?_joined_of_mem hname, ← joined] at hphysical
      ext cell
      rw [dispatched, hon, if_pos rfl, written]
      refine (isKeyed_physical c ht).cell?_rowsWhere_eq_some_iff.trans ?_
      rw [decide_eq_true_iff, skips_singleton_iff hs ht hnames hkey hmem hdouble, hphysical,
        Option.bind_eq_some_iff]
      cases hfind : c.rules.find? (·.column == name) with
      | none =>
        have hnone : ¬∃ rule ∈ c.rules, rule.column = name ∧ s.voltage? c key rule = none := by
          rintro ⟨rule, hrule, hcolumn, -⟩
          cases hfind.symm.trans (Category.find?_rule_eq_some_iff.mpr ⟨hrule, hcolumn⟩)
        simp [hnone, Category.storedCell?_of_find?_eq_none hfind]
      | some rule =>
        obtain ⟨hrule, hcolumn⟩ := Category.find?_rule_eq_some_iff.mp hfind
        have honly : (∃ r ∈ c.rules, r.column = name ∧ s.voltage? c key r = none) ↔
            s.voltage? c key rule = none := by
          refine ⟨?_, fun hvoltage => ⟨rule, hrule, hcolumn, hvoltage⟩⟩
          rintro ⟨r, hr, hr', hvoltage⟩
          have hfind' := Category.find?_rule_eq_some_iff.mpr ⟨hr, hr'⟩
          rwa [← Option.some.inj (hfind'.symm.trans hfind)]
        rw [honly]
        dsimp only
        rw [baseOf_joined_eq_voltage? hs ht hnames hkey hmem hrule hcolumn]
        simp only [Category.storedCell?_of_rule hon hrule hcolumn, Option.map_eq_some_iff]
        cases s.voltage? c key rule with
        | none => simp
        | some v => simp
    · have hwritten : key ∉ (s.dispatched c t).index := fun h =>
        hmem (Session.mem_index_of_dispatched h)
      rw [Table.cell?_eq_none_of_notMem hwritten, Table.cell?_eq_none_of_notMem hmem,
        Option.bind_none]

end SessionState

namespace Session

open SessionState

variable {c : Category} {s s' : SessionState} {t : Table} {pre post : List Table}

theorem rewrites_of_update (hs : s.WellFormed) (ht : t.IsRectangular)
    (h : update c t s = .ok () s') : Rewrites c s s' := by
  have htables := tables_of_update hs ht h
  refine ⟨wellFormed_of_update hs h, changesTables_of_update hs ht h, fun d hd => ?_, ?_⟩
  · rw [htables, Tables.set_of_ne _ _ hd]
  · rw [htables, Tables.set_self]
    exact Table.sameShape_putAll (hs.tables c) ((update_succeeds_iff hs ht).mp ⟨s', h⟩)

/-- A series of writings that succeeds, at one of its tables. -/
theorem forM_update_split (h : (pre ++ t :: post).forM (update c) s = .ok () s') :
    ∃ s₁ s₂, pre.forM (update c) s = .ok () s₁ ∧ update c t s₁ = .ok () s₂ ∧
      post.forM (update c) s₂ = .ok () s' := by
  induction pre generalizing s with
  | nil =>
    cases hrun : update c t s with
    | error e s₂ =>
      cases (run_bind_of_error hrun).symm.trans h
    | ok u s₂ => exact ⟨s, s₂, rfl, hrun, (run_bind_of_ok hrun).symm.trans h⟩
  | cons u pre ih =>
    cases hrun : update c u s with
    | error e s₂ => cases (run_bind_of_error hrun).symm.trans h
    | ok _ s₀ =>
      obtain ⟨s₁, s₂, hpre, hstep, hpost⟩ := ih ((run_bind_of_ok hrun).symm.trans h)
      exact ⟨s₁, s₂, (run_bind_of_ok hrun).trans hpre, hstep, hpost⟩

/-- A series of writings keeps the rows and columns, and all columns that none of them names. -/
theorem rewrites_of_forM (hs : s.WellFormed) {tables : List Table}
    (ht : ∀ t ∈ tables, t.IsRectangular) (h : tables.forM (update c) s = .ok () s') :
    Rewrites c s s' ∧ ∀ name, (∀ t ∈ tables, name ∉ t.columnNames) →
      (s'.tables c).column? name = (s.tables c).column? name := by
  induction tables generalizing s with
  | nil =>
    cases h
    exact ⟨.refl hs c, fun _ _ => rfl⟩
  | cons t tables ih =>
    rw [List.forall_mem_cons] at ht
    have hsplit : ([] ++ t :: tables).forM (update c) s = .ok () s' := h
    obtain ⟨s₀, s₁, h₀, hstep, hrest⟩ := forM_update_split hsplit
    cases h₀
    have hrewrites := rewrites_of_update hs ht.1 hstep
    obtain ⟨hrest, hcolumns⟩ := ih hrewrites.wellFormed ht.2 hrest
    refine ⟨hrewrites.trans hrest, fun name hname => ?_⟩
    rw [List.forall_mem_cons] at hname
    rw [hcolumns name hname.2, column?_of_update hs ht.1 hstep fun _ => hname.1]

/-- A column that only one table of a series names has the cells that this table gives it, in the
state that the tables before it leave. -/
theorem cellAt?_of_forM (hs : s.WellFormed) (ht : ∀ u ∈ pre ++ t :: post, u.IsRectangular)
    (h : (pre ++ t :: post).forM (update c) s = .ok () s') {name : String}
    (hpre : ∀ u ∈ pre, name ∉ u.columnNames) (hpost : ∀ u ∈ post, name ∉ u.columnNames) :
    ∃ s₁, pre.forM (update c) s = .ok () s₁ ∧ (∃ s₂, update c t s₁ = .ok () s₂) ∧
      ∀ p, (s'.tables c).cellAt? p name =
        ((s.tables c).lastWritten? (s₁.dispatched c t).index (s₁.dispatched c t).columns p
          name).or ((s.tables c).cellAt? p name) := by
  rw [List.forall_mem_append, List.forall_mem_cons] at ht
  obtain ⟨s₁, s₂, hbefore, hstep, hafter⟩ := forM_update_split h
  obtain ⟨hrewrites, hcolumns⟩ := rewrites_of_forM hs ht.1 hbefore
  have hwf := hrewrites.wellFormed
  obtain ⟨-, hcolumns'⟩ :=
    rewrites_of_forM (rewrites_of_update hwf ht.2.1 hstep).wellFormed ht.2.2 hafter
  refine ⟨s₁, hbefore, ⟨s₂, hstep⟩, fun p => ?_⟩
  have hall := (update_succeeds_iff hwf ht.2.1).mp ⟨s₂, hstep⟩
  rw [Table.cellAt?, hcolumns' name hpost, ← Table.cellAt?, tables_of_update hwf ht.2.1 hstep,
    Tables.set_self, Table.cellAt?_putAll (hwf.tables c) hall,
    Table.lastWritten?_congr hrewrites.shape]
  congr 1
  rw [Table.cellAt?, hcolumns name hpre, ← Table.cellAt?]

end Session

/-! ### Assignments -/

/-- The columns that are written before a column. -/
def writtenBefore (as : List Assignment) (column : String) : List String :=
  (as.map (·.column)).eraseDups.takeWhile (· != column)

/-- A table with the assignments of one column. -/
def Table.withAssigned (t : Table) (c : Category) (as : List Assignment) (column : String) :
    Table :=
  match columnTable c c.schema as column with
  | .ok u => t.putAll u.index u.columns
  | .error _ => t

namespace SessionState

/-- The table in which a rule finds voltages for assigned values: voltages that are assigned count
if they are written before. -/
def seenTable (s : SessionState) (c : Category) (as : List Assignment) (rule : ConversionRule) :
    Table :=
  match rule.source with
  | .rowColumn name =>
    if name ∈ writtenBefore as rule.column then (s.tables c).withAssigned c as name
    else s.tables c
  | _ => s.tables c

/-- The voltage that a rule finds for a value that is assigned to an element. -/
def voltageSeen (s : SessionState) (c : Category) (as : List Assignment) (key : RowKey)
    (rule : ConversionRule) : Option Float :=
  rule.baseOf (s.levels c) ((s.seenTable c as rule).lastCell? key)

/-- In two orders of some assignments, each value is converted to the same one. -/
def ConvertsAlike (s : SessionState) (c : Category) (as bs : List Assignment) : Prop :=
  s.session.perUnit.enabled = true → ∀ rule ∈ c.rules, ∀ a ∈ as, a.column = rule.column →
    ∀ x, Cell.parse? .double a.raw = some (.ofDouble x) →
      convertValue s.session.perUnit rule.dimension .fromPerUnit x
          (s.voltageSeen c as a.key rule) =
        convertValue s.session.perUnit rule.dimension .fromPerUnit x
          (s.voltageSeen c bs a.key rule)

/-- Assignments are written, one column after the other. -/
def Assigns (c : Category) (as : List Assignment) (s s' : SessionState) : Prop :=
  ∃ tables, updateTables c c.schema as = .ok tables ∧
    tables.forM (Session.update c) s = .ok () s'

/-- A row gets a cell from one of some assignments. -/
def Assigned (s : SessionState) (c : Category) (as : List Assignment) (p : Nat) (name : String)
    (cell : Cell) : Prop :=
  ∃ spec, c.column? name = some spec ∧ ∃ a ∈ as, a.column = name ∧
    (s.tables c).position? a.key = some p ∧ ∃ given, Cell.parse? spec.type a.raw = some given ∧
      c.storedCell? s.session.perUnit (s.voltageSeen c as a.key) name given = some cell

variable {s s' s₁ s₂ : SessionState} {c : Category} {t : Table} {as bs : List Assignment}
  {name : String} {names : List String} {tables : List Table} {key : RowKey}

/-- Columns without a rule are handed over as they are. -/
theorem dispatched_eq_self (hs : s.WellFormed) (ht : t.IsRectangular)
    (h : ∀ rule ∈ c.rules, rule.column ∉ t.columnNames) : s.dispatched c t = t := by
  have hphysical : s.physical c t = t := by
    refine (Table.mapFirst_congr fun col hcol => ?_).trans t.mapFirst_id
    refine Table.convertedColumn_of_notMem fun hmem => ?_
    obtain ⟨rule, hrule, hname⟩ := List.mem_map.mp hmem
    have hcolumn := Table.mem_columnNames_iff.mpr ⟨col, (Table.mem_of_column? hcol).1, rfl⟩
    exact h rule hrule (hname ▸ hcolumn)
  have hskips (key : RowKey) : ¬s.Skips c t key := by
    rintro ⟨-, rule, hrule, p, -, -, hdoubles, -⟩
    rw [doubles?_joined_of_rule hs hrule] at hdoubles
    exact h rule hrule (mem_columnNames_of_doubles? hdoubles)
  rw [dispatched]
  split
  · rw [written, hphysical]
    refine Table.rowsWhere_eq_self ht fun p hp => ?_
    rw [List.getElem?_eq_getElem hp, Option.any_some, decide_eq_true (hskips _)]
  · rfl

/-- A voltage of the row itself is there for all elements. -/
theorem isSome_voltage? (hs : s.WellFormed) (hkey : key ∈ (s.tables c).index)
    {rule : ConversionRule} (hrule : rule ∈ c.rules) (hsource : rule.source = .rowColumn name) :
    (s.voltage? c key rule).isSome := by
  have hspec := Category.schema_of_source hrule
  rw [hsource] at hspec
  obtain ⟨p, hp⟩ := Table.exists_lastPosition? hkey
  obtain ⟨col, hcol, htype, hlength⟩ := (hs.tables c).exists_column? hspec
  obtain ⟨⟨type, v⟩, hcell⟩ := (hs.tables c).rectangular.isSome_cellAt?
    ((hs.tables c).mem_columnNames_iff.mpr ⟨_, hspec⟩) (Table.lastPosition?_lt hp)
  rw [Table.cellAt?_of_column? hcol] at hcell
  obtain rfl : type = .double := (Column.type_of_cell? hcell).trans htype
  rw [voltage?, ConversionRule.baseOf, hsource]
  dsimp only
  rw [Table.lastCell?, hp, Option.bind_some, Table.cellAt?_of_column? hcol, hcell,
    Option.bind_some, Cell.as?_self, Option.isSome_some]

end SessionState

namespace Session

open SessionState

variable {s s' s₁ s₂ : SessionState} {c : Category} {t : Table} {as bs : List Assignment}
  {name : String} {names : List String} {tables : List Table} {key : RowKey}

/-- The elements of a table that is written are known. -/
theorem mem_index_of_update (hs : s.WellFormed) (ht : t.IsRectangular)
    (h : update c t s = .ok () s') (hcolumns : t.columns ≠ []) :
    ∀ key ∈ t.index, key ∈ (s.tables c).index := by
  have hall := (update_succeeds_iff hs ht).mp ⟨s', h⟩
  rw [dispatched] at hall
  split at hall
  · exact mem_index_of_accepts hall hcolumns
  · exact ((Table.forall_accepts_iff ht).mp hall).2 hcolumns

section Columns

variable (hs : s.WellFormed) (hnodup : names.Nodup)
  (htables : List.Forall₂ (fun name t => columnTable c c.schema as name = .ok t) names tables)
  (h : tables.forM (update c) s = .ok () s')

include hs hnodup htables h

/-- Of the tables of several columns, the one of a column is written after those of the columns
before. -/
theorem cellAt?_of_columns (hname : name ∈ names) :
    ∃ t s₁ s₂, columnTable c c.schema as name = .ok t ∧
      (∃ pre, List.Forall₂ (fun name t => columnTable c c.schema as name = .ok t)
        (names.takeWhile (· != name)) pre ∧ pre.forM (update c) s = .ok () s₁) ∧
      update c t s₁ = .ok () s₂ ∧ ∀ p, (s'.tables c).cellAt? p name =
        ((s.tables c).lastWritten? (s₁.dispatched c t).index (s₁.dispatched c t).columns p
          name).or ((s.tables c).cellAt? p name) := by
  obtain ⟨before, after, rfl⟩ := List.append_of_mem hname
  obtain ⟨pre, t, post, rfl, hpre, ht, hpost⟩ := exists_append_of_forall₂ htables
  rw [List.nodup_append, List.nodup_cons] at hnodup
  obtain ⟨-, ⟨hafter, -⟩, hbefore⟩ := hnodup
  have hapart {ns : List String} {us : List Table} (hns : name ∉ ns)
      (hus : List.Forall₂ (fun name t => columnTable c c.schema as name = .ok t) ns us) :
      ∀ u ∈ us, u.IsRectangular ∧ name ∉ u.columnNames := by
    intro u hu
    obtain ⟨n, hn, hcolumn⟩ := exists_of_forall₂ hus.flip hu
    rw [columnNames_columnTable hcolumn, List.mem_singleton]
    exact ⟨(isKeyed_columnTable hcolumn).rectangular, fun heq => hns (heq ▸ hn)⟩
  have hnotBefore : name ∉ before := fun hmem => hbefore name hmem name List.mem_cons_self rfl
  have hrectangular : ∀ u ∈ pre ++ t :: post, u.IsRectangular := by
    rw [List.forall_mem_append, List.forall_mem_cons]
    exact ⟨fun u hu => (hapart hnotBefore hpre u hu).1, (isKeyed_columnTable ht).rectangular,
      fun u hu => (hapart hafter hpost u hu).1⟩
  obtain ⟨s₁, h₁, ⟨s₂, h₂⟩, hcells⟩ := cellAt?_of_forM hs hrectangular h
    (fun u hu => (hapart hnotBefore hpre u hu).2) fun u hu => (hapart hafter hpost u hu).2
  refine ⟨t, s₁, s₂, ht, ⟨pre, ?_, h₁⟩, h₂, hcells⟩
  rw [List.takeWhile_append_of_pos (fun n hn => ?_), List.takeWhile_cons_of_neg (by simp),
    List.append_nil]
  · exact hpre
  · exact bne_iff_ne.mpr fun heq => hnotBefore (heq ▸ hn)

omit hnodup in
theorem rewrites_of_columns : Rewrites c s s' ∧ ∀ name ∉ names,
    (s'.tables c).column? name = (s.tables c).column? name := by
  have hspec (t : Table) (ht : t ∈ tables) :
      ∃ name ∈ names, columnTable c c.schema as name = .ok t := exists_of_forall₂ htables.flip ht
  obtain ⟨hrewrites, hcolumns⟩ := rewrites_of_forM hs (fun t ht => by
    obtain ⟨_, -, hcolumn⟩ := hspec t ht
    exact (isKeyed_columnTable hcolumn).rectangular) h
  refine ⟨hrewrites, fun name hname => hcolumns name fun t ht => ?_⟩
  obtain ⟨other, hother, hcolumn⟩ := hspec t ht
  rw [columnNames_columnTable hcolumn, List.mem_singleton]
  exact fun heq => hname (heq ▸ hother)

/-- Columns that are written are open to writes. -/
theorem column?_of_mem_columns (hname : name ∈ names) :
    ∃ type, c.column? name = some ⟨name, type, true⟩ := by
  obtain ⟨t, s₁, s₂, ht, ⟨pre, hpre, h₁⟩, h₂, -⟩ := cellAt?_of_columns hs hnodup htables h hname
  have hwf := (rewrites_of_columns hs hpre h₁).1.wellFormed
  have hall := (update_succeeds_iff hwf (isKeyed_columnTable ht).rectangular).mp ⟨s₂, h₂⟩
  have hmem : name ∈ (s₁.dispatched c t).columns.map (·.name) := by
    rw [columnNames_dispatched, columnNames_columnTable ht, List.mem_singleton]
  obtain ⟨col, hcol, rfl⟩ := List.mem_map.mp hmem
  exact ⟨col.type, (hall col hcol).1⟩

/-- A column without a rule takes the assigned values over. -/
theorem lastCell?_of_columns (hrule : ∀ rule ∈ c.rules, rule.column ≠ name) (key : RowKey) :
    (s'.tables c).lastCell? key name =
      (if name ∈ names then (s.tables c).withAssigned c as name
        else s.tables c).lastCell? key name := by
  have hshape := (rewrites_of_columns hs htables h).1.shape
  split
  · next hname =>
    obtain ⟨t, s₁, s₂, ht, ⟨pre, hpre, h₁⟩, h₂, hcells⟩ :=
      cellAt?_of_columns hs hnodup htables h hname
    have hrectangular := (isKeyed_columnTable ht).rectangular
    have hbefore := (rewrites_of_columns hs hpre h₁).1
    have hself : s₁.dispatched c t = t := by
      refine dispatched_eq_self hbefore.wellFormed hrectangular fun rule hr => ?_
      rw [columnNames_columnTable ht, List.mem_singleton]
      exact hrule rule hr
    have hall := (update_succeeds_iff hbefore.wellFormed hrectangular).mp ⟨s₂, h₂⟩
    rw [hself] at hall hcells
    have haccepts : ∀ col ∈ t.columns, c.Accepts (s.tables c) t.index col := fun col hcol =>
      (Table.accepts_congr hbefore.shape.index).mp (hall col hcol)
    have hshape' := hshape.symm.trans (Table.sameShape_putAll (hs.tables c) haccepts)
    rw [Table.withAssigned, ht]
    refine Table.lastCell?_congr hshape'.symm.index
      (Table.SameShape.column?_eq hshape'.symm fun p => ?_) key
    rw [hcells, Table.cellAt?_putAll (hs.tables c) haccepts]
  · next hname =>
    exact Table.lastCell?_congr hshape.index ((rewrites_of_columns hs htables h).2 name hname) key

end Columns

/-- Before the table of a column, the voltages are those that its values see. -/
theorem voltage?_of_columns (hs : s.WellFormed) {rule : ConversionRule} (hrule : rule ∈ c.rules)
    (htables : List.Forall₂ (fun name t => columnTable c c.schema as name = .ok t)
      (writtenBefore as rule.column) tables)
    (h : tables.forM (update c) s = .ok () s') (key : RowKey) :
    s'.voltage? c key rule = s.voltageSeen c as key rule := by
  have hnodup : (writtenBefore as rule.column).Nodup :=
    (nodup_eraseDups _).sublist (List.takeWhile_sublist _)
  obtain ⟨hrewrites, hcolumns⟩ := rewrites_of_columns hs htables h
  have hlevels : s'.levels c = s.levels c := by
    rw [levels, levels]
    split
    · next hneeds =>
      have hc : Category.voltageLevel ≠ c := by
        rintro rfl
        exact Bool.false_ne_true (Category.needsVoltageLevels_voltageLevel.symm.trans hneeds)
      rw [hrewrites.others _ hc]
    · rfl
  rw [voltage?, voltageSeen, hlevels]
  refine rule.baseOf_congr _ fun name hname => ?_
  have hschema := Category.schema_of_source hrule
  rw [seenTable]
  cases hsource : rule.source with
  | none =>
    rw [hsource] at hname
    cases hname
  | voltageLevel column =>
    rw [hsource] at hname hschema
    obtain rfl := Option.some.inj hname
    -- the ids of voltage levels are closed to writes
    have hclosed : column ∉ writtenBefore as rule.column := by
      intro hmem
      obtain ⟨type, hspec⟩ := column?_of_mem_columns hs hnodup htables h hmem
      cases congrArg (Option.map ColumnSpec.writable) (hschema.symm.trans hspec)
    exact Table.lastCell?_congr hrewrites.shape.index (hcolumns column hclosed) key
  | rowColumn column =>
    have hrules (r : ConversionRule) (hr : r ∈ c.rules) : r.column ≠ name := fun heq =>
      Category.source_ne_ruleColumn hrule hr (Option.mem_def.mp (heq.symm ▸ hname))
    rw [hsource] at hname
    obtain rfl := Option.some.inj hname
    exact lastCell?_of_columns hs hnodup htables h hrules key

theorem rewrites_of_assigns (hs : s.WellFormed) (h : Assigns c as s s') : Rewrites c s s' := by
  obtain ⟨tables, htables, hrun⟩ := h
  exact (rewrites_of_columns hs (forall₂_updateTables htables) hrun).1

/-- What the table of a column gives to a row is what is assigned to it. -/
theorem lastWritten?_eq_some_iff_assigned (hrewrites : Rewrites c s s₁)
    (ht : columnTable c c.schema as name = .ok t)
    (hvoltage : ∀ rule ∈ c.rules, rule.column = name → ∀ key,
      s₁.voltage? c key rule = s.voltageSeen c as key rule) {p : Nat} {cell : Cell} :
    (s.tables c).lastWritten? (s₁.dispatched c t).index (s₁.dispatched c t).columns p name =
      some cell ↔ s.Assigned c as p name cell := by
  obtain ⟨spec, hspec, hsignature⟩ := signature_columnTable ht
  have hkeyed := isKeyed_columnTable ht
  have hcell {key : RowKey} (hp : (s.tables c).position? key = some p) :
      (s₁.dispatched c t).cell? key name = (t.cell? key name).bind
        (c.storedCell? s.session.perUnit (s.voltageSeen c as key) name) := by
    rw [cell?_dispatched hrewrites.wellFormed hkeyed hsignature hspec
      (hrewrites.shape.index ▸ Table.mem_index_of_position? hp), hrewrites.changes.perUnit]
    congr 1
    funext given
    exact Category.storedCell?_congr fun rule hrule hname => hvoltage rule hrule hname key
  rw [(isKeyed_dispatched c hkeyed).lastWritten?_eq_some_iff]
  constructor
  · rintro ⟨key, hp, hstored⟩
    rw [hcell hp, Option.bind_eq_some_iff] at hstored
    obtain ⟨given, hgiven, hstored⟩ := hstored
    obtain ⟨a, ha, hname, rfl, hread⟩ := (cell?_columnTable ht hspec).mp hgiven
    exact ⟨spec, hspec, a, ha, hname, hp, given, hread, hstored⟩
  · rintro ⟨spec', hspec', a, ha, hname, hp, given, hread, hstored⟩
    obtain rfl : spec' = spec := Option.some.inj (hspec'.symm.trans hspec)
    refine ⟨a.key, hp, ?_⟩
    rw [hcell hp, (cell?_columnTable ht hspec).mpr ⟨a, ha, hname, rfl, hread⟩]
    exact hstored

/-- Assigned values are stored in their cells, and all other cells stay as they are. -/
theorem cellAt?_of_assigns (hs : s.WellFormed) (h : Assigns c as s s') (p : Nat) (name : String) :
    ∃ assigned : Option Cell, (∀ cell, assigned = some cell ↔ s.Assigned c as p name cell) ∧
      (s'.tables c).cellAt? p name = assigned.or ((s.tables c).cellAt? p name) := by
  obtain ⟨tables, htables, hrun⟩ := h
  have hcolumns := forall₂_updateTables htables
  have hnodup := nodup_eraseDups (as.map (·.column))
  by_cases hname : name ∈ (as.map (·.column)).eraseDups
  · obtain ⟨t, s₁, s₂, ht, ⟨pre, hpre, h₁⟩, -, hcells⟩ :=
      cellAt?_of_columns hs hnodup hcolumns hrun hname
    refine ⟨_, fun cell => lastWritten?_eq_some_iff_assigned
      (rewrites_of_columns hs hpre h₁).1 ht fun rule hrule hcolumn key => ?_, hcells p⟩
    exact voltage?_of_columns hs hrule (by rw [writtenBefore, hcolumn]; exact hpre) h₁ key
  · refine ⟨none, fun cell => ⟨nofun, ?_⟩, ?_⟩
    · rintro ⟨-, -, a, ha, rfl, -⟩
      exact absurd (List.mem_eraseDups.mpr (List.mem_map_of_mem ha)) hname
    · rw [Option.none_or, Table.cellAt?, Table.cellAt?,
        (rewrites_of_columns hs hcolumns hrun).2 name hname]

/-- Elements that something is assigned to are known. -/
theorem mem_index_of_assigns (hs : s.WellFormed) (h : Assigns c as s s') :
    ∀ a ∈ as, a.key ∈ (s.tables c).index := by
  intro a ha
  obtain ⟨tables, htables, hrun⟩ := h
  obtain ⟨t, s₁, s₂, ht, ⟨pre, hpre, h₁⟩, h₂, -⟩ :=
    cellAt?_of_columns hs (nodup_eraseDups _) (forall₂_updateTables htables) hrun
      (List.mem_eraseDups.mpr (List.mem_map_of_mem ha))
  have hrewrites := (rewrites_of_columns hs hpre h₁).1
  have hcolumns : t.columns ≠ [] := by
    obtain ⟨spec, entries, -, -, -, rfl⟩ := columnTable_eq_ok_iff.mp ht
    exact List.cons_ne_nil _ _
  rw [← hrewrites.shape.index]
  refine mem_index_of_update hrewrites.wellFormed (isKeyed_columnTable ht).rectangular h₂ hcolumns
    a.key ?_
  rw [index_columnTable ht]
  exact List.mem_map_of_mem (List.mem_filter.mpr ⟨ha, beq_self_eq_true _⟩)

theorem exists_column?_of_assigns (h : Assigns c as s s') {a : Assignment} (ha : a ∈ as) :
    ∃ spec, c.column? a.column = some spec := by
  obtain ⟨tables, htables, -⟩ := h
  obtain ⟨t, -, ht⟩ := exists_of_forall₂ (forall₂_updateTables htables)
    (List.mem_eraseDups.mpr (List.mem_map_of_mem ha))
  obtain ⟨spec, hspec, -⟩ := signature_columnTable ht
  exact ⟨spec, hspec⟩

/-- Voltages of the rows themselves are there for all assigned values. -/
theorem isSome_voltageSeen (hs : s.WellFormed) (h : Assigns c as s s') {rule : ConversionRule}
    (hrule : rule ∈ c.rules) (hsource : rule.source = .rowColumn name) {a : Assignment}
    (ha : a ∈ as) (hcolumn : a.column = rule.column) :
    (s.voltageSeen c as a.key rule).isSome := by
  have hkey := mem_index_of_assigns hs h a ha
  obtain ⟨tables, htables, hrun⟩ := h
  obtain ⟨t, s₁, s₂, -, ⟨pre, hpre, h₁⟩, -, -⟩ :=
    cellAt?_of_columns hs (nodup_eraseDups _) (forall₂_updateTables htables) hrun
      (List.mem_eraseDups.mpr (List.mem_map.mpr ⟨a, ha, hcolumn⟩))
  have hrewrites := (rewrites_of_columns hs hpre h₁).1
  rw [← voltage?_of_columns hs hrule hpre h₁ a.key]
  exact isSome_voltage? hrewrites.wellFormed (hrewrites.shape.index.symm ▸ hkey) hrule hsource

section Order

variable (hs : s.WellFormed) (hperm : as.Perm bs) (h : Assigns c as s s₁)
  (h' : Assigns c bs s s₂)

include hs hperm h h'

/-- Where values are converted alike, the same cells are stored for them. -/
theorem storedCell?_of_convertsAlike (halike : s.ConvertsAlike c as bs) {a : Assignment}
    (ha : a ∈ as) {spec : ColumnSpec} (hspec : c.column? a.column = some spec) {given : Cell}
    (hread : Cell.parse? spec.type a.raw = some given) :
    c.storedCell? s.session.perUnit (s.voltageSeen c as a.key) a.column given =
      c.storedCell? s.session.perUnit (s.voltageSeen c bs a.key) a.column given := by
  cases hon : s.session.perUnit.enabled with
  | false => rw [Category.storedCell?_off hon, Category.storedCell?_off hon]
  | true =>
    cases hfind : c.rules.find? (·.column == a.column) with
    | none =>
      rw [Category.storedCell?_of_find?_eq_none hfind, Category.storedCell?_of_find?_eq_none hfind]
    | some rule =>
      obtain ⟨hrule, hcolumn⟩ := Category.find?_rule_eq_some_iff.mp hfind
      rw [Category.storedCell?_of_rule hon hrule hcolumn,
        Category.storedCell?_of_rule hon hrule hcolumn]
      cases hsource : rule.source with
      | none => simp only [voltageSeen, seenTable, hsource]
      | voltageLevel column => simp only [voltageSeen, seenTable, hsource]
      | rowColumn column =>
        obtain ⟨v, hv⟩ := Option.isSome_iff_exists.mp
          (isSome_voltageSeen hs h hrule hsource ha hcolumn.symm)
        obtain ⟨v', hv'⟩ := Option.isSome_iff_exists.mp
          (isSome_voltageSeen hs h' hrule hsource (hperm.mem_iff.mp ha) hcolumn.symm)
        rw [Category.type_of_rule hrule (hcolumn ▸ hspec)] at hread
        obtain ⟨x, -, rfl⟩ := Option.map_eq_some_iff.mp hread
        have hconvert := halike hon rule hrule a ha hcolumn.symm x hread
        rw [hv, hv'] at hconvert
        rw [hv, hv', Option.map_some, Option.map_some]
        exact congrArg (fun y => some (Cell.ofDouble y)) hconvert

/-- Where values are converted alike, the same table is left. -/
theorem tables_of_convertsAlike (halike : s.ConvertsAlike c as bs) :
    s₂.tables c = s₁.tables c := by
  have hshape := (rewrites_of_assigns hs h).shape
  have hshape' := hshape.symm.trans (rewrites_of_assigns hs h').shape
  refine Table.ext_cellAt hshape'.index hshape'.signature ?_ fun p name _ => ?_
  · rw [hshape'.columnNames]
    exact (hshape.fits (hs.tables c)).nodup_columnNames
  obtain ⟨w, hw, hcell⟩ := cellAt?_of_assigns hs h p name
  obtain ⟨w', hw', hcell'⟩ := cellAt?_of_assigns hs h' p name
  rw [hcell, hcell']
  congr 1
  ext cell
  rw [hw, hw', Assigned, Assigned]
  refine exists_congr fun spec => and_congr_right fun hspec => exists_congr fun a => ?_
  rw [hperm.mem_iff]
  refine and_congr_right fun ha => and_congr_right fun hname => and_congr_right fun _ =>
    exists_congr fun given => and_congr_right fun hread => ?_
  subst hname
  rw [storedCell?_of_convertsAlike hs hperm h h' halike (hperm.mem_iff.mpr ha) hspec hread]

/-- Where the same table is left, values were converted alike. -/
theorem convertsAlike_of_tables (htables : s₂.tables c = s₁.tables c) :
    s.ConvertsAlike c as bs := by
  intro hon rule hrule a ha hcolumn x hread
  cases hsource : rule.source with
  | none => simp only [voltageSeen, seenTable, hsource]
  | voltageLevel column => simp only [voltageSeen, seenTable, hsource]
  | rowColumn column =>
    have ha' := hperm.mem_iff.mp ha
    obtain ⟨v, hv⟩ := Option.isSome_iff_exists.mp
      (isSome_voltageSeen hs h hrule hsource ha hcolumn)
    obtain ⟨v', hv'⟩ := Option.isSome_iff_exists.mp
      (isSome_voltageSeen hs h' hrule hsource ha' hcolumn)
    obtain ⟨p, hp⟩ := Table.exists_position? (mem_index_of_assigns hs h a ha)
    obtain ⟨w, hw, hcell⟩ := cellAt?_of_assigns hs h p rule.column
    obtain ⟨w', hw', hcell'⟩ := cellAt?_of_assigns hs h' p rule.column
    obtain ⟨spec, hspec⟩ := exists_column?_of_assigns h ha
    rw [hcolumn] at hspec
    have hread' : Cell.parse? spec.type a.raw = some (.ofDouble x) := by
      rw [Category.type_of_rule hrule hspec]
      exact hread
    have hstored {cs : List Assignment} {u : Float} (hu : s.voltageSeen c cs a.key rule = some u)
        (hmem : a ∈ cs) : s.Assigned c cs p rule.column (.ofDouble
          (convertValue s.session.perUnit rule.dimension .fromPerUnit x (some u))) := by
      refine ⟨spec, hspec, a, hmem, hcolumn, hp, _, hread', ?_⟩
      rw [Category.storedCell?_of_rule hon hrule rfl, hu, Option.map_some, Cell.mapDouble_ofDouble]
    have hfirst := (hw _).mpr (hstored hv ha)
    have hsecond := (hw' _).mpr (hstored hv' ha')
    rw [hfirst, Option.some_or] at hcell
    rw [hsecond, Option.some_or, htables, hcell] at hcell'
    rw [hv, hv']
    exact Column.cellMk_injective .double (Option.some.inj hcell')

/-- Of two orders of some assignments, both leave the same network if and only if each value is
converted to the same one in both. -/
theorem network_eq_iff_convertsAlike {m m' : Network}
    (hm : s₁.store.network? s₁.session.handle = some m)
    (hm' : s₂.store.network? s₂.session.handle = some m') :
    m' = m ↔ s.ConvertsAlike c as bs := by
  have hrewrites := rewrites_of_assigns hs h
  have hrewrites' := rewrites_of_assigns hs h'
  constructor
  · rintro rfl
    refine convertsAlike_of_tables hs hperm h h' ?_
    rw [SessionState.tables, SessionState.tables, hm, hm']
  · intro halike
    have hstore : s₂.store = s₁.store := by
      rw [hrewrites.changes.store, hrewrites'.changes.store, hrewrites.tables_eq,
        hrewrites'.tables_eq, tables_of_convertsAlike hs hperm h h' halike]
    rw [hstore, hrewrites'.changes.handle, ← hrewrites.changes.handle, hm] at hm'
    exact (Option.some.inj hm').symm

end Order

/-- Without voltages among the assigned columns, the order does not matter. -/
theorem convertsAlike_of_notMem (s : SessionState) (hperm : as.Perm bs)
    (hvoltage : ∀ rule ∈ c.rules, ∀ name, rule.source = .rowColumn name →
      name ∉ as.map (·.column)) : s.ConvertsAlike c as bs := by
  intro _ rule hrule a _ _ x _
  have hseen {cs : List Assignment} (hcs : as.Perm cs) : s.seenTable c cs rule = s.tables c := by
    rw [seenTable]
    split
    · next name hsource =>
      refine if_neg fun hmem => hvoltage rule hrule name hsource ?_
      have hassigned := List.mem_eraseDups.mp ((List.takeWhile_sublist _).subset hmem)
      exact (hcs.map (·.column)).mem_iff.mpr hassigned
    · rfl
  rw [voltageSeen, voltageSeen, hseen (.refl as), hseen hperm]

end Session

end PowerTables
