import PowerTables.Proofs.PerUnit.Conversion

/-!
# The report of a conversion

A conversion counts the cells for which no voltage is found, and keeps an issue for each of them,
in the order of the rules and of the rows.  What is counted is told by the table alone: the
columns of doubles that have a rule, and in each of them the rows in whose cells the rule finds no
voltage.  This needs that the column that a rule reads from is not shorter than the table.

## Main definitions

* `ConversionRule.unresolvedRows`, `Category.unresolvedCells` : the cells without voltage.
* `ConversionRule.Covers` : a rule looks for a voltage in every row.
* `ConversionReport.Lists` : a report of some cells.

## Main results

* `convert_lists` : the report of a conversion is one of the cells without voltage.
-/

namespace PowerTables

/-! ### The cells without voltage -/

namespace ConversionRule

variable {rule : ConversionRule} {levels : VoltageLevels} {t : Table}

/-- The keys of the rows in which a rule finds no voltage, in order, if it has a column of doubles
to convert. -/
def unresolvedRows (rule : ConversionRule) (levels : VoltageLevels) (t : Table) : List RowKey :=
  if (t.doubles? rule.column).isSome then
    pick (fun p => (rule.baseOf levels (t.cellAt? p)).isNone) t.index
  else []

/-- A rule that has a column to convert looks for a voltage in every row. -/
def Covers (rule : ConversionRule) (levels : VoltageLevels) (t : Table) : Prop :=
  (t.doubles? rule.column).isSome → t.size ≤ (rule.bases levels t).length

theorem covers_of_isRectangular (ht : t.IsRectangular) : rule.Covers levels t := fun _ =>
  Nat.le_of_eq (rule.length_bases levels ht).symm

/-- Rules that read the same voltages of the rows, or none, find them in every row. -/
theorem not_lacksBase {column : String} {values : List Float}
    (hvalues : t.doubles? column = some values)
    (hsource : rule.source = .none ∨ rule.source = .rowColumn column) (p : Nat) :
    ¬rule.LacksBase levels t p := by
  rintro ⟨-, hbase⟩
  rw [bases] at hbase
  rcases hsource with hsource | hsource
  · rw [hsource] at hbase
    cases List.eq_of_mem_replicate (List.mem_of_getElem? hbase)
  · simp only [hsource, hvalues, List.getElem?_map, Option.map_eq_some_iff] at hbase
    obtain ⟨_, -, hsome⟩ := hbase
    cases hsome

/-- The keys that are reported are those at the positions without voltage. -/
theorem unresolvedKeys_eq {index keys : List RowKey} {bases : List (Option Float)}
    (h : unresolvedKeys rule index bases = .ok keys) :
    keys = pick (fun p => (bases[p]?).any Option.isNone) index := by
  refine mapM_getElem?_zipIdx ?_
  rw [List.mapM_map, ← mapM_toOption h]
  congr 1
  funext ⟨base, p⟩
  rw [Function.comp_apply]
  dsimp only
  cases index[p]? <;> rfl

/-- A rule that looks in every row reports the rows without voltage. -/
theorem reportedKeys_eq (hcovers : rule.Covers levels t) {keys : List RowKey}
    (h : rule.reportedKeys levels t = .ok keys) : keys = rule.unresolvedRows levels t := by
  rw [reportedKeys] at h
  rw [unresolvedRows]
  cases hvalues : t.doubles? rule.column with
  | none =>
    rw [hvalues] at h
    exact (Except.ok.inj h).symm
  | some values =>
    rw [hvalues] at h
    rw [unresolvedKeys_eq h, Option.isSome_some, if_pos rfl]
    refine pick_congr fun p hp => ?_
    have hsize : t.size ≤ (rule.bases levels t).length :=
      hcovers (by rw [hvalues, Option.isSome_some])
    rw [getElem?_bases_of_lt (Nat.lt_of_lt_of_le hp hsize), Option.any_some]

end ConversionRule

/-- The cells of a table for which no voltage is found, each as the rule of its column and the key
of its row, in the order of the rules and of the rows. -/
def Category.unresolvedCells (c : Category) (levels : VoltageLevels) (t : Table) :
    List (ConversionRule × RowKey) :=
  c.rules.flatMap fun rule => (rule.unresolvedRows levels t).map (rule, ·)

/-! ### Reports -/

/-- A report counts some cells, has an issue for each of them, and names each of their rows once,
in the order in which they come. -/
structure ConversionReport.Lists (c : Category) (cells : List (ConversionRule × RowKey))
    (report : ConversionReport) : Prop where
  missingBases : report.missingBases = cells.length
  diagnostics : report.diagnostics = cells.map fun cell => missingBaseIssue c cell.1 cell.2
  unresolved : report.unresolved = (cells.map (·.2)).eraseDups

namespace ConversionReport.Lists

variable {c : Category} {cells : List (ConversionRule × RowKey)} {report : ConversionReport}

theorem empty (c : Category) : Lists c [] {} := ⟨rfl, rfl, rfl⟩

theorem add (h : Lists c cells report) (rule : ConversionRule) (key : RowKey) :
    Lists c (cells ++ [(rule, key)]) (report.add c rule key) := by
  refine ⟨?_, ?_, ?_⟩
  · rw [ConversionReport.add, h.missingBases, List.length_append, List.length_singleton]
  · rw [ConversionReport.add, h.diagnostics, List.map_append, List.map_singleton]
  · rw [ConversionReport.add, h.unresolved, List.map_append, List.eraseDups_append]
    by_cases hkey : key ∈ cells.map (·.2)
    · simp [hkey, List.removeAll]
    · simp [hkey, List.removeAll, List.eraseDups_cons]

/-- The cells of one rule more. -/
theorem foldl_add (h : Lists c cells report) (rule : ConversionRule) (keys : List RowKey) :
    Lists c (cells ++ keys.map (rule, ·)) (keys.foldl (ConversionReport.add c rule) report) := by
  induction keys generalizing cells report with
  | nil => rwa [List.map_nil, List.append_nil]
  | cons key keys ih =>
    rw [List.map_cons, List.append_cons]
    exact ih (h.add rule key)

/-- The cells of some rules more. -/
theorem foldlM_reportRule {levels : VoltageLevels} {t : Table} {rules : List ConversionRule}
    (hcovers : ∀ rule ∈ rules, rule.Covers levels t) (h : Lists c cells report)
    {report' : ConversionReport}
    (hrun : rules.foldlM (reportRule c levels t) report = .ok report') :
    Lists c (cells ++ rules.flatMap fun rule => (rule.unresolvedRows levels t).map (rule, ·))
      report' := by
  induction rules generalizing cells report with
  | nil =>
    obtain rfl := Except.ok.inj hrun
    rwa [List.flatMap_nil, List.append_nil]
  | cons rule rules ih =>
    rw [List.foldlM_cons] at hrun
    obtain ⟨next, hnext, hrest⟩ := bind_eq_ok.mp hrun
    obtain ⟨keys, hkeys, rfl⟩ := map_eq_ok.mp hnext
    obtain rfl := ConversionRule.reportedKeys_eq (hcovers rule List.mem_cons_self) hkeys
    rw [List.flatMap_cons, ← List.append_assoc]
    exact ih (fun other hother => hcovers other (List.mem_cons_of_mem rule hother))
      (h.foldl_add rule _) hrest

end ConversionReport.Lists

/-- A conversion that succeeds reports the cells without voltage. -/
theorem convert_lists {ctx : PerUnitContext} {c : Category} {levels : VoltageLevels}
    {direction : Direction} {t u : Table} {report : ConversionReport}
    (hcovers : ∀ rule ∈ c.rules, rule.Covers levels t)
    (h : convert ctx c levels direction t = .ok (u, report)) :
    report.Lists c (c.unresolvedCells levels t) := by
  rw [convert_eq] at h
  obtain ⟨report', hreport, heq⟩ := map_eq_ok.mp h
  obtain ⟨-, rfl⟩ := Prod.mk.inj heq
  exact ConversionReport.Lists.foldlM_reportRule hcovers (.empty c) hreport

end PowerTables
