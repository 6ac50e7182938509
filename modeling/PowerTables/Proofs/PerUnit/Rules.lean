import PowerTables.PerUnit.Rules
import PowerTables.Proofs.List
import PowerTables.Schema

/-!
# The rules and the schema

What the conversions rely on in the tables of rules and columns.  The base of a dimension follows
from the power base and a nominal voltage by a formula.  A category has at most one rule for a
column, and the columns that voltages are read from are not converted themselves, so the order of
the rules does not matter.  A voltage is read either from a column of ids that is closed to writes,
or from a column of doubles of the row itself that is open to them.

## Main definitions

* `Dimension.base` : the base of a dimension by its formula.
* `ConversionRule.Independent` : rules that can be applied in any order.

## Main results

* `Dimension.divisor_eq_base` : values are divided by the base of their dimension.
* `Category.nodup_ruleColumns` : at most one rule for a column.
* `Category.source_ne_ruleColumn` : no rule changes what another one reads.
* `Category.independent_rules` : the two facts together, as they are needed for any order.
* `Category.schema_of_source`, `Category.rowColumn_of_open` : the columns that voltages are read
  from, in the schema.
* `Category.mem_baseColumns` : the columns that are read for some converted columns.
-/

namespace PowerTables

/-! ### The bases of dimensions -/

namespace Dimension

/-- The base of a dimension by its formula, for a power base `s` in MVA and a nominal voltage `v`
in kV.  The factor of currents is the square root of three. -/
def base (s v : Float) : Dimension → Float
  | power => s
  | voltage => v
  | ratio => v
  | current => s * 1000.0 / (1.7320508075688772 * v)
  | impedance => v * v / (s * 1000.0)
  | admittance => s * 1000.0 / (v * v)
  | dcResistance => v * v / s

theorem divisor_eq_base (d : Dimension) (ctx : PerUnitContext) (v : Float) :
    d.divisor ctx v = d.base ctx.powerBase v := by
  cases d <;> rfl

/-- The bases at 400 kV, for a power base of 100 MVA. -/
example : all.map (base 100.0 400.0) =
    [100.0, 400.0, 400.0, 144.33756729740645, 1.6, 0.625, 1600.0] := by decide +kernel

end Dimension

/-! ### The rules of a category -/

namespace Category

theorem nodup_ruleColumns (c : Category) : (c.rules.map (·.column)).Nodup := by
  cases c <;> decide

theorem nodup_schemaNames (c : Category) : (c.schema.map (·.name)).Nodup := by
  cases c <;> decide

/-- A column that some rule reads a voltage from is not converted by any rule. -/
theorem source_ne_ruleColumn {c : Category} {r r' : ConversionRule} (h : r ∈ c.rules)
    (h' : r' ∈ c.rules) : r.source.column? ≠ some r'.column := by
  have hall : ∀ r ∈ c.rules, ∀ r' ∈ c.rules, r.source.column? ≠ some r'.column := by
    cases c <;> decide
  exact hall r h r' h'

end Category

namespace ConversionRule

/-- Rules for different columns, none of which converts a column that one of them reads a voltage
from. -/
structure Independent (rules : List ConversionRule) : Prop where
  columns : (rules.map (·.column)).Nodup
  sources : ∀ r ∈ rules, ∀ r' ∈ rules, r.source.column? ≠ some r'.column

end ConversionRule

namespace Category

theorem independent_rules (c : Category) : ConversionRule.Independent c.rules :=
  ⟨c.nodup_ruleColumns, fun _ hr _ hr' => source_ne_ruleColumn hr hr'⟩

/-- The ids of voltage levels are closed to writes, and a voltage of the row itself is open to
them. -/
theorem schema_of_source {c : Category} {r : ConversionRule} (h : r ∈ c.rules) :
    match r.source with
    | .none => True
    | .voltageLevel column => c.column? column = some (.readOnly (.string column))
    | .rowColumn column => c.column? column = some (.double column) := by
  have hall : ∀ r ∈ c.rules, match r.source with
      | .none => True
      | .voltageLevel column => c.column? column = some (.readOnly (.string column))
      | .rowColumn column => c.column? column = some (.double column) := by
    cases c <;> simp [rules, schema, column?, ConversionRule.power, ConversionRule.atLevel,
      ConversionRule.ownVoltage, ColumnSpec.readOnly, ColumnSpec.string, ColumnSpec.double,
      ColumnSpec.int, ColumnSpec.boolean]
  exact hall r h

/-- An open column that voltages are read from holds those of the rows themselves. -/
theorem rowColumn_of_open {c : Category} {r : ConversionRule} (h : r ∈ c.rules) {name : String}
    {type : CellType} (hname : name ∈ r.source.column?)
    (hopen : c.column? name = some ⟨name, type, true⟩) :
    r.source = .rowColumn name ∧ type = .double := by
  have hschema := schema_of_source h
  cases hsource : r.source with
  | none =>
    rw [hsource] at hname
    cases hname
  | voltageLevel column =>
    rw [hsource] at hname hschema
    obtain rfl := Option.some.inj hname
    have hclosed := congrArg (Option.map ColumnSpec.writable) (hschema.symm.trans hopen)
    cases hclosed
  | rowColumn column =>
    rw [hsource] at hname hschema
    obtain rfl := Option.some.inj hname
    have htype := congrArg (Option.map ColumnSpec.type) (hschema.symm.trans hopen)
    exact ⟨rfl, (Option.some.inj htype).symm⟩

/-- Where a rule reads a voltage of the row itself, no rule of the category reads another one. -/
theorem source_of_rowColumn {c : Category} {r r' : ConversionRule} (h : r ∈ c.rules)
    (h' : r' ∈ c.rules) {column : String} (hsource : r.source = .rowColumn column) :
    r'.source = .none ∨ r'.source = .rowColumn column := by
  have hall : ∀ r ∈ c.rules, ∀ r' ∈ c.rules,
      r.source = .rowColumn (r.source.column?.getD "") →
        r'.source = .none ∨ r'.source = r.source := by
    cases c <;> decide
  rw [← hsource]
  exact hall r h r' h' (by rw [hsource]; rfl)

/-- The voltage levels themselves are converted without a look at other tables. -/
theorem needsVoltageLevels_voltageLevel : needsVoltageLevels .voltageLevel = false := by decide

theorem find?_rule_eq_some_iff {c : Category} {name : String} {r : ConversionRule} :
    c.rules.find? (·.column == name) = some r ↔ r ∈ c.rules ∧ r.column = name :=
  find?_key_eq_some_iff c.nodup_ruleColumns

/-- There is no rule for a column that a voltage is read from. -/
theorem find?_rule_of_source {c : Category} {r : ConversionRule} (h : r ∈ c.rules) {name : String}
    (hname : name ∈ r.source.column?) : c.rules.find? (·.column == name) = none := by
  rw [Option.eq_none_iff_forall_ne_some]
  intro r' hfind
  obtain ⟨hrule', rfl⟩ := find?_rule_eq_some_iff.mp hfind
  exact source_ne_ruleColumn h hrule' hname

theorem column?_eq_some_iff {c : Category} {name : String} {spec : ColumnSpec} :
    c.column? name = some spec ↔ spec ∈ c.schema ∧ spec.name = name :=
  find?_key_eq_some_iff c.nodup_schemaNames

theorem mem_baseColumns {c : Category} {present : List String} {name : String} :
    name ∈ c.baseColumns present ↔
      ∃ r ∈ c.rules, r.column ∈ present ∧ r.source.column? = some name := by
  simp [baseColumns, and_assoc]

theorem nodup_baseColumns (c : Category) (present : List String) :
    (c.baseColumns present).Nodup := nodup_eraseDups _

end Category

end PowerTables
