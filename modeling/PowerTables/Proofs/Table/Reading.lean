import PowerTables.Proofs.Json.Reading
import PowerTables.Proofs.PerUnit.Conversion
import PowerTables.Proofs.Table.Bounds
import PowerTables.Proofs.Table.Json

/-!
# Tables that are read

A table that is read from a text is taken as it is given, without the checks that columns pass
which are put in one by one.  So it can have any rows and any columns, and an operation on it may
read past the end: rows that a column does not have are copied, or a row is reported that is not
in the index.  Here the tables are told on which no operation does.

## Main definitions

* `Table.read?` : the table that a text describes.
* `Table.HasStrayIds` : voltages are looked up for rows that are not in the index.
* `Table.StaysInside` : no operation on a table reads past the end.

## Main results

* `Table.staysInside_iff` : the tables on which no operation does.
* `Table.exists_read?_sameShape` : the rows and columns that a text can bring in.
* `Table.guaranteed_of_read_iff` : the texts whose table has passed the checks, and those on whose
  table no operation reads past the end.
-/

namespace PowerTables

theorem VoltageLevels.nominal?_empty (id : String) : nominal? {} id = none := rfl

namespace Table

/-- The table that a text describes. -/
def read? (text : String) : Option Table := (Json.parse? text).bind ofJson?

/-- A conversion of some category looks voltages up in a column of ids that goes on behind the
last row. -/
def HasStrayIds (t : Table) : Prop :=
  ∃ c : Category, ∃ rule ∈ c.rules, ∃ column ids, rule.source = .voltageLevel column ∧
    (t.doubles? rule.column).isSome ∧ t.strings? column = some ids ∧ t.size < ids.length

/-- No operation on a table fails for an access past the end of a column or of the index.  In a
join, the table may be on either side, where the other table is well-formed if it is read. -/
structure StaysInside (t : Table) : Prop where
  filterRows : ∀ keep e, t.filterRowsBy keep = .error e → ¬e.IsOutside
  select : ∀ names e, t.select names = .error e → ¬e.IsOutside
  join : ∀ source : Table, source.WellFormed →
    ∀ names e, (t.join source names).failure = some e → ¬e.IsOutside
  joinInto : ∀ (u : Table) names e, (u.join t names).failure = some e → ¬e.IsOutside
  pushRow : ∀ key cells e, t.pushRow key cells = .error e → ¬e.IsOutside
  convert : ∀ ctx c levels direction e,
    convert ctx c levels direction t = .error e → ¬e.IsOutside

variable {t : Table}

/-! ### Conversions -/

/-- A voltage that is missing behind the last row was looked up for an id there. -/
theorem exists_ids_of_lacksBase {rule : ConversionRule} {levels : VoltageLevels} {p : Nat}
    (h : rule.LacksBase levels t p) (hp : t.size ≤ p) :
    ∃ column ids, rule.source = .voltageLevel column ∧ t.strings? column = some ids ∧
      t.size < ids.length := by
  have hmissing := h.2
  rw [ConversionRule.bases] at hmissing
  have hreplicate {base : Option Float} : (List.replicate t.size base)[p]? ≠ some none := by
    rw [List.getElem?_eq_none (by simpa using hp)]
    exact (Option.some_ne_none none).symm
  cases hsource : rule.source with
  | none =>
    rw [hsource] at hmissing
    exact absurd hmissing hreplicate
  | voltageLevel column =>
    rw [hsource] at hmissing
    dsimp only at hmissing
    cases hids : t.strings? column with
    | none =>
      rw [hids] at hmissing
      exact absurd hmissing hreplicate
    | some ids =>
      rw [hids] at hmissing
      have hlt := (List.getElem?_eq_some_iff.mp hmissing).1
      rw [List.length_map] at hlt
      exact ⟨column, ids, rfl, hids, lt_of_le_of_lt hp hlt⟩
  | rowColumn column =>
    rw [hsource] at hmissing
    dsimp only at hmissing
    cases hvalues : t.doubles? column with
    | none =>
      rw [hvalues] at hmissing
      exact absurd hmissing hreplicate
    | some values =>
      rw [hvalues, List.getElem?_map, Option.map_eq_some_iff] at hmissing
      obtain ⟨value, -, hvalue⟩ := hmissing
      cases hvalue

/-- All conversions of a table succeed, whatever voltages are known, exactly if no id is looked
up behind the last row. -/
theorem exists_convert_iff_not_hasStrayIds :
    (∀ ctx c levels direction, ∃ r, convert ctx c levels direction t = .ok r) ↔
      ¬t.HasStrayIds := by
  simp only [exists_convert_iff]
  constructor
  · rintro h ⟨c, rule, hrule, column, ids, hsource, hdoubles, hids, hlt⟩
    -- where no voltage is known, that of the first id behind the last row is missing
    have hlacks : rule.LacksBase {} t t.size := by
      refine ⟨hdoubles, ?_⟩
      rw [ConversionRule.bases, hsource]
      simp [hids, hlt, VoltageLevels.nominal?_empty]
    exact Nat.lt_irrefl _ (h {} c {} .toPerUnit rule hrule t.size hlacks)
  · intro h _ c levels _ rule hrule p hlacks
    by_contra hp
    obtain ⟨column, ids, hsource, hids, hlt⟩ := exists_ids_of_lacksBase hlacks (Nat.not_lt.mp hp)
    exact h ⟨c, rule, hrule, column, ids, hsource, hlacks.1, hids, hlt⟩

theorem isOutside_of_convert {ctx : PerUnitContext} {c : Category} {levels : VoltageLevels}
    {direction : Direction} {e : TableError}
    (h : convert ctx c levels direction t = .error e) : e.IsOutside := by
  obtain ⟨rule, -, rfl⟩ := convert_eq_error h
  trivial

theorem IsRectangular.not_hasStrayIds (ht : t.IsRectangular) : ¬t.HasStrayIds := by
  rintro ⟨c, rule, -, column, ids, -, -, hids, hlt⟩
  have hlength : ids.length = t.size :=
    ht _ (mem_of_column? (valuesAs?_eq_some_iff.mp hids)).1
  exact Nat.ne_of_lt hlt hlength.symm

/-! ### Operations that stay inside -/

/-- No operation on a table reads past the end exactly if every row has a cell in every column,
and no id stands behind the last row for which a voltage is looked up. -/
theorem staysInside_iff : t.StaysInside ↔ t.IsComplete ∧ ¬t.HasStrayIds := by
  rw [← exists_convert_iff_not_hasStrayIds]
  constructor
  · intro h
    refine ⟨isComplete_iff.mpr fun keep => ?_, fun ctx c levels direction => ?_⟩
    · exact exists_ok_of_ne_error fun e he =>
        h.filterRows keep e he (isOutside_of_filterRowsBy he)
    · exact exists_ok_of_ne_error fun e he =>
        h.convert ctx c levels direction e he (isOutside_of_convert he)
  · rintro ⟨hcomplete, hconvert⟩
    refine
      { filterRows := fun keep e he => ?_
        select := fun _ _ => not_isOutside_of_select
        join := fun source hsource _ _ =>
          not_isOutside_of_join hsource.rectangular.isComplete
        joinInto := fun _ _ _ => not_isOutside_of_join hcomplete
        pushRow := fun _ _ _ => not_isOutside_of_pushRow
        convert := fun ctx c levels direction e he => ?_ }
    · obtain ⟨u, hu⟩ := isComplete_iff.mp hcomplete keep
      cases hu.symm.trans he
    · obtain ⟨r, hr⟩ := hconvert ctx c levels direction
      cases hr.symm.trans he

theorem WellFormed.staysInside (ht : t.WellFormed) : t.StaysInside :=
  staysInside_iff.mpr ⟨ht.rectangular.isComplete, ht.rectangular.not_hasStrayIds⟩

/-! ### Texts -/

/-- The table with missing values in place of all values. -/
def blank (t : Table) : Table :=
  ⟨t.index, t.columns.map fun c => .missing c.name c.type c.length⟩

theorem readsBack_missing (type : CellType) : type.ReadsBack type.missing type.missing := by
  by_cases htype : type = .double
  · subst htype
    have hinfinite : Double.nan.isInf = false := by decide
    have hfinite : Double.nan.isFinite ≠ true := by decide
    exact Json.doubleOrMissing?_self_iff.mpr ⟨hinfinite, fun h => absurd h hfinite⟩
  · exact CellType.readsBack_self htype _

/-- Any rows and any columns are brought in by some text, whatever the names and lengths of the
columns. -/
theorem exists_read?_sameShape (t : Table) : ∃ text u, read? text = some u ∧ SameShape t u := by
  have hread : ofJson? t.blank.toJson = some t.blank := by
    rw [ofJson?_toJson, alike_self_iff]
    refine List.forall_mem_map.mpr fun c _ => Column.alike_self_iff.mpr fun v hv => ?_
    rw [List.eq_of_mem_replicate hv]
    exact readsBack_missing c.type
  refine ⟨t.blank.toJson.pretty, t.blank, ?_, rfl, ?_⟩
  · rw [read?, Json.parse?_pretty (regular_toJson _), Option.bind_some, hread]
  · simp [shape, blank, Column.missing, Column.length]

/-- The table of a text has passed the checks of columns that are put in exactly unless it has a
column that is not as long as the index, or two columns of one name; no operation on it reads past
the end exactly unless a column ends before the last row, or ids stand behind that row for which
voltages are looked up.  And texts bring in any rows and columns. -/
theorem guaranteed_of_read_iff (text : String) :
    ((∀ t, read? text = some t → ofColumns t.index t.columns = .ok t ∧ t.StaysInside) ↔
      ¬∃ t, read? text = some t ∧ (¬t.IsRectangular ∨ ¬t.columnNames.Nodup)) ∧
    ((∀ t, read? text = some t → t.StaysInside) ↔
      ¬∃ t, read? text = some t ∧ (¬t.IsComplete ∨ t.HasStrayIds)) ∧
    ∀ t, ∃ text u, read? text = some u ∧ SameShape t u := by
  refine ⟨?_, ?_, exists_read?_sameShape⟩
  · have hguaranteed (t : Table) : ofColumns t.index t.columns = .ok t ∧ t.StaysInside ↔
        ¬(¬t.IsRectangular ∨ ¬t.columnNames.Nodup) := by
      rw [ofColumns_eq_ok_iff, not_or, not_not, not_not]
      exact ⟨fun h => ⟨h.1.2.rectangular, h.1.2.names⟩,
        fun h => ⟨⟨rfl, ⟨h.1, h.2⟩⟩, WellFormed.staysInside ⟨h.1, h.2⟩⟩⟩
    simp only [hguaranteed, not_exists, not_and]
  · simp only [staysInside_iff, not_exists, not_and, not_or, not_not]

/-- A table of two rows with a column of one value. -/
def shortText : String :=
  "\x7b\"index\": [\x7b\"id\": \"A\"\x7d, \x7b\"id\": \"B\"\x7d],
    \"columns\": [
      \x7b\"name\": \"p\", \"data\": \x7b\"type\": \"double\", \"values\": [1]\x7d\x7d]\x7d"

set_option maxRecDepth 2000 in
theorem accepts_shortText : ∃ t, read? shortText = some t ∧ ¬t.IsRectangular ∧
    t.filterRows (· == .plain "B") = .error (.shortColumn "p") := by
  have hread : read? shortText = some ⟨[.plain "A", .plain "B"], [⟨"p", .double, [1.0]⟩]⟩ := by
    have hchars : shortText = String.ofList _ := rfl
    rw [read?, hchars, Json.parse?_ofList]
    rfl
  exact ⟨_, hread, by decide, rfl⟩

end Table

end PowerTables
