import PowerTables.PerUnit.Conversion
import PowerTables.Proofs.PerUnit.Rules
import PowerTables.Proofs.Table.Cells

/-!
# The outcome of a conversion

A conversion changes the columns of a table one rule after another.  As no rule changes a column
that another one converts or reads a voltage from, the outcome can be told at once: every
converted column is that of the table one started with, each of its doubles converted at the
voltage that its rule finds in this table.

## Main definitions

* `ConversionRule.convertAt` : a double converted at the voltage found for its position.
* `ConversionRule.baseOf` : the voltage that a rule finds in the cells of a row.
* `ConversionRule.LacksBase` : a row has a converted cell for which no voltage is found.
* `Table.converted` : the table after a conversion.

## Main results

* `convert_spec`, `exists_convert` : the outcome of a conversion.
* `ConversionRule.getElem?_bases` : the voltages found are those of the rows.
-/

namespace PowerTables

/-! ### Doubles of a column -/

/-- Applies a function to the value of a double. -/
def Cell.mapDouble (f : Float → Float) : Cell → Cell
  | ⟨.double, x⟩ => ⟨.double, f x⟩
  | cell => cell

theorem Cell.exists_of_mapDouble_eq {cell : Cell} {f : Float → Float} {y : Float}
    (h : cell.mapDouble f = ⟨.double, y⟩) : ∃ x, cell = ⟨.double, x⟩ ∧ y = f x := by
  obtain ⟨type, value⟩ := cell
  cases type with
  | double =>
    cases h
    exact ⟨value, rfl, rfl⟩
  | string | int | boolean => cases h

/-- A double that is changed and changed back is as before. -/
theorem Cell.mapDouble_mapDouble {cell : Cell} {f g : Float → Float}
    (h : ∀ x ∈ cell.as? .double, g (f x) = x) : (cell.mapDouble f).mapDouble g = cell := by
  obtain ⟨type, value⟩ := cell
  cases type with
  | double => exact congrArg (Cell.mk .double) (h value (Cell.as?_self .double value))
  | string | int | boolean => rfl

theorem Cell.as?_mapDouble (f : Float → Float) (cell : Cell) :
    (cell.mapDouble f).as? .double = (cell.as? .double).map f := by
  obtain ⟨type, value⟩ := cell
  cases type with
  | double => rw [mapDouble, as?_self, as?_self, Option.map_some]
  | string | int | boolean => rfl

namespace Column

/-- Applies a function of position and value to the doubles of a column. -/
def mapDoubles (f : Nat → Float → Float) : Column → Column
  | ⟨name, .double, values⟩ => ⟨name, .double, values.mapIdx f⟩
  | c => c

theorem mapDoubles_double (f : Nat → Float → Float) (name : String) (values : List Float) :
    mapDoubles f ⟨name, .double, values⟩ = ⟨name, .double, values.mapIdx f⟩ := rfl

theorem mapDoubles_of_ne {f : Nat → Float → Float} {c : Column} (h : c.type ≠ .double) :
    c.mapDoubles f = c := by
  obtain ⟨name, type, values⟩ := c
  cases type <;> first | rfl | exact absurd rfl h

theorem shape_mapDoubles (f : Nat → Float → Float) (c : Column) :
    ((c.mapDoubles f).name, (c.mapDoubles f).type, (c.mapDoubles f).length) =
      (c.name, c.type, c.length) := by
  obtain ⟨name, type, values⟩ := c
  cases type <;> first | rfl | simp [mapDoubles, length]

theorem cell?_mapDoubles (f : Nat → Float → Float) (c : Column) (p : Nat) :
    (c.mapDoubles f).cell? p = (c.cell? p).map (Cell.mapDouble (f p)) := by
  obtain ⟨name, type, values⟩ := c
  cases type with
  | double =>
    rw [mapDoubles_double, cell?, cell?, List.getElem?_mapIdx, Option.map_map, Option.map_map]
    rfl
  | string | int | boolean =>
    simp only [mapDoubles, cell?, Option.map_map]
    rfl

theorem mapDoubles_congr {f g : Nat → Float → Float} {c : Column}
    (h : ∀ p < c.length, ∀ x, f p x = g p x) : c.mapDoubles f = c.mapDoubles g := by
  obtain ⟨name, type, values⟩ := c
  cases type <;> first | rfl | skip
  rw [mapDoubles_double, mapDoubles_double]
  congr 1
  ext p : 1
  rw [List.getElem?_mapIdx, List.getElem?_mapIdx]
  by_cases hp : p < values.length
  · rw [List.getElem?_eq_getElem hp, Option.map_some, Option.map_some, h p hp]
  · rw [List.getElem?_eq_none (Nat.not_lt.mp hp), Option.map_none, Option.map_none]

end Column

/-! ### One rule -/

/-- A value is divided or multiplied by the base of its dimension, and missing without voltage. -/
theorem convertValue_eq (ctx : PerUnitContext) (d : Dimension) (direction : Direction) (x : Float)
    (voltage : Option Float) : convertValue ctx d direction x voltage =
      match voltage, direction with
      | none, _ => Double.nan
      | some v, .toPerUnit => x / d.base ctx.powerBase v
      | some v, .fromPerUnit => x * d.base ctx.powerBase v := by
  cases voltage with
  | none => rfl
  | some v =>
    simp only [← d.divisor_eq_base]
    cases direction <;> rfl

namespace ConversionRule

/-- The value at a position, converted at the voltage found there; a value beyond the last
voltage stays. -/
def convertAt (rule : ConversionRule) (ctx : PerUnitContext) (direction : Direction)
    (bases : List (Option Float)) (p : Nat) (x : Float) : Float :=
  match bases[p]? with
  | some base => convertValue ctx rule.dimension direction x base
  | none => x

theorem convertValues_eq_mapIdx (rule : ConversionRule) (ctx : PerUnitContext)
    (direction : Direction) (values : List Float) (bases : List (Option Float)) :
    convertValues ctx rule.dimension direction values bases =
      values.mapIdx (rule.convertAt ctx direction bases) := by
  induction values generalizing bases with
  | nil => cases bases <;> rfl
  | cons x values ih =>
    cases bases with
    | nil =>
      have hself : x :: values = (x :: values).mapIdx fun _ y => y :=
        (List.mapIdx_eq_iff.mpr fun p => by simp).symm
      exact hself
    | cons base bases =>
      rw [convertValues, List.mapIdx_cons, ih]
      rfl

/-- The nominal voltage that a rule finds in the cells of a row. -/
def baseOf (rule : ConversionRule) (levels : VoltageLevels) (row : String → Option Cell) :
    Option Float :=
  match rule.source with
  | .none => some Double.nan
  | .voltageLevel column => ((row column).bind (·.as? .string)).bind levels.nominal?
  | .rowColumn column => (row column).bind (·.as? .double)

/-- The row at a position has a converted cell for which a rule finds no voltage. -/
def LacksBase (rule : ConversionRule) (levels : VoltageLevels) (t : Table) (p : Nat) : Prop :=
  (t.doubles? rule.column).isSome ∧ (rule.bases levels t)[p]? = some none

instance (rule : ConversionRule) (levels : VoltageLevels) (t : Table) (p : Nat) :
    Decidable (rule.LacksBase levels t p) :=
  inferInstanceAs (Decidable (_ ∧ _))

/-- What is found for a position is what is found in the cells of the row. -/
theorem eq_baseOf_of_bases {rule : ConversionRule} {levels : VoltageLevels} {t : Table} {p : Nat}
    {base : Option Float} (h : (rule.bases levels t)[p]? = some base) :
    base = rule.baseOf levels (t.cellAt? p) := by
  rw [bases] at h
  rw [baseOf]
  cases hsource : rule.source with
  | none =>
    rw [hsource] at h
    exact List.eq_of_mem_replicate (List.mem_of_getElem? h)
  | voltageLevel column =>
    rw [hsource] at h
    dsimp only
    cases hids : t.strings? column with
    | none =>
      simp only [hids] at h
      rw [List.eq_of_mem_replicate (List.mem_of_getElem? h), Table.bind_as?_of_valuesAs? hids,
        Option.bind_none]
    | some ids =>
      simp only [hids, List.getElem?_map, Option.map_eq_some_iff] at h
      obtain ⟨id, hid, rfl⟩ := h
      rw [Table.cellAt?_of_valuesAs? hids, hid]
      rfl
  | rowColumn column =>
    rw [hsource] at h
    dsimp only
    cases hvalues : t.doubles? column with
    | none =>
      simp only [hvalues] at h
      rw [List.eq_of_mem_replicate (List.mem_of_getElem? h), Table.bind_as?_of_valuesAs? hvalues]
    | some values =>
      simp only [hvalues, List.getElem?_map, Option.map_eq_some_iff] at h
      obtain ⟨value, hvalue, rfl⟩ := h
      rw [Table.cellAt?_of_valuesAs? hvalues, hvalue]
      rfl

theorem getElem?_bases_of_lt {rule : ConversionRule} {levels : VoltageLevels} {t : Table} {p : Nat}
    (hp : p < (rule.bases levels t).length) :
    (rule.bases levels t)[p]? = some (rule.baseOf levels (t.cellAt? p)) := by
  have hbase := List.getElem?_eq_getElem hp
  rw [hbase, eq_baseOf_of_bases hbase]

section Rectangular

variable {t : Table}

/-- As many voltages are found, or not, as there are rows, if the column that is read is as long
as the index. -/
theorem length_bases_of_column? (rule : ConversionRule) (levels : VoltageLevels)
    (h : ∀ name ∈ rule.source.column?, ∀ col, t.column? name = some col → col.length = t.size) :
    (rule.bases levels t).length = t.size := by
  rw [bases]
  cases hsource : rule.source with
  | none => simp
  | voltageLevel column =>
    cases hids : t.strings? column with
    | none => simp [hids]
    | some ids =>
      have hlength : ids.length = t.size :=
        h column (by rw [hsource]; rfl) _ (Table.valuesAs?_eq_some_iff.mp hids)
      simp [hids, hlength]
  | rowColumn column =>
    cases hvalues : t.doubles? column with
    | none => simp [hvalues]
    | some values =>
      have hlength : values.length = t.size :=
        h column (by rw [hsource]; rfl) _ (Table.doubles?_eq_some_iff.mp hvalues)
      simp [hvalues, hlength]

theorem length_bases (rule : ConversionRule) (levels : VoltageLevels) (ht : t.IsRectangular) :
    (rule.bases levels t).length = t.size :=
  rule.length_bases_of_column? levels fun _ _ col hcol => ht col (Table.mem_of_column? hcol).1

/-- In a table whose columns are as long as the index, the voltage of a row is the one found in
its cells. -/
theorem getElem?_bases (rule : ConversionRule) (levels : VoltageLevels) (ht : t.IsRectangular)
    {p : Nat} (hp : p < t.size) :
    (rule.bases levels t)[p]? = some (rule.baseOf levels (t.cellAt? p)) :=
  getElem?_bases_of_lt (by rwa [rule.length_bases levels ht])

end Rectangular

/-- The keys that a rule reports on a table. -/
def reportedKeys (rule : ConversionRule) (levels : VoltageLevels) (t : Table) :
    Except TableError (List RowKey) :=
  match t.doubles? rule.column with
  | none => .ok []
  | some _ => unresolvedKeys rule t.index (rule.bases levels t)

theorem mem_reportedKeys {rule : ConversionRule} {levels : VoltageLevels} {t : Table}
    {keys : List RowKey} (h : rule.reportedKeys levels t = .ok keys) {key : RowKey} :
    key ∈ keys ↔ ∃ p, t.index[p]? = some key ∧ rule.LacksBase levels t p := by
  rw [reportedKeys] at h
  cases hvalues : t.doubles? rule.column with
  | none =>
    rw [hvalues] at h
    obtain rfl := Except.ok.inj h
    simp [LacksBase, hvalues]
  | some values =>
    rw [hvalues] at h
    rw [mem_of_mapM h]
    constructor
    · rintro ⟨⟨base, p⟩, hmem, hkey⟩
      obtain ⟨hmem, hnone⟩ := List.mem_filter.mp hmem
      obtain rfl : base = none := by simpa using hnone
      refine ⟨p, ?_, by rw [hvalues]; rfl, List.mem_zipIdx_iff_getElem?.mp hmem⟩
      cases hindex : t.index[p]? with
      | none => simp [hindex] at hkey
      | some key' => simpa [hindex] using hkey
    · rintro ⟨p, hkey, -, hnone⟩
      refine ⟨(none, p), List.mem_filter.mpr ⟨?_, rfl⟩, by simp [hkey]⟩
      exact List.mem_zipIdx_iff_getElem?.mpr hnone

/-- The keys of a rule can be told exactly if every missing voltage is that of a row. -/
theorem exists_reportedKeys_iff {rule : ConversionRule} {levels : VoltageLevels} {t : Table} :
    (∃ keys, rule.reportedKeys levels t = .ok keys) ↔
      ∀ p, rule.LacksBase levels t p → p < t.size := by
  rw [reportedKeys]
  cases hvalues : t.doubles? rule.column with
  | none => simp [LacksBase, hvalues]
  | some values =>
    refine exists_mapM_iff.trans ?_
    constructor
    · rintro h p ⟨-, hp⟩
      obtain ⟨key, hkey⟩ :=
        h (none, p) (List.mem_filter.mpr ⟨List.mem_zipIdx_iff_getElem?.mpr hp, rfl⟩)
      by_contra hbehind
      have hindex : t.index[p]? = none := List.getElem?_eq_none (Nat.not_lt.mp hbehind)
      simp [hindex] at hkey
    · rintro h ⟨base, p⟩ hmem
      obtain ⟨hmem, hnone⟩ := List.mem_filter.mp hmem
      obtain rfl : base = none := by simpa using hnone
      have hp : p < t.index.length :=
        h p ⟨by rw [hvalues]; rfl, List.mem_zipIdx_iff_getElem?.mp hmem⟩
      exact ⟨t.index[p], by simp [hp]⟩

theorem exists_reportedKeys (rule : ConversionRule) (levels : VoltageLevels) {t : Table}
    (ht : t.IsRectangular) : ∃ keys, rule.reportedKeys levels t = .ok keys := by
  refine exists_reportedKeys_iff.mpr fun p hp => ?_
  rw [← rule.length_bases levels ht]
  exact (List.getElem?_eq_some_iff.mp hp.2).1

theorem reportedKeys_eq_error {rule : ConversionRule} {levels : VoltageLevels} {t : Table}
    {e : TableError} (h : rule.reportedKeys levels t = .error e) :
    e = .shortColumn rule.column := by
  rw [reportedKeys] at h
  split at h
  · cases h
  · obtain ⟨⟨base, p⟩, -, h⟩ := mapM_eq_error h
    dsimp only at h
    split at h
    · cases h
    · exact (Except.error.inj h).symm

end ConversionRule

/-! ### All rules -/

namespace Table

/-- A column of a table after some rules. -/
def convertedColumn (ctx : PerUnitContext) (levels : VoltageLevels) (direction : Direction)
    (rules : List ConversionRule) (t : Table) (c : Column) : Column :=
  match rules.find? (·.column == c.name) with
  | some rule => c.mapDoubles (rule.convertAt ctx direction (rule.bases levels t))
  | none => c

/-- A table after some rules. -/
def converted (ctx : PerUnitContext) (levels : VoltageLevels) (direction : Direction)
    (rules : List ConversionRule) (t : Table) : Table :=
  t.mapFirst (convertedColumn ctx levels direction rules t)

section Converted

variable {ctx : PerUnitContext} {levels : VoltageLevels} {direction : Direction}
  {rules : List ConversionRule} {t : Table}

theorem shape_convertedColumn (c : Column) :
    ((convertedColumn ctx levels direction rules t c).name,
      (convertedColumn ctx levels direction rules t c).type,
      (convertedColumn ctx levels direction rules t c).length) = (c.name, c.type, c.length) := by
  rw [convertedColumn]
  split
  · exact Column.shape_mapDoubles _ c
  · rfl

theorem name_convertedColumn (c : Column) :
    (convertedColumn ctx levels direction rules t c).name = c.name :=
  congrArg (·.1) (shape_convertedColumn c)

theorem length_convertedColumn (c : Column) :
    (convertedColumn ctx levels direction rules t c).length = c.length :=
  congrArg (·.2.2) (shape_convertedColumn c)

theorem column?_converted (name : String) :
    (t.converted ctx levels direction rules).column? name =
      (t.column? name).map (convertedColumn ctx levels direction rules t) :=
  column?_mapFirst (fun c _ => name_convertedColumn c) name

theorem convertedColumn_of_notMem {c : Column} (h : c.name ∉ rules.map (·.column)) :
    convertedColumn ctx levels direction rules t c = c := by
  have hnone : rules.find? (·.column == c.name) = none := by
    simpa [List.find?_eq_none] using h
  rw [convertedColumn, hnone]

theorem column?_converted_of_notMem {name : String} (h : name ∉ rules.map (·.column)) :
    (t.converted ctx levels direction rules).column? name = t.column? name := by
  rw [column?_converted]
  cases hc : t.column? name with
  | none => rfl
  | some c =>
    rw [Option.map_some, convertedColumn_of_notMem]
    rwa [(mem_of_column? hc).2]

theorem bases_converted {rule : ConversionRule}
    (h : ∀ name ∈ rule.source.column?, name ∉ rules.map (·.column)) :
    rule.bases levels (t.converted ctx levels direction rules) = rule.bases levels t := by
  rw [ConversionRule.bases, ConversionRule.bases]
  cases hsource : rule.source with
  | none => rfl
  | voltageLevel column =>
    have hcolumn : column ∉ rules.map (·.column) := h column (by rw [hsource]; rfl)
    simp only [strings?, valuesAs?, column?_converted_of_notMem hcolumn]
    rfl
  | rowColumn column =>
    have hcolumn : column ∉ rules.map (·.column) := h column (by rw [hsource]; rfl)
    simp only [doubles?, valuesAs?, column?_converted_of_notMem hcolumn]
    rfl

theorem convertedColumn_append {rule : ConversionRule}
    (hcolumn : rule.column ∉ rules.map (·.column)) (c : Column) :
    convertedColumn ctx levels direction (rules ++ [rule]) t c =
      if c.name = rule.column then
        c.mapDoubles (rule.convertAt ctx direction (rule.bases levels t))
      else convertedColumn ctx levels direction rules t c := by
  rw [convertedColumn, List.find?_append]
  by_cases hname : c.name = rule.column
  · have hnone : rules.find? (·.column == c.name) = none := by
      simpa [List.find?_eq_none, hname] using hcolumn
    rw [hnone, if_pos hname, Option.none_or, List.find?_cons_of_pos (by simp [hname])]
  · rw [if_neg hname, List.find?_cons_of_neg (by simpa using Ne.symm hname), List.find?_nil,
      Option.or_none, convertedColumn]

theorem converted_append_of_none {rule : ConversionRule}
    (hcolumn : rule.column ∉ rules.map (·.column)) (hvalues : t.doubles? rule.column = none) :
    t.converted ctx levels direction (rules ++ [rule]) =
      t.converted ctx levels direction rules := by
  refine mapFirst_congr fun d hd => ?_
  rw [convertedColumn_append hcolumn]
  by_cases hname : d.name = rule.column
  · have htype : d.type ≠ .double := fun htype => by
      rw [hname] at hd
      simp [doubles?, valuesAs?, hd, Column.valuesAs?, htype] at hvalues
    rw [if_pos hname, Column.mapDoubles_of_ne htype, convertedColumn_of_notMem (by rwa [hname])]
  · rw [if_neg hname]

theorem mapColumn_converted {rule : ConversionRule}
    (hcolumn : rule.column ∉ rules.map (·.column)) {values : List Float}
    (hvalues : t.doubles? rule.column = some values) :
    ((t.converted ctx levels direction rules).mapColumn rule.column fun _ =>
        ⟨rule.column, .double,
          convertValues ctx rule.dimension direction values (rule.bases levels t)⟩) =
      t.converted ctx levels direction (rules ++ [rule]) := by
  have hcolumn? : t.column? rule.column = some ⟨rule.column, .double, values⟩ :=
    doubles?_eq_some_iff.mp hvalues
  rw [mapColumn_eq_mapFirst, converted, mapFirst_mapFirst fun d _ => name_convertedColumn d]
  refine mapFirst_congr fun d hd => ?_
  rw [convertedColumn_append hcolumn, Function.comp_apply, name_convertedColumn]
  by_cases hname : d.name = rule.column
  · rw [hname, hcolumn?] at hd
    rw [if_pos hname, if_pos hname, ← Option.some.inj hd, Column.mapDoubles_double,
      rule.convertValues_eq_mapIdx]
  · rw [if_neg hname, if_neg hname]

/-- One rule more, on a table after some others. -/
theorem convertColumn_converted {rule : ConversionRule} (c : Category) (report : ConversionReport)
    (hcolumn : rule.column ∉ rules.map (·.column))
    (hsource : ∀ name ∈ rule.source.column?, name ∉ rules.map (·.column)) :
    convertColumn ctx c levels direction (t.converted ctx levels direction rules, report) rule =
      (rule.reportedKeys levels t).map fun keys =>
        (t.converted ctx levels direction (rules ++ [rule]),
          keys.foldl (ConversionReport.add c rule) report) := by
  have hdoubles : (t.converted ctx levels direction rules).doubles? rule.column =
      t.doubles? rule.column := by
    rw [doubles?, doubles?, valuesAs?, valuesAs?, column?_converted_of_notMem hcolumn]
  have hbases : rule.bases levels (t.converted ctx levels direction rules) =
      rule.bases levels t := bases_converted hsource
  rw [convertColumn, ConversionRule.reportedKeys]
  simp only [hdoubles, hbases]
  cases hvalues : t.doubles? rule.column with
  | none =>
    rw [converted_append_of_none hcolumn hvalues]
    rfl
  | some values =>
    have hindex : (t.converted ctx levels direction rules).index = t.index := rfl
    simp only [mapColumn_converted hcolumn hvalues, hindex]
    cases unresolvedKeys rule t.index (rule.bases levels t) <;> rfl

/-- A double of a column with a rule is converted. -/
theorem cell?_convertedColumn_eq_double {rule : ConversionRule} {c : Column}
    (hfind : rules.find? (·.column == c.name) = some rule) {p : Nat} {y : Float}
    (h : (convertedColumn ctx levels direction rules t c).cell? p = some ⟨.double, y⟩) :
    ∃ x, c.cell? p = some ⟨.double, x⟩ ∧
      y = rule.convertAt ctx direction (rule.bases levels t) p x := by
  rw [convertedColumn, hfind] at h
  obtain ⟨cell, hcell, hconverted⟩ :=
    Option.map_eq_some_iff.mp ((Column.cell?_mapDoubles _ c p).symm.trans h)
  obtain ⟨x, rfl, rfl⟩ := Cell.exists_of_mapDouble_eq hconverted
  exact ⟨x, hcell, rfl⟩

theorem signature_converted : (t.converted ctx levels direction rules).signature = t.signature :=
  map_mapFirst _ fun c _ => congrArg (fun e => (e.1, e.2.1)) (shape_convertedColumn c)

theorem cellAt?_converted (ht : t.IsRectangular) {p : Nat} (hp : p < t.size) (name : String) :
    (t.converted ctx levels direction rules).cellAt? p name =
      match rules.find? (·.column == name) with
      | some rule => (t.cellAt? p name).map (Cell.mapDouble fun x =>
          convertValue ctx rule.dimension direction x (rule.baseOf levels (t.cellAt? p)))
      | none => t.cellAt? p name := by
  rw [cellAt?, column?_converted, cellAt?]
  cases hc : t.column? name with
  | none => cases rules.find? (·.column == name) <;> rfl
  | some c =>
    obtain ⟨-, rfl⟩ := mem_of_column? hc
    rw [Option.map_some, Option.bind_some, Option.bind_some, convertedColumn]
    cases rules.find? (·.column == c.name) with
    | none => rfl
    | some rule =>
      dsimp only
      rw [Column.cell?_mapDoubles]
      congr 2
      funext x
      rw [ConversionRule.convertAt, rule.getElem?_bases levels ht hp]

theorem cell?_converted (ht : t.IsRectangular) {key : RowKey} (hkey : key ∈ t.index)
    (name : String) :
    (t.converted ctx levels direction rules).cell? key name =
      match rules.find? (·.column == name) with
      | some rule => (t.cell? key name).map (Cell.mapDouble fun x =>
          convertValue ctx rule.dimension direction x (rule.baseOf levels (t.cell? key)))
      | none => t.cell? key name := by
  obtain ⟨p, hp⟩ := exists_position? hkey
  have hlt : p < t.size := (List.getElem?_eq_some_iff.mp (position?_eq_some hp)).1
  have hrow : t.cell? key = t.cellAt? p := by
    funext other
    rw [cell?_eq_bind, hp, Option.bind_some]
  have hposition : (t.converted ctx levels direction rules).position? key = some p := hp
  rw [cell?_eq_bind, hposition, Option.bind_some, cellAt?_converted ht hlt, hrow]

end Converted

end Table

/-- Adds what a rule reports on a table. -/
def reportRule (c : Category) (levels : VoltageLevels) (t : Table) (report : ConversionReport)
    (rule : ConversionRule) : Except TableError ConversionReport :=
  (rule.reportedKeys levels t).map (·.foldl (ConversionReport.add c rule) report)

/-- The rules that are left, on a table after the others. -/
theorem foldlM_convertColumn {ctx : PerUnitContext} {c : Category} {levels : VoltageLevels}
    {direction : Direction} {t : Table} (rest : List ConversionRule) :
    ∀ (done : List ConversionRule) (report : ConversionReport),
      ConversionRule.Independent (done ++ rest) →
        rest.foldlM (convertColumn ctx c levels direction)
            (t.converted ctx levels direction done, report) =
          (rest.foldlM (reportRule c levels t) report).map fun report =>
            (t.converted ctx levels direction (done ++ rest), report) := by
  induction rest with
  | nil =>
    intro done report _
    rw [List.append_nil]
    rfl
  | cons rule rest ih =>
    intro done report hrules
    have hcolumn : rule.column ∉ done.map (·.column) := by
      have hnodup := hrules.columns
      rw [List.map_append, List.nodup_append] at hnodup
      exact fun hmem => hnodup.2.2 _ hmem _ (by simp) rfl
    have hsource : ∀ name ∈ rule.source.column?, name ∉ done.map (·.column) := by
      intro name hname hmem
      obtain ⟨rule', hrule', rfl⟩ := List.mem_map.mp hmem
      exact hrules.sources rule (by simp) rule' (List.mem_append_left _ hrule') hname
    rw [List.foldlM_cons, List.foldlM_cons, reportRule,
      Table.convertColumn_converted c report hcolumn hsource]
    cases rule.reportedKeys levels t with
    | error e => rfl
    | ok keys =>
      have hsplit : done ++ rule :: rest = done ++ [rule] ++ rest := List.append_cons done rule rest
      rw [hsplit] at hrules ⊢
      exact ih (done ++ [rule]) _ hrules

/-- What conversions do to the rows that are reported. -/
theorem mem_unresolved_foldl_add {c : Category} {rule : ConversionRule} {keys : List RowKey}
    {report : ConversionReport} {key : RowKey} :
    key ∈ (keys.foldl (ConversionReport.add c rule) report).unresolved ↔
      key ∈ report.unresolved ∨ key ∈ keys := by
  induction keys generalizing report with
  | nil => simp
  | cons k keys ih =>
    rw [List.foldl_cons, ih, List.mem_cons, ← or_assoc]
    refine or_congr_left ?_
    rw [ConversionReport.add]
    by_cases hk : k ∈ report.unresolved
    · simp only [List.contains_iff_mem, hk, if_true]
      exact ⟨.inl, fun h => h.elim id fun hkey => hkey ▸ hk⟩
    · simp [hk]

theorem mem_unresolved_foldlM {c : Category} {levels : VoltageLevels} {t : Table}
    {rules : List ConversionRule} {report report' : ConversionReport}
    (h : rules.foldlM (reportRule c levels t) report = .ok report') {key : RowKey} :
    key ∈ report'.unresolved ↔ key ∈ report.unresolved ∨
      ∃ rule ∈ rules, ∃ p, t.index[p]? = some key ∧ rule.LacksBase levels t p := by
  induction rules generalizing report with
  | nil =>
    obtain rfl : report = report' := Except.ok.inj h
    simp
  | cons rule rules ih =>
    rw [List.foldlM_cons, reportRule] at h
    cases hkeys : rule.reportedKeys levels t with
    | error e =>
      rw [hkeys] at h
      cases h
    | ok keys =>
      rw [hkeys] at h
      rw [ih h, mem_unresolved_foldl_add, ConversionRule.mem_reportedKeys hkeys, or_assoc]
      simp

/-- Independent rules convert all columns at once, unless a report fails. -/
theorem foldlM_convertColumn_eq {ctx : PerUnitContext} {c : Category} {levels : VoltageLevels}
    {direction : Direction} {t : Table} {rules : List ConversionRule}
    (hrules : ConversionRule.Independent rules) :
    rules.foldlM (convertColumn ctx c levels direction) (t, {}) =
      (rules.foldlM (reportRule c levels t) {}).map fun report =>
        (t.converted ctx levels direction rules, report) := by
  have hstart : t.converted ctx levels direction [] = t := by
    have hself : ∀ d, t.column? d.name = some d →
        Table.convertedColumn ctx levels direction [] t d = id d := fun d _ => rfl
    rw [Table.converted, Table.mapFirst_congr hself, t.mapFirst_id]
  conv_lhs => rw [← hstart]
  exact foldlM_convertColumn rules [] {} hrules

/-- A conversion converts all columns at once, unless a report fails. -/
theorem convert_eq (ctx : PerUnitContext) (c : Category) (levels : VoltageLevels)
    (direction : Direction) (t : Table) :
    convert ctx c levels direction t = (c.rules.foldlM (reportRule c levels t) {}).map
      fun report => (t.converted ctx levels direction c.rules, report) :=
  foldlM_convertColumn_eq c.independent_rules

/-- A conversion that succeeds converts every column that has a rule, and reports the rows that
lack a voltage for one of them. -/
theorem convert_spec {ctx : PerUnitContext} {c : Category} {levels : VoltageLevels}
    {direction : Direction} {t u : Table} {report : ConversionReport}
    (h : convert ctx c levels direction t = .ok (u, report)) :
    u = t.converted ctx levels direction c.rules ∧
      ∀ key, key ∈ report.unresolved ↔
        ∃ rule ∈ c.rules, ∃ p, t.index[p]? = some key ∧ rule.LacksBase levels t p := by
  rw [convert_eq] at h
  cases hreport : c.rules.foldlM (reportRule c levels t) {} with
  | error e =>
    rw [hreport] at h
    cases h
  | ok report' =>
    rw [hreport] at h
    obtain ⟨rfl, rfl⟩ := Prod.mk.inj (Except.ok.inj h)
    exact ⟨rfl, fun key => by rw [mem_unresolved_foldlM hreport]; simp⟩

/-- A report succeeds exactly if every missing voltage is that of a row. -/
theorem exists_foldlM_reportRule_iff {c : Category} {levels : VoltageLevels} {t : Table}
    {rules : List ConversionRule} {report : ConversionReport} :
    (∃ report', rules.foldlM (reportRule c levels t) report = .ok report') ↔
      ∀ rule ∈ rules, ∀ p, rule.LacksBase levels t p → p < t.size := by
  induction rules generalizing report with
  | nil => exact iff_of_true ⟨report, rfl⟩ nofun
  | cons rule rules ih =>
    rw [List.forall_mem_cons, ← ConversionRule.exists_reportedKeys_iff, List.foldlM_cons]
    simp only [bind_eq_ok, reportRule, map_eq_ok]
    constructor
    · rintro ⟨report', _, ⟨keys, hkeys, -⟩, hrest⟩
      exact ⟨⟨keys, hkeys⟩, ih.mp ⟨report', hrest⟩⟩
    · rintro ⟨⟨keys, hkeys⟩, hrules⟩
      obtain ⟨report', hrest⟩ := ih.mpr hrules
      exact ⟨report', _, ⟨keys, hkeys, rfl⟩, hrest⟩

/-- A table can be converted exactly if every missing voltage is that of a row. -/
theorem exists_convert_iff {ctx : PerUnitContext} {c : Category} {levels : VoltageLevels}
    {direction : Direction} {t : Table} : (∃ r, convert ctx c levels direction t = .ok r) ↔
      ∀ rule ∈ c.rules, ∀ p, rule.LacksBase levels t p → p < t.size := by
  have hreport : (∃ report, c.rules.foldlM (reportRule c levels t) {} = .ok report) ↔
      ∀ rule ∈ c.rules, ∀ p, rule.LacksBase levels t p → p < t.size :=
    exists_foldlM_reportRule_iff
  rw [convert_eq, ← hreport]
  simp [map_eq_ok]

/-- A conversion fails at a rule that finds no voltage behind the last row. -/
theorem convert_eq_error {ctx : PerUnitContext} {c : Category} {levels : VoltageLevels}
    {direction : Direction} {t : Table} {e : TableError}
    (h : convert ctx c levels direction t = .error e) :
    ∃ rule ∈ c.rules, e = .shortColumn rule.column := by
  rw [convert_eq] at h
  cases hreport : c.rules.foldlM (reportRule c levels t) {} with
  | ok report =>
    rw [hreport] at h
    cases h
  | error e' =>
    rw [hreport] at h
    obtain rfl := Except.error.inj h
    obtain ⟨report, rule, hrule, hfails⟩ := foldlM_eq_error hreport
    refine ⟨rule, hrule, ?_⟩
    cases hkeys : rule.reportedKeys levels t with
    | ok keys =>
      rw [reportRule, hkeys] at hfails
      cases hfails
    | error e =>
      rw [reportRule, hkeys] at hfails
      exact Except.error.inj hfails ▸ ConversionRule.reportedKeys_eq_error hkeys

/-- A table whose columns are as long as the index can be converted. -/
theorem exists_convert (ctx : PerUnitContext) (c : Category) (levels : VoltageLevels)
    (direction : Direction) {t : Table} (ht : t.IsRectangular) :
    ∃ report, convert ctx c levels direction t =
      .ok (t.converted ctx levels direction c.rules, report) := by
  obtain ⟨⟨u, report⟩, h⟩ : ∃ r, convert ctx c levels direction t = .ok r :=
    exists_convert_iff.mpr fun rule _ =>
      ConversionRule.exists_reportedKeys_iff.mp (rule.exists_reportedKeys levels ht)
  exact ⟨report, by rw [h, (convert_spec h).1]⟩

end PowerTables
