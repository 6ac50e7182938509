import PowerTables.Proofs.Json.Double
import PowerTables.Proofs.List
import PowerTables.Table.Json

/-!
# Tables that were written

A table that is written and read back has the same row keys, and the same columns in the same
order, whose cells are compared one by one: each is what the reader of its type makes of the
value that was written.  Texts, integers and truth values are the same again.  A double may be
another one, but it is missing exactly if it was missing or infinite.

## Main definitions

* `CellType.ReadsBack` : a value is read from what was written for another one.
* `CellType.Survives` : what is common to a value and to what is read for it.
* `Column.Alike`, `Table.Alike` : the cells of columns and tables are in a relation.

## Main results

* `CellType.ReadsBack.survives` : values that are read back.
* `Table.ofJson?_toJson` : the tables that are read from what was written for one.
-/

namespace PowerTables

theorem Json.items?_array_iff {α β : Type} {read? : Json → Option β} {write : α → Json}
    {l : List α} {l' : List β} :
    (array (l.map write)).items? read? = some l' ↔
      List.Forall₂ (fun a b => read? (write a) = some b) l l' := by
  rw [items?, PowerTables.mapM_eq_some_iff, List.forall₂_map_left_iff]

/-! ### Row keys -/

theorem RowKey.regular_toJson (key : RowKey) : key.toJson.Regular := by
  obtain ⟨id, number⟩ := key
  refine .record fun f hf => ?_
  cases number with
  | none =>
    obtain rfl := List.mem_singleton.mp hf
    exact .text id
  | some n =>
    obtain rfl | rfl := List.mem_pair.mp hf
    · exact .text id
    · exact Json.regular_ofInt n.toInt

/-- A key is read back. -/
theorem RowKey.ofJson?_toJson (key : RowKey) : RowKey.ofJson? key.toJson = some key := by
  obtain ⟨id, number⟩ := key
  cases number with
  | none => rfl
  | some n =>
    have hfields : (toJson ⟨id, some n⟩).fields? ["id", "num"] =
      some [some (.ofText id), some (.ofInt n.toInt)] := rfl
    have hnumber : (Json.ofInt n.toInt).optional? Json.int64? = some (some n) :=
      congrArg (Option.map some) (Json.int64?_ofInt n)
    rw [ofJson?, hfields, Option.bind_eq_bind, Option.bind_some]
    dsimp only
    rw [hnumber]
    rfl

/-! ### Values -/

namespace CellType

/-- A value is read from what was written for another one. -/
def ReadsBack (type : CellType) (v w : type.Value) : Prop :=
  type.valueOfJson? (type.valueToJson v) = some w

/-- What is common to a value and to what is read for it: everything, but for a double only
whether it is missing, where an infinite one counts as missing, and whether it is finite. -/
def Survives : (type : CellType) → type.Value → type.Value → Prop
  | .string, s, s' => s' = s
  | .double, x, y => (y.isNaN = true ↔ x.isNaN = true ∨ x.isInf = true) ∧
      (y.isFinite = true ↔ x.isFinite = true)
  | .int, n, n' => n' = n
  | .boolean, b, b' => b' = b

theorem ReadsBack.survives {type : CellType} {v w : type.Value} (h : type.ReadsBack v w) :
    type.Survives v w := by
  cases type with
  | string => exact (Option.some.inj h).symm
  | double => exact Json.doubleOrMissing?_ofDouble h
  | int => exact Option.some.inj (h.symm.trans (Json.int64?_ofInt v))
  | boolean => exact (Option.some.inj h).symm

theorem readsBack_self {type : CellType} (htype : type ≠ .double) (v : type.Value) :
    type.ReadsBack v v := by
  cases type with
  | string => rfl
  | double => exact absurd rfl htype
  | int => exact Json.int64?_ofInt v
  | boolean => rfl

theorem regular_valueToJson (type : CellType) (v : type.Value) :
    (type.valueToJson v).Regular := by
  cases type with
  | string => exact .text v
  | double => exact Json.regular_ofDouble v
  | int => exact Json.regular_ofInt _
  | boolean => exact .bool v

theorem ofName?_name (type : CellType) : ofName? type.name = some type := by
  cases type <;> rfl

end CellType

/-! ### Columns and tables -/

section Alike

variable (R : (type : CellType) → type.Value → type.Value → Prop)

/-- Columns of one name and type whose values are in a relation, one by one. -/
inductive Column.Alike : Column → Column → Prop
  | intro (name : String) (type : CellType) {values values' : List type.Value} :
    List.Forall₂ (R type) values values' → Alike ⟨name, type, values⟩ ⟨name, type, values'⟩

/-- Tables with the same row keys whose columns are alike, one by one. -/
structure Table.Alike (t u : Table) : Prop where
  index : u.index = t.index
  columns : List.Forall₂ (Column.Alike R) t.columns u.columns

variable {R}

theorem Column.Alike.mono {R' : (type : CellType) → type.Value → type.Value → Prop}
    (hR : ∀ type v w, R type v w → R' type v w) {c d : Column} (h : Alike R c d) :
    Alike R' c d := by
  obtain ⟨name, type, hvalues⟩ := h
  exact .intro name type (hvalues.imp fun v w => hR type v w)

theorem Table.Alike.mono {R' : (type : CellType) → type.Value → type.Value → Prop}
    (hR : ∀ type v w, R type v w → R' type v w) {t u : Table} (h : Alike R t u) :
    Alike R' t u :=
  ⟨h.index, h.columns.imp fun _ _ => Column.Alike.mono hR⟩

theorem Column.alike_self_iff {c : Column} : Alike R c c ↔ ∀ v ∈ c.values, R c.type v v := by
  obtain ⟨name, type, values⟩ := c
  constructor
  · intro h
    cases h with
    | intro _ _ hvalues => exact List.forall₂_same.mp hvalues
  · intro h
    exact .intro name type (List.forall₂_same.mpr h)

theorem Table.alike_self_iff {t : Table} : Alike R t t ↔ ∀ c ∈ t.columns, Column.Alike R c c :=
  ⟨fun h => List.forall₂_same.mp h.columns, fun h => ⟨rfl, List.forall₂_same.mpr h⟩⟩

end Alike

namespace Column

/-- A column is read back as it was exactly if all its doubles are. -/
theorem readsBack_self_iff {c : Column} : Alike CellType.ReadsBack c c ↔
    ∀ xs, c.valuesAs? .double = some xs → ∀ x ∈ xs, CellType.ReadsBack .double x x := by
  obtain ⟨name, type, values⟩ := c
  rw [alike_self_iff]
  by_cases htype : type = .double
  · subst htype
    simp [valuesAs?]
  · simp [valuesAs?, htype, CellType.readsBack_self]

theorem regular_toJson (c : Column) : c.toJson.Regular := by
  have hdata : c.dataToJson.Regular := by
    refine .record fun f hf => ?_
    obtain rfl | rfl := List.mem_pair.mp hf
    · exact .text _
    · exact .array (List.forall_mem_map.mpr fun v _ => c.type.regular_valueToJson v)
  refine .record fun f hf => ?_
  obtain rfl | rfl := List.mem_pair.mp hf
  · exact .text _
  · exact hdata

theorem typeOfJson?_name (type : CellType) (values : Json) :
    typeOfJson? (.record [("type", .ofText type.name), ("values", values)])
      (.ofText type.name) = some type :=
  type.ofName?_name

/-- The columns that are read from what was written for one. -/
theorem ofJson?_toJson {c d : Column} :
    Column.ofJson? c.toJson = some d ↔ Alike CellType.ReadsBack c d := by
  obtain ⟨name, type, values⟩ := c
  have hfields : (toJson ⟨name, type, values⟩).fields? ["name", "data"] =
    some [some (.ofText name), some (dataToJson ⟨name, type, values⟩)] := rfl
  have hdata : (dataToJson ⟨name, type, values⟩).fields? ["type", "values"] =
    some [some (.ofText type.name), some (.array (values.map type.valueToJson))] := rfl
  have htype : typeOfJson? (dataToJson ⟨name, type, values⟩) (.ofText type.name) = some type :=
    typeOfJson?_name type _
  have hread : Column.ofJson? (toJson ⟨name, type, values⟩) =
      ((Json.array (values.map type.valueToJson)).items? type.valueOfJson?).map
        fun values => ⟨name, type, values⟩ := by
    have hname : (Json.ofText name).text? = some name := rfl
    simp only [Column.ofJson?, hfields, hname, hdata, htype, Option.bind_eq_bind,
      Option.bind_some, Option.map_eq_bind]
    rfl
  rw [hread, Option.map_eq_some_iff]
  constructor
  · rintro ⟨values', hvalues, rfl⟩
    exact .intro name type (Json.items?_array_iff.mp hvalues)
  · intro h
    cases h with
    | intro _ _ hvalues => exact ⟨_, Json.items?_array_iff.mpr hvalues, rfl⟩

end Column

namespace Table

theorem regular_toJson (t : Table) : t.toJson.Regular := by
  refine .record fun f hf => ?_
  obtain rfl | rfl := List.mem_pair.mp hf
  · exact .array (List.forall_mem_map.mpr fun key _ => key.regular_toJson)
  · exact .array (List.forall_mem_map.mpr fun c _ => c.regular_toJson)

/-- The tables that are read from what was written for one. -/
theorem ofJson?_toJson {t u : Table} :
    Table.ofJson? t.toJson = some u ↔ Alike CellType.ReadsBack t u := by
  have hfields : t.toJson.fields? ["index", "columns"] =
    some [some (.array (t.index.map RowKey.toJson)),
      some (.array (t.columns.map Column.toJson))] := rfl
  have hindex : (Json.array (t.index.map RowKey.toJson)).items? RowKey.ofJson? =
      some t.index := by
    rw [Json.items?_array_iff, List.forall₂_same]
    exact fun key _ => key.ofJson?_toJson
  have hread : Table.ofJson? t.toJson =
      ((Json.array (t.columns.map Column.toJson)).items? Column.ofJson?).map
        fun columns => ⟨t.index, columns⟩ := by
    simp only [Table.ofJson?, hfields, hindex, Option.bind_eq_bind, Option.bind_some,
      Option.map_eq_bind]
    rfl
  rw [hread, Option.map_eq_some_iff]
  simp only [Json.items?_array_iff, Column.ofJson?_toJson]
  constructor
  · rintro ⟨columns, hcolumns, rfl⟩
    exact ⟨rfl, hcolumns⟩
  · rintro ⟨hkeys, hcolumns⟩
    exact ⟨u.columns, hcolumns, by rw [← hkeys]⟩

end Table

end PowerTables
