import Mathlib.Data.List.Perm.Basic
import PowerTables.Assignment
import PowerTables.Proofs.Network.WellFormed
import PowerTables.Proofs.Table.Rearrangement

/-!
# Tables of assignments

Many assignments make one table for each column.  The rows of a table are the keys that are
assigned in its column, each once, and the cells are the assigned values, read as values of the
type of the column.  The column starts with missing values, of which the last one is gone when the
last value has been put in.

## Main results

* `setValues_eq`, `filledTable_eq` : values take the place of missing ones, row by row.
* `columnTable_eq_ok_iff` : the table of a column, in closed form.
* `cell?_columnTable` : its cells.
* `forall₂_updateTables` : one table for each column.
* `perm_of_parse` : texts in another order.
-/

namespace PowerTables

variable {c : Category} {schema : List ColumnSpec} {as bs : List Assignment} {name : String}
  {t : Table}

/-! ### Values of a column -/

section Values

variable {spec : ColumnSpec} {entries entries' : List (RowKey × spec.type.Value)} {a : Assignment}

/-- A value is taken if its key is new and its text can be read. -/
theorem addValue_eq_ok_iff : addValue spec entries a = .ok entries' ↔
    a.key ∉ entries.map (·.1) ∧ ∃ value, Cell.parse? spec.type a.raw = some ⟨spec.type, value⟩ ∧
      entries' = entries ++ [(a.key, value)] := by
  have hrepeated : entries.any (·.1 == a.key) = true ↔ a.key ∈ entries.map (·.1) := by
    simp [List.any_eq_true, List.mem_map]
  rw [addValue, Cell.parse?]
  by_cases hkey : a.key ∈ entries.map (·.1)
  · rw [if_pos (hrepeated.mpr hkey)]
    exact ⟨nofun, fun h => absurd hkey h.1⟩
  · rw [if_neg (mt hrepeated.mp hkey)]
    cases hvalue : Cell.readValue? spec.type (Text.trim a.raw) with
    | none => simp [hvalue]
    | some value =>
      simp only [hvalue, Option.map_some, Option.some_inj, Except.ok.injEq]
      constructor
      · rintro rfl
        exact ⟨hkey, value, rfl, rfl⟩
      · rintro ⟨-, value', heq, rfl⟩
        rw [Column.cellMk_injective _ heq]

theorem nodup_keys_append (hkeys : (entries.map (·.1)).Nodup) {key : RowKey}
    (hkey : key ∉ entries.map (·.1)) (value : spec.type.Value) :
    ((entries ++ [(key, value)]).map (·.1)).Nodup := by
  rw [List.map_append, List.map_singleton, List.nodup_append]
  refine ⟨hkeys, List.nodup_singleton _, fun k hk k' hk' heq => hkey ?_⟩
  obtain rfl := List.mem_singleton.mp hk'
  exact heq ▸ hk

/-- The values of some assignments are those that are read from their texts, and no key is assigned
twice. -/
theorem foldlM_addValue_eq_ok_iff (hkeys : (entries.map (·.1)).Nodup) :
    as.foldlM (addValue spec) entries = .ok entries' ↔
      ∃ added, List.Forall₂ (fun (a : Assignment) e =>
          a.key = e.1 ∧ Cell.parse? spec.type a.raw = some ⟨spec.type, e.2⟩) as added ∧
        entries' = entries ++ added ∧ (entries'.map (·.1)).Nodup := by
  induction as generalizing entries with
  | nil =>
    constructor
    · intro h
      obtain rfl := Except.ok.inj h
      exact ⟨[], .nil, (List.append_nil _).symm, hkeys⟩
    · rintro ⟨added, hadded, rfl, -⟩
      obtain rfl := List.forall₂_nil_left_iff.mp hadded
      rw [List.append_nil]
      rfl
  | cons a as ih =>
    rw [List.foldlM_cons, bind_eq_ok]
    constructor
    · rintro ⟨next, hnext, hrest⟩
      obtain ⟨hfresh, value, hvalue, rfl⟩ := addValue_eq_ok_iff.mp hnext
      obtain ⟨added, hadded, rfl, hapart⟩ := (ih (nodup_keys_append hkeys hfresh value)).mp hrest
      exact ⟨(a.key, value) :: added, .cons ⟨rfl, hvalue⟩ hadded, List.append_assoc _ _ _, hapart⟩
    · rintro ⟨added, hadded, rfl, hapart⟩
      obtain ⟨⟨key, value⟩, rest, ⟨rfl, hvalue⟩, hrest, rfl⟩ :=
        List.forall₂_cons_left_iff.mp hadded
      have hfresh : a.key ∉ entries.map (·.1) := by
        rw [List.map_append, List.nodup_append] at hapart
        exact fun hmem => hapart.2.2 _ hmem _ List.mem_cons_self rfl
      refine ⟨entries ++ [(a.key, value)], addValue_eq_ok_iff.mpr ⟨hfresh, value, hvalue, rfl⟩, ?_⟩
      exact (ih (nodup_keys_append hkeys hfresh value)).mpr
        ⟨rest, hrest, List.append_cons _ _ _, hapart⟩

theorem foldlM_addValue_nil_eq_ok_iff : as.foldlM (addValue spec) [] = .ok entries ↔
    List.Forall₂ (fun (a : Assignment) e =>
      a.key = e.1 ∧ Cell.parse? spec.type a.raw = some ⟨spec.type, e.2⟩) as entries ∧
      (entries.map (·.1)).Nodup := by
  rw [foldlM_addValue_eq_ok_iff (by exact List.nodup_nil)]
  constructor
  · rintro ⟨_, hread, rfl, hkeys⟩
    exact ⟨hread, hkeys⟩
  · rintro ⟨hread, hkeys⟩
    exact ⟨entries, hread, rfl, hkeys⟩

end Values

/-! ### The table of a column -/

section Filling

variable {spec : ColumnSpec} {key : RowKey} {value : spec.type.Value}

/-- The table of a column while its values are put in: those of the other rows are missing. -/
def partlyFilled (spec : ColumnSpec) (done rest : List (RowKey × spec.type.Value)) : Table :=
  ⟨(done ++ rest).map (·.1),
    [⟨spec.name, spec.type, done.map (·.2) ++ List.replicate rest.length spec.type.missing⟩]⟩

/-- A value takes the place of the first missing one, which is that of its row. -/
theorem setValue_eq {done rest : List (RowKey × spec.type.Value)}
    (hkeys : ((done ++ (key, value) :: rest).map (·.1)).Nodup) :
    (partlyFilled spec done ((key, value) :: rest)).setCell key spec.name ⟨spec.type, value⟩ =
      .ok (partlyFilled spec (done ++ [(key, value)]) rest) := by
  have hposition : (partlyFilled spec done ((key, value) :: rest)).position? key =
      some done.length := Table.position?_of_nodup hkeys (by simp [partlyFilled])
  have hvalues : (done.map (·.2) ++ List.replicate (rest.length + 1) spec.type.missing).set
        done.length value =
      (done ++ [(key, value)]).map (·.2) ++ List.replicate rest.length spec.type.missing := by
    rw [List.set_append_right _ _ (by simp), List.length_map, Nat.sub_self, List.replicate_succ,
      List.set_cons_zero]
    simp
  have hlt : ¬done.length + (rest.length + 1) ≤ done.length := by omega
  rw [Table.setCell, hposition]
  simp [partlyFilled, Table.setAt, Table.column?, Column.setCell, Column.length, Except.map,
    Table.mapColumn, Table.mapColumn.go, hvalues, hlt]

/-- The values are put in from the first row to the last. -/
theorem setValues_eq (done rest : List (RowKey × spec.type.Value))
    (hkeys : ((done ++ rest).map (·.1)).Nodup) :
    rest.foldlM (fun t (key, value) => t.setCell key spec.name ⟨spec.type, value⟩)
        (partlyFilled spec done rest) = .ok (partlyFilled spec (done ++ rest) []) := by
  induction rest generalizing done with
  | nil =>
    rw [List.append_nil]
    rfl
  | cons e rest ih =>
    obtain ⟨key, value⟩ := e
    have hrest := ih (done ++ [(key, value)]) (by rwa [← List.append_cons])
    rw [← List.append_cons] at hrest
    rw [List.foldlM_cons]
    dsimp only
    rw [setValue_eq hkeys]
    exact hrest

/-- No missing value is left in a column in which every row has a value. -/
theorem filledTable_eq {entries : List (RowKey × spec.type.Value)}
    (hkeys : (entries.map (·.1)).Nodup) : filledTable spec entries =
      .ok ⟨entries.map (·.1), [⟨spec.name, spec.type, entries.map (·.2)⟩]⟩ := by
  have hinserted : (Table.ofIndex (entries.map (·.1))).insertColumn
      (.missing spec.name spec.type entries.length) = .ok (partlyFilled spec [] entries) := by
    simp [Table.insertColumn, Table.ofIndex, Table.hasColumn, Table.size, Column.missing,
      Column.length, partlyFilled]
  have hfilled := setValues_eq [] entries hkeys
  rw [filledTable, hinserted]
  refine hfilled.trans ?_
  simp [partlyFilled]

end Filling

/-- The table of a column has the values of its assignments, and its keys are apart. -/
theorem columnTable_eq_ok_iff : columnTable c schema as name = .ok t ↔
    ∃ spec entries, schema.find? (·.name == name) = some spec ∧
      List.Forall₂ (fun (a : Assignment) (e : RowKey × spec.type.Value) =>
        a.key = e.1 ∧ Cell.parse? spec.type a.raw = some ⟨spec.type, e.2⟩)
        (as.filter (·.column == name)) entries ∧
      (entries.map (·.1)).Nodup ∧
      t = ⟨entries.map (·.1), [⟨name, spec.type, entries.map (·.2)⟩]⟩ := by
  rw [columnTable]
  cases hspec : schema.find? (·.name == name) with
  | none => simp
  | some spec =>
    obtain rfl : spec.name = name := by simpa using List.find?_some hspec
    constructor
    · intro h
      obtain ⟨entries, hread, h⟩ := bind_eq_ok.mp h
      obtain ⟨hread, hkeys⟩ := foldlM_addValue_nil_eq_ok_iff.mp hread
      rw [filledTable_eq hkeys] at h
      exact ⟨spec, entries, rfl, hread, hkeys, (Except.ok.inj h).symm⟩
    · rintro ⟨spec', entries, heq, hread, hkeys, rfl⟩
      obtain rfl := Option.some.inj heq
      refine bind_eq_ok.mpr ⟨entries, foldlM_addValue_nil_eq_ok_iff.mpr ⟨hread, hkeys⟩, ?_⟩
      rw [filledTable_eq hkeys]
      rfl

theorem isKeyed_columnTable (h : columnTable c schema as name = .ok t) : t.IsKeyed := by
  obtain ⟨spec, entries, -, -, hkeys, rfl⟩ := columnTable_eq_ok_iff.mp h
  refine ⟨fun col hcol => ?_, hkeys, List.nodup_singleton _⟩
  obtain rfl := List.mem_singleton.mp hcol
  simp [Column.length, Table.size]

theorem signature_columnTable (h : columnTable c schema as name = .ok t) :
    ∃ spec, schema.find? (·.name == name) = some spec ∧ t.signature = [(name, spec.type)] := by
  obtain ⟨spec, entries, hspec, -, -, rfl⟩ := columnTable_eq_ok_iff.mp h
  exact ⟨spec, hspec, rfl⟩

theorem columnNames_columnTable (h : columnTable c schema as name = .ok t) :
    t.columnNames = [name] := by
  obtain ⟨spec, -, hsignature⟩ := signature_columnTable h
  rw [← Table.map_fst_signature, hsignature]
  rfl

/-- The rows are those that are assigned. -/
theorem index_columnTable (h : columnTable c schema as name = .ok t) :
    t.index = (as.filter (·.column == name)).map (·.key) := by
  obtain ⟨spec, entries, -, hadded, -, rfl⟩ := columnTable_eq_ok_iff.mp h
  exact (map_eq_map_of_forall₂ (hadded.imp fun _ _ h => h.1)).symm

/-- The cells are those that are assigned. -/
theorem cell?_columnTable (h : columnTable c schema as name = .ok t) {spec : ColumnSpec}
    (hspec : schema.find? (·.name == name) = some spec) {key : RowKey} {cell : Cell} :
    t.cell? key name = some cell ↔
      ∃ a ∈ as, a.column = name ∧ a.key = key ∧ Cell.parse? spec.type a.raw = some cell := by
  rw [(isKeyed_columnTable h).cell?_eq_some_iff]
  obtain ⟨spec', entries, hspec', hadded, -, rfl⟩ := columnTable_eq_ok_iff.mp h
  obtain rfl : spec' = spec := Option.some.inj (hspec'.symm.trans hspec)
  have hzip : (entries.map (·.1)).zip (Column.cells ⟨name, spec'.type, entries.map (·.2)⟩) =
      entries.map fun e => (e.1, Cell.mk spec'.type e.2) := by
    rw [Column.cells, List.map_map, List.zip_map']
    rfl
  constructor
  · rintro ⟨col, hcol, -, hmem⟩
    obtain rfl := List.mem_singleton.mp hcol
    obtain ⟨e, he, heq⟩ := List.mem_map.mp (hzip ▸ hmem)
    obtain ⟨rfl, rfl⟩ := Prod.mk.inj heq
    obtain ⟨a, ha, hkey, hvalue⟩ := exists_of_forall₂ hadded.flip he
    obtain ⟨ha, hname⟩ := List.mem_filter.mp ha
    exact ⟨a, ha, by simpa using hname, hkey, hvalue⟩
  · rintro ⟨a, ha, hname, rfl, hvalue⟩
    obtain ⟨e, he, hkey, hvalue'⟩ :=
      exists_of_forall₂ hadded (List.mem_filter.mpr ⟨ha, by simpa using hname⟩)
    refine ⟨_, List.mem_singleton_self _, rfl, hzip ▸ List.mem_map.mpr ⟨e, he, ?_⟩⟩
    rw [hkey, Option.some.inj (hvalue.symm.trans hvalue')]

/-- There is one table for each assigned column. -/
theorem forall₂_updateTables {tables : List Table} (h : updateTables c schema as = .ok tables) :
    List.Forall₂ (fun name t => columnTable c schema as name = .ok t)
      (as.map (·.column)).eraseDups tables := by
  have hmap := mapM_eq_some_iff.mp (mapM_toOption h)
  exact hmap.imp fun _ _ h => toOption_eq_some_iff.mp h

/-- Texts in another order are read as assignments in that order. -/
theorem perm_of_parse {texts texts' : List String} (hperm : texts.Perm texts')
    (h : texts.mapM Assignment.parse = .ok as) (h' : texts'.mapM Assignment.parse = .ok bs) :
    as.Perm bs := by
  have hread := mapM_eq_some_iff.mp (mapM_toOption h)
  have hread' := mapM_eq_some_iff.mp (mapM_toOption h')
  obtain ⟨cs, hcs, hcsperm⟩ := List.perm_comp_forall₂ hperm hread'
  obtain rfl : cs = as := by
    refine List.right_unique_forall₂' (fun _ _ _ ha hb => ?_) hcs hread
    exact Option.some.inj (ha.symm.trans hb)
  exact hcsperm

end PowerTables
