import Mathlib.Algebra.BigOperators.Group.List.Lemmas
import Mathlib.Algebra.GroupWithZero.Nat
import PowerTables.Proofs.Assignment.Reading
import PowerTables.Proofs.Assignment.Tables
import PowerTables.Proofs.Table.Parsing

/-!
# Where assignments are placed

The tables of many assignments hold one cell for each of them, however the columns are interleaved:
no assignment is lost, none is put in twice, and no cell is left that was not assigned.  A cell is
the one that its text stands for.

## Main definitions

* `Assignable` : the assignments that have tables.
* `Table.Places` : the table of one column.
* `Table.cellCount` : how many cells a table has.

## Main results

* `exists_columnTable_iff` : whether the assignments of one column have a table.
* `places_columnTable` : what is in it.
* `updateTables_places` : the same for all columns.
-/

namespace PowerTables

variable {c : Category} {schema : List ColumnSpec} {as : List Assignment} {name : String}
  {spec : ColumnSpec} {t : Table}

/-- Assignments that have tables.  Every column is known, every text stands for a cell of the type
of its column, and no cell is assigned twice. -/
structure Assignable (schema : List ColumnSpec) (as : List Assignment) : Prop where
  column : ∀ a ∈ as, ∃ spec ∈ schema, spec.name = a.column
  value : ∀ a ∈ as, ∀ spec ∈ schema, spec.name = a.column →
    ∃ cell : Cell, cell.type = spec.type ∧ cell.Denoted a.raw
  once : (as.map Assignment.target).Nodup

namespace Table

/-- A table that has the assignments of one column and nothing else.  Its rows are the assigned
keys in the order of the assignments. -/
structure Places (t : Table) (spec : ColumnSpec) (as : List Assignment) : Prop where
  signature : t.signature = [(spec.name, spec.type)]
  index : t.index = (as.filter (·.column == spec.name)).map (·.key)
  nodup : t.index.Nodup
  rectangular : t.IsRectangular
  cell? : ∀ (key : RowKey) (name : String) (cell : Cell), t.cell? key name = some cell ↔
    ∃ a ∈ as, a.target = (key, name) ∧ name = spec.name ∧
      cell.type = spec.type ∧ cell.Denoted a.raw

/-- The number of cells of a table. -/
def cellCount (t : Table) : Nat := (t.columns.map (·.length)).sum

end Table

/-! ### Counting by columns -/

/-- No cell is assigned twice if no key is assigned twice in any column. -/
theorem nodup_targets_iff : (as.map Assignment.target).Nodup ↔
    ∀ a ∈ as, ((as.filter (·.column == a.column)).map (·.key)).Nodup := by
  have hcolumn (name : String) : ((as.filter (·.column == name)).map (·.key)).Nodup ↔
      as.Pairwise fun a b => a.column = name → b.column = name → a.key ≠ b.key := by
    simp [List.Nodup, List.pairwise_map, List.pairwise_filter]
  rw [List.Nodup, List.pairwise_map]
  constructor
  · intro h a _
    rw [hcolumn]
    refine h.imp fun htarget ha hb hkey => htarget ?_
    exact Prod.ext hkey (ha.trans hb.symm)
  · intro h
    rw [List.pairwise_iff_forall_sublist]
    intro a b hab htarget
    obtain ⟨hkey, hname⟩ := Prod.mk.inj htarget
    have ha : a ∈ as := hab.subset List.mem_cons_self
    exact List.pairwise_iff_forall_sublist.mp ((hcolumn a.column).mp (h a ha)) hab rfl hname.symm
      hkey

/-- Every entry of a list is counted once. -/
theorem sum_count_eraseDups {α : Type} [DecidableEq α] (l : List α) :
    (l.eraseDups.map fun a => l.count a).sum = l.length := by
  have hperm : l.eraseDups.Perm l.dedup :=
    (List.perm_ext_iff_of_nodup (nodup_eraseDups l) l.nodup_dedup).mpr fun a => by
      rw [List.mem_eraseDups, List.mem_dedup]
  rw [(hperm.map _).sum_eq, List.sum_map_count_dedup_eq_length]

/-! ### The table of a column -/

/-- The assignments of a column have a table if the column is known, their texts can be read and
their keys are apart. -/
theorem exists_columnTable_iff (hnames : (schema.map (·.name)).Nodup) :
    (∃ t, columnTable c schema as name = .ok t) ↔ ∃ spec ∈ schema, spec.name = name ∧
      (∀ a ∈ as, a.column = name → (Cell.parse? spec.type a.raw).isSome) ∧
      ((as.filter (·.column == name)).map (·.key)).Nodup := by
  constructor
  · rintro ⟨t, ht⟩
    have hkeys := (isKeyed_columnTable ht).keys
    rw [index_columnTable ht] at hkeys
    obtain ⟨spec, entries, hspec, hread, -, -⟩ := columnTable_eq_ok_iff.mp ht
    obtain ⟨hmem, hname⟩ := (find?_key_eq_some_iff hnames).mp hspec
    refine ⟨spec, hmem, hname, fun a ha hcolumn => ?_, hkeys⟩
    obtain ⟨e, -, -, hvalue⟩ :=
      exists_of_forall₂ hread (List.mem_filter.mpr ⟨ha, beq_iff_eq.mpr hcolumn⟩)
    exact Option.isSome_iff_exists.mpr ⟨_, hvalue⟩
  · rintro ⟨spec, hmem, hname, hvalue, hkeys⟩
    have hentry (a : Assignment) (ha : a ∈ as.filter (·.column == name)) :
        ∃ e : RowKey × spec.type.Value,
          a.key = e.1 ∧ Cell.parse? spec.type a.raw = some ⟨spec.type, e.2⟩ := by
      obtain ⟨ha, hcolumn⟩ := List.mem_filter.mp ha
      obtain ⟨cell, hcell⟩ := Option.isSome_iff_exists.mp (hvalue a ha (beq_iff_eq.mp hcolumn))
      obtain ⟨value, -, rfl⟩ := Option.map_eq_some_iff.mp hcell
      exact ⟨(a.key, value), rfl, hcell⟩
    obtain ⟨entries, hentries⟩ := exists_forall₂ hentry
    refine ⟨_, columnTable_eq_ok_iff.mpr
      ⟨spec, entries, (find?_key_eq_some_iff hnames).mpr ⟨hmem, hname⟩, hentries, ?_, rfl⟩⟩
    rwa [← map_eq_map_of_forall₂ (hentries.imp fun _ _ h => h.1)]

/-- The table of a column has a cell for each assignment in that column, and no other cells. -/
theorem places_columnTable (h : columnTable c schema as name = .ok t) :
    ∃ spec ∈ schema, spec.name = name ∧ t.Places spec as := by
  have hkeyed := isKeyed_columnTable h
  obtain ⟨spec, hspec, hsignature⟩ := signature_columnTable h
  obtain rfl : spec.name = name := by simpa using List.find?_some hspec
  refine ⟨spec, List.mem_of_find?_eq_some hspec, rfl, hsignature, index_columnTable h,
    hkeyed.keys, hkeyed.rectangular, fun key name cell => ?_⟩
  by_cases hname : name = spec.name
  · subst hname
    rw [cell?_columnTable h hspec]
    simp only [Assignment.target, Prod.mk.injEq, true_and, and_assoc, and_left_comm,
      Cell.parse?_eq_some_iff]
  · refine ⟨fun hcell => ?_, fun ⟨_, _, _, heq, _⟩ => absurd heq hname⟩
    have hmem := Table.mem_columnNames_of_cell? hcell
    rw [columnNames_columnTable h, List.mem_singleton] at hmem
    exact absurd hmem hname

/-- A table has as many cells as there are assignments in its column. -/
theorem Table.Places.cellCount_eq (h : t.Places spec as) :
    t.cellCount = (as.map (·.column)).count spec.name := by
  obtain ⟨col, hcolumns⟩ : ∃ col, t.columns = [col] := by
    rw [← List.length_eq_one_iff, ← List.length_map (fun c : Column => (c.name, c.type))]
    exact congrArg List.length h.signature
  have hlength : col.length = t.size := h.rectangular col (hcolumns ▸ List.mem_singleton_self col)
  rw [Table.cellCount, hcolumns, List.map_singleton, List.sum_singleton, hlength, Table.size,
    h.index, List.length_map, List.count, List.countP_map, List.countP_eq_length_filter]
  rfl

/-! ### The tables of all columns -/

theorem exists_updateTables_iff (hnames : (schema.map (·.name)).Nodup) :
    (∃ tables, updateTables c schema as = .ok tables) ↔ Assignable schema as := by
  constructor
  · rintro ⟨tables, htables⟩
    have hcolumn (a : Assignment) (ha : a ∈ as) :
        ∃ t, columnTable c schema as a.column = .ok t := by
      obtain ⟨t, -, ht⟩ := exists_of_forall₂ (forall₂_updateTables htables)
        (List.mem_eraseDups.mpr (List.mem_map_of_mem ha))
      exact ⟨t, ht⟩
    refine ⟨fun a ha => ?_, fun a ha spec hspec hname => ?_, nodup_targets_iff.mpr fun a ha => ?_⟩
    · obtain ⟨spec, hspec, hname, -⟩ := (exists_columnTable_iff hnames).mp (hcolumn a ha)
      exact ⟨spec, hspec, hname⟩
    · obtain ⟨spec', hspec', hname', hvalue, -⟩ :=
        (exists_columnTable_iff hnames).mp (hcolumn a ha)
      obtain rfl := List.inj_on_of_nodup_map hnames hspec hspec' (hname.trans hname'.symm)
      exact Cell.isSome_parse?_iff.mp (hvalue a ha rfl)
    · obtain ⟨-, -, -, -, hkeys⟩ := (exists_columnTable_iff hnames).mp (hcolumn a ha)
      exact hkeys
  · intro h
    refine exists_mapM fun name hname => ?_
    obtain ⟨a, ha, rfl⟩ := List.mem_map.mp (List.mem_eraseDups.mp hname)
    obtain ⟨spec, hspec, hname⟩ := h.column a ha
    exact (exists_columnTable_iff hnames).mpr ⟨spec, hspec, hname,
      fun b hb hcolumn => Cell.isSome_parse?_iff.mpr
        (h.value b hb spec hspec (hname.trans hcolumn.symm)),
      nodup_targets_iff.mp h.once a ha⟩

/-- There is a table for each assigned column. -/
theorem exists_places {names : List String} {tables : List Table}
    (h : List.Forall₂ (fun name t => columnTable c schema as name = .ok t) names tables) :
    ∃ specs ⊆ schema, specs.map (·.name) = names ∧
      List.Forall₂ (fun spec t => t.Places spec as) specs tables := by
  induction h with
  | nil => exact ⟨[], List.nil_subset _, rfl, .nil⟩
  | cons ht _ ih =>
    obtain ⟨spec, hspec, rfl, hplaces⟩ := places_columnTable ht
    obtain ⟨specs, hsubset, rfl, hrest⟩ := ih
    exact ⟨spec :: specs, List.cons_subset.mpr ⟨hspec, hsubset⟩, rfl, .cons hplaces hrest⟩

/-- Every assignment is placed in one cell.  The tables exist if every column is known, every text
can be read and no cell is assigned twice.  There is one for each assigned column then, in the order
in which the columns first occur; it has a cell for each assignment in that column and no other
ones, and so there are as many cells as assignments. -/
theorem updateTables_places (c : Category) (as : List Assignment)
    (hnames : (schema.map (·.name)).Nodup) :
    ((∃ tables, updateTables c schema as = .ok tables) ↔ Assignable schema as) ∧
      ∀ tables, updateTables c schema as = .ok tables →
        ∃ specs ⊆ schema, InFirstOrder (as.map (·.column)) (specs.map (·.name)) ∧
          (∀ name, name ∈ specs.map (·.name) ↔ name ∈ as.map (·.column)) ∧
          List.Forall₂ (fun spec t => t.Places spec as) specs tables ∧
          (tables.map Table.cellCount).sum = as.length := by
  refine ⟨exists_updateTables_iff hnames, fun tables htables => ?_⟩
  obtain ⟨specs, hspecs, hcolumns, hplaces⟩ := exists_places (forall₂_updateTables htables)
  refine ⟨specs, hspecs, hcolumns ▸ inFirstOrder_eraseDups _,
    fun name => hcolumns ▸ List.mem_eraseDups, hplaces, ?_⟩
  have hcounts : specs.map (fun spec => (as.map (·.column)).count spec.name) =
      tables.map Table.cellCount :=
    map_eq_map_of_forall₂ (hplaces.imp fun _ _ h => h.cellCount_eq.symm)
  calc (tables.map Table.cellCount).sum
      = ((specs.map (·.name)).map fun name => (as.map (·.column)).count name).sum := by
        rw [← hcounts, List.map_map]
        rfl
    _ = as.length := by rw [hcolumns, sum_count_eraseDups, List.length_map]

/-- Four columns of two phase tap changers, one of each type, assigned in turns. -/
def interleaved : List Assignment :=
  [⟨.plain "T1", "regulation_mode", " CURRENT_LIMITER "⟩, ⟨.plain "T1", "tap", "-3"⟩,
    ⟨.plain "T2", "regulation_value", "1.5e2"⟩, ⟨.plain "T2", "tap", "+12"⟩,
    ⟨.plain "T2", "regulating", "YES"⟩, ⟨.plain "T1", "regulation_value", "nan"⟩]

theorem assignable_interleaved : Assignable Category.phaseTapChanger.schema interleaved where
  column := by decide
  value := fun a ha spec hspec hname => by
    have hread : ∀ a ∈ interleaved, ∀ spec ∈ Category.phaseTapChanger.schema,
        spec.name = a.column → (Cell.parse? spec.type a.raw).isSome := by decide +kernel
    exact Cell.isSome_parse?_iff.mp (hread a ha spec hspec hname)
  once := by decide

/-- The six assignments have the values of their texts.  Put in twice they have no tables. -/
theorem updateTables_interleaved :
    (∃ tables, updateTables .phaseTapChanger Category.phaseTapChanger.schema interleaved =
        .ok tables ∧
      tables.map Table.index =
        [[.plain "T1"], [.plain "T1", .plain "T2"], [.plain "T2", .plain "T1"], [.plain "T2"]] ∧
      tables.map (·.strings? "regulation_mode") = [some ["CURRENT_LIMITER"], none, none, none] ∧
      tables.map (·.valuesAs? "tap" .int) = [none, some [-3, 12], none, none] ∧
      tables.map (·.doubles? "regulation_value") = [none, none, some [150.0, Double.nan], none] ∧
      tables.map (·.valuesAs? "regulating" .boolean) = [none, none, none, some [true]] ∧
      (tables.map Table.cellCount).sum = 6) ∧
    ¬∃ tables, updateTables .phaseTapChanger Category.phaseTapChanger.schema
      (interleaved ++ interleaved) = .ok tables := by
  have hnames := Category.phaseTapChanger.nodup_schemaNames
  have hassignments := updateTables_places .phaseTapChanger interleaved hnames
  obtain ⟨tables, htables⟩ := hassignments.1.mpr assignable_interleaved
  obtain ⟨-, -, -, -, -, hcount⟩ := hassignments.2 tables htables
  have hcolumns {α : Type} {f : Table → α} {values : List α} (h : (updateTables .phaseTapChanger
      Category.phaseTapChanger.schema interleaved).toOption.map (·.map f) = some values) :
      tables.map f = values := by
    rw [htables] at h
    exact Option.some.inj h
  refine ⟨⟨tables, htables, hcolumns (by decide +kernel), hcolumns (by decide +kernel),
    hcolumns ?_, hcolumns (by decide +kernel), hcolumns ?_, hcount⟩, fun hrepeated => ?_⟩
  · change _ = some ([none, some [-3, 12], none, none] : List (Option (List Int64)))
    decide +kernel
  · change _ = some ([none, none, none, some [true]] : List (Option (List Bool)))
    decide +kernel
  · have honce := ((updateTables_places .phaseTapChanger _ hnames).1.mp hrepeated).once
    exact absurd honce (by decide)

end PowerTables
