import PowerTables.Network.Samples
import PowerTables.Network.Store
import PowerTables.Proofs.PerUnit.Rules
import PowerTables.Proofs.Table.WellFormed

/-!
# Well-formed networks

In a network that came about through the operations of a store, every table of every variant
has the columns of its category, each as long as the index, and the working variant exists.
Each change of a network keeps this.

## Main definitions

* `Table.Fits` : a table has the columns of a category, each as long as the index.
* `Tables.WellFormed`, `Network.WellFormed` : all tables fit.
* `Tables.SameShape` : no table gained or lost rows or columns.
* `Network.SameBut` : what stays when one table of the working variant is changed.

## Main results

* `Network.ofSnapshot_eq_ok_iff` : the snapshots that are accepted are those of well-formed
  networks of the known version.
* `Network.WellFormed.of_ofSnapshot`, `Network.WellFormed.of_ofElements` : networks that are
  read and made.
* `Network.WellFormed.changeTables`, `Network.WellFormed.cloneVariant` and the like : changes.
-/

namespace PowerTables

/-! ### Tables of a category -/

theorem Category.mem_all (c : Category) : c ∈ Category.all := by
  cases c <;> decide

/-- The names and types of the columns of a category, in display order. -/
def Category.signature (c : Category) : List (String × CellType) :=
  c.schema.map fun spec => (spec.name, spec.type)

/-- A table has the columns of a category, each as long as the index. -/
structure Table.Fits (c : Category) (t : Table) : Prop where
  signature : t.signature = c.signature
  rectangular : t.IsRectangular

namespace Table

variable {c : Category} {t u : Table}

theorem Fits.columnNames (h : t.Fits c) : t.columnNames = c.schema.map (·.name) := by
  rw [← map_fst_signature, h.signature, Category.signature, List.map_map]
  rfl

theorem Fits.nodup_columnNames (h : t.Fits c) : t.columnNames.Nodup :=
  h.columnNames ▸ c.nodup_schemaNames

theorem Fits.type_column? (h : t.Fits c) (name : String) :
    (t.column? name).map (·.type) = (c.column? name).map (·.type) := by
  rw [column?_map_type, h.signature, Category.signature, Category.column?, List.find?_map]
  simp [Function.comp_def]

theorem Fits.mem_columnNames_iff (h : t.Fits c) {name : String} :
    name ∈ t.columnNames ↔ ∃ spec, c.column? name = some spec := by
  rw [h.columnNames, List.mem_map]
  simp only [Category.column?_eq_some_iff]

theorem Fits.exists_column? (h : t.Fits c) {name : String} {spec : ColumnSpec}
    (hspec : c.column? name = some spec) :
    ∃ col, t.column? name = some col ∧ col.type = spec.type ∧ col.length = t.size := by
  have htype := h.type_column? name
  rw [hspec, Option.map_some] at htype
  obtain ⟨col, hcol, htype⟩ := Option.map_eq_some_iff.mp htype
  exact ⟨col, hcol, htype, h.rectangular col (mem_of_column? hcol).1⟩

theorem SameShape.fits (h : SameShape t u) (ht : t.Fits c) : u.Fits c :=
  ⟨h.signature.trans ht.signature, h.isRectangular ht.rectangular⟩

theorem fits_emptyTable (c : Category) : c.emptyTable.Fits c := by
  refine ⟨?_, ?_⟩
  · simp [Table.signature, Category.emptyTable, Category.signature, Column.empty,
      Function.comp_def]
  · intro col hcol
    obtain ⟨spec, -, rfl⟩ := List.mem_map.mp hcol
    rfl

/-- A row that is taken in has a cell of the right type for every column. -/
theorem Fits.pushRow (ht : t.Fits c) {key : RowKey} {cells : List Cell}
    (h : t.pushRow key cells = .ok u) : u.Fits c :=
  ⟨(signature_pushRow h).trans ht.signature, ht.rectangular.pushRow h⟩

theorem sameShape_setFlag {key : RowKey} {column : String} {value changed : Bool}
    (h : t.setFlag key column value = .ok (changed, u)) : SameShape t u := by
  rw [setFlag] at h
  split at h
  · obtain ⟨-, rfl⟩ := Prod.mk.inj (Except.ok.inj h)
    exact .refl t
  · obtain ⟨v, hv, heq⟩ := map_eq_ok.mp h
    obtain ⟨-, rfl⟩ := Prod.mk.inj heq
    exact (setCell_spec hv).1

theorem sameShape_setFlags {key : RowKey} {columns : List String} {value changed : Bool}
    (h : t.setFlags key columns value = .ok (changed, u)) : SameShape t u := by
  rw [setFlags] at h
  generalize false = changed' at h
  induction columns generalizing t changed' with
  | nil =>
    obtain ⟨-, rfl⟩ := Prod.mk.inj (Except.ok.inj h)
    exact .refl t
  | cons column columns ih =>
    obtain ⟨⟨changed'', v⟩, hv, h⟩ := bind_eq_ok.mp h
    obtain ⟨⟨here, w⟩, hw, heq⟩ := map_eq_ok.mp hv
    obtain ⟨-, rfl⟩ := Prod.mk.inj heq
    exact (sameShape_setFlag hw).trans (ih _ h)

end Table

/-- Cells are made for columns that are declared and open to writes, one for each key. -/
theorem Category.column?_of_cellsFor {c : Category} {column : String} {keys : List RowKey}
    {batch : Batch} {cells : List Cell} (h : c.cellsFor column keys batch = .ok cells) :
    ∃ type, c.column? column = some ⟨column, type, true⟩ ∧ batch.cells? type = some cells ∧
      keys.length = batch.size := by
  rw [cellsFor] at h
  split at h
  · cases h
  next spec hspec =>
  split at h
  · cases h
  next cells' hcells =>
  split at h
  · cases h
  next hwritable =>
  split at h
  · cases h
  next hlength =>
  cases h
  obtain ⟨name, type, writable⟩ := spec
  obtain rfl : name = column := (column?_eq_some_iff.mp hspec).2
  obtain rfl : writable = true := by simpa using hwritable
  exact ⟨type, hspec, hcells, not_not.mp hlength⟩

/-! ### The tables of a variant -/

/-- Every table fits its category. -/
def Tables.WellFormed (ts : Tables) : Prop := ∀ c, (ts c).Fits c

namespace Tables

variable {ts us : Tables}

theorem set_eq_self (ts : Tables) (c : Category) : ts.set c (ts c) = ts := by
  funext d
  by_cases hd : d = c
  · rw [hd, set_self]
  · rw [set_of_ne _ _ hd]

theorem set_set (ts : Tables) (c : Category) (t u : Table) :
    (ts.set c t).set c u = ts.set c u := by
  funext d
  by_cases hd : d = c
  · rw [hd, set_self, set_self]
  · rw [set_of_ne _ _ hd, set_of_ne _ _ hd, set_of_ne _ _ hd]

theorem wellFormed_empty : Tables.WellFormed .empty := Table.fits_emptyTable

theorem WellFormed.set (hts : ts.WellFormed) {c : Category} {t : Table} (ht : t.Fits c) :
    (ts.set c t).WellFormed := by
  intro d
  by_cases hd : d = c
  · subst hd
    rwa [set_self]
  · rw [set_of_ne ts t hd]
    exact hts d

theorem WellFormed.push (hts : ts.WellFormed) {c : Category} {key : RowKey} {cells : List Cell}
    (h : ts.push c key cells = .ok us) : us.WellFormed := by
  rw [Tables.push] at h
  split at h
  · next t ht =>
    obtain rfl := Except.ok.inj h
    exact hts.set ((hts c).pushRow ht)
  · cases h

/-- Every table keeps its rows and the names, types and lengths of its columns. -/
def SameShape (ts us : Tables) : Prop := ∀ c, (ts c).SameShape (us c)

theorem sameShape_set {c : Category} {t : Table} (h : (ts c).SameShape t) :
    SameShape ts (ts.set c t) := by
  intro d
  by_cases hd : d = c
  · subst hd
    rwa [set_self]
  · rw [set_of_ne ts t hd]
    exact .refl (ts d)

theorem SameShape.wellFormed (h : SameShape ts us) (hts : ts.WellFormed) : us.WellFormed :=
  fun c => (h c).fits (hts c)

/-- Cells are written to known elements only. -/
theorem known_of_write {c : Category} {column : String} {keys : List RowKey} {cells : List Cell}
    (h : ts.write c column keys cells = .ok us) : ∀ key ∈ keys, key ∈ (ts c).index := by
  rw [Tables.write] at h
  split at h
  · cases h
  next hknown =>
  intro key hkey
  rw [← Table.isSome_position?_iff, Option.isSome_iff_ne_none]
  simpa using List.find?_eq_none.mp hknown key hkey

theorem write_eq_ok {c : Category} {column : String} {keys : List RowKey} {cells : List Cell}
    (h : ts.write c column keys cells = .ok us) :
    ∃ t, (ts c).setCells column (keys.zip cells) = .ok t ∧ us = ts.set c t := by
  rw [Tables.write] at h
  split at h
  · cases h
  split at h
  · cases h
  split at h
  · next t ht => exact ⟨t, ht, (Except.ok.inj h).symm⟩
  · cases h

theorem sameShape_write {c : Category} {column : String} {keys : List RowKey}
    {cells : List Cell} (h : ts.write c column keys cells = .ok us) : SameShape ts us := by
  obtain ⟨t, ht, rfl⟩ := write_eq_ok h
  exact sameShape_set (Table.cellAt?_setCells ht).1

theorem sameShape_setSwitch {id : String} {isOpen changed : Bool}
    (h : ts.setSwitch id isOpen = .ok (changed, us)) : SameShape ts us := by
  rw [Tables.setSwitch] at h
  split at h
  · cases h
  split at h
  · next t ht =>
    obtain ⟨-, rfl⟩ := Prod.mk.inj (Except.ok.inj h)
    exact sameShape_set (Table.sameShape_setFlag ht)
  · cases h

theorem sameShape_setConnected {id : String} {connected changed : Bool}
    (h : ts.setConnected id connected = .ok (changed, us)) : SameShape ts us := by
  rw [Tables.setConnected] at h
  split at h
  · cases h
  split at h
  · next t ht =>
    obtain ⟨-, rfl⟩ := Prod.mk.inj (Except.ok.inj h)
    exact sameShape_set (Table.sameShape_setFlags ht)
  · cases h

theorem WellFormed.write (hts : ts.WellFormed) {c : Category} {column : String}
    {keys : List RowKey} {cells : List Cell} (h : ts.write c column keys cells = .ok us) :
    us.WellFormed := (sameShape_write h).wellFormed hts

theorem WellFormed.setSwitch (hts : ts.WellFormed) {id : String} {isOpen changed : Bool}
    (h : ts.setSwitch id isOpen = .ok (changed, us)) : us.WellFormed :=
  (sameShape_setSwitch h).wellFormed hts

theorem WellFormed.setConnected (hts : ts.WellFormed) {id : String} {connected changed : Bool}
    (h : ts.setConnected id connected = .ok (changed, us)) : us.WellFormed :=
  (sameShape_setConnected h).wellFormed hts

end Tables

/-! ### Networks -/

/-- The working variant is there, and the tables of every variant fit their categories. -/
structure Network.WellFormed (n : Network) : Prop where
  working : n.hasVariant n.working = true
  tables : ∀ v ∈ n.variants, v.tables.WellFormed

namespace Network

variable {n m : Network}

theorem wellFormed_new (metadata : Metadata) : (Network.new metadata).WellFormed := by
  refine ⟨by simp [new, hasVariant], fun v hv => ?_⟩
  obtain rfl := List.mem_singleton.mp hv
  exact Tables.wellFormed_empty

theorem exists_variant? {id : String} (h : n.hasVariant id = true) :
    ∃ v, n.variant? id = some v := by
  rw [← Option.isSome_iff_exists, variant?, List.find?_isSome]
  simpa [hasVariant] using h

theorem WellFormed.exists_tables? (h : n.WellFormed) :
    ∃ ts, n.tables? = some ts ∧ ts.WellFormed := by
  obtain ⟨v, hv⟩ := exists_variant? h.working
  exact ⟨v.tables, by rw [tables?, hv]; rfl, h.tables v (List.mem_of_find?_eq_some hv)⟩

theorem tables_eq_ok {ts : Tables} : n.tables = .ok ts ↔ n.tables? = some ts := by
  rw [tables]
  cases n.tables? with
  | none => simp
  | some us => simp

theorem WellFormed.of_tables (h : n.WellFormed) {ts : Tables} (hts : n.tables = .ok ts) :
    ts.WellFormed := by
  obtain ⟨us, hus, hwf⟩ := h.exists_tables?
  rw [tables_eq_ok, hus] at hts
  exact Option.some.inj hts ▸ hwf

theorem hasVariant_iff {id : String} : n.hasVariant id = true ↔ id ∈ n.variantIds := by
  simp [hasVariant, variantIds]

theorem getElem?_setTables (n : Network) (id : String) (ts : Tables) (i : Nat) :
    (n.setTables id ts).variants[i]? = (n.variants[i]?).map fun v =>
      if n.variants.findIdx (·.id == id) = i then { v with tables := ts } else v := by
  rw [setTables, List.getElem?_modify]
  cases n.variants[i]? with
  | none => rfl
  | some v => simp [apply_ite some]

theorem variantIds_setTables (n : Network) (id : String) (ts : Tables) :
    (n.setTables id ts).variantIds = n.variantIds := by
  ext i : 1
  rw [variantIds, variantIds, List.getElem?_map, List.getElem?_map, getElem?_setTables,
    Option.map_map]
  congr 1
  funext v
  simp [apply_ite Variant.id]

theorem findIdx_variantIds (n : Network) (id : String) :
    n.variantIds.findIdx (· == id) = n.variants.findIdx (·.id == id) := by
  rw [variantIds, List.findIdx_map]
  rfl

theorem variant?_eq_getElem? (n : Network) (id : String) :
    n.variant? id = n.variants[n.variantIds.findIdx (· == id)]? := by
  rw [variant?, List.find?_eq_getElem?_findIdx, findIdx_variantIds]

theorem hasVariant_of_tables? {ts : Tables} (h : n.tables? = some ts) :
    n.hasVariant n.working = true := by
  obtain ⟨v, hv, -⟩ := Option.map_eq_some_iff.mp h
  exact List.any_eq_true.mpr ⟨v, List.mem_of_find?_eq_some hv, by simpa using List.find?_some hv⟩

theorem tables?_setTables (h : n.hasVariant n.working = true) (ts : Tables) :
    (n.setTables n.working ts).tables? = some ts := by
  obtain ⟨v, hv⟩ := exists_variant? h
  have hworking : (n.setTables n.working ts).working = n.working := rfl
  rw [tables?, hworking, variant?_eq_getElem?, variantIds_setTables, getElem?_setTables,
    ← variant?_eq_getElem?, hv, findIdx_variantIds]
  simp

theorem setTables_setTables (n : Network) (id : String) (ts us : Tables) :
    (n.setTables id ts).setTables id us = n.setTables id us := by
  suffices h : ((n.setTables id ts).setTables id us).variants = (n.setTables id us).variants from
    congrArg (Network.mk n.metadata n.working) h
  ext i : 1
  rw [getElem?_setTables, getElem?_setTables, getElem?_setTables, ← findIdx_variantIds,
    ← findIdx_variantIds, variantIds_setTables, Option.map_map]
  congr 1
  funext v
  by_cases hi : n.variantIds.findIdx (· == id) = i
  · simp [hi]
  · simp [hi]

theorem setTables_tables? {ts : Tables} (h : n.tables? = some ts) :
    n.setTables n.working ts = n := by
  suffices hvariants : (n.setTables n.working ts).variants = n.variants from
    congrArg (Network.mk n.metadata n.working) hvariants
  obtain ⟨v, hv, rfl⟩ := Option.map_eq_some_iff.mp h
  rw [variant?, List.find?_eq_getElem?_findIdx] at hv
  ext i : 1
  rw [getElem?_setTables]
  by_cases hi : n.variants.findIdx (·.id == n.working) = i
  · rw [hi] at hv
    simp [hv]
  · simp [hi]

/-- Networks that are the same but for the table of a category in the working variant. -/
structure SameBut (c : Category) (n m : Network) : Prop where
  metadata : m.metadata = n.metadata
  working : m.working = n.working
  variantIds : m.variantIds = n.variantIds
  tables : ∀ (i : Nat) (v w : Variant), n.variants[i]? = some v → m.variants[i]? = some w →
    ∀ d, d ≠ c ∨ i ≠ n.variantIds.idxOf n.working → w.tables d = v.tables d

theorem sameBut_setTables {ts : Tables} (hts : n.tables? = some ts)
    (c : Category) (t : Table) : n.SameBut c (n.setTables n.working (ts.set c t)) := by
  refine ⟨rfl, rfl, variantIds_setTables n _ _, fun i v w hv hw d hd => ?_⟩
  rw [getElem?_setTables, hv, Option.map_some, Option.some_inj] at hw
  subst hw
  split
  next hi =>
    -- at the position of the working variant, only the one category differs
    have hindex : n.variantIds.idxOf n.working = i := (findIdx_variantIds n n.working).trans hi
    have hsame : v.tables = ts := by
      rw [tables?, variant?, List.find?_eq_getElem?_findIdx, hi, hv] at hts
      exact Option.some.inj hts
    rw [hsame]
    exact Tables.set_of_ne ts t (hd.resolve_right fun hne => hne hindex.symm)
  next => rfl

theorem WellFormed.setTables (h : n.WellFormed) {ts : Tables} (hts : ts.WellFormed)
    (id : String) : (n.setTables id ts).WellFormed := by
  refine ⟨?_, fun v hv => ?_⟩
  · rw [hasVariant_iff, variantIds_setTables, ← hasVariant_iff]
    exact h.working
  · obtain ⟨i, hi⟩ := List.mem_iff_getElem?.mp hv
    rw [getElem?_setTables] at hi
    obtain ⟨w, hw, rfl⟩ := Option.map_eq_some_iff.mp hi
    split
    · exact hts
    · exact h.tables w (List.mem_of_getElem? hw)

theorem changeTables_eq_ok {α : Type} {a : α}
    {change : Tables → Except NetworkError (α × Tables)} :
    n.changeTables change = .ok (a, m) ↔ ∃ ts us, n.tables? = some ts ∧
      change ts = .ok (a, us) ∧ n.setTables n.working us = m := by
  constructor
  · intro h
    obtain ⟨ts, hts, h⟩ := bind_eq_ok.mp h
    obtain ⟨⟨a', us⟩, hus, heq⟩ := bind_eq_ok.mp h
    obtain ⟨rfl, hm⟩ := Prod.mk.inj (Except.ok.inj heq)
    exact ⟨ts, us, tables_eq_ok.mp hts, hus, hm⟩
  · rintro ⟨ts, us, hts, hus, rfl⟩
    exact bind_eq_ok.mpr ⟨ts, tables_eq_ok.mpr hts, bind_eq_ok.mpr ⟨(a, us), hus, rfl⟩⟩

theorem updateTables_eq_ok {change : Tables → Except NetworkError Tables} :
    n.updateTables change = .ok m ↔ ∃ ts us, n.tables? = some ts ∧
      change ts = .ok us ∧ n.setTables n.working us = m := by
  constructor
  · intro h
    obtain ⟨ts, hts, h⟩ := bind_eq_ok.mp h
    obtain ⟨us, hus, heq⟩ := bind_eq_ok.mp h
    exact ⟨ts, us, tables_eq_ok.mp hts, hus, Except.ok.inj heq⟩
  · rintro ⟨ts, us, hts, hus, rfl⟩
    exact bind_eq_ok.mpr ⟨ts, tables_eq_ok.mpr hts, bind_eq_ok.mpr ⟨us, hus, rfl⟩⟩

theorem WellFormed.changeTables {α : Type} {a : α}
    {change : Tables → Except NetworkError (α × Tables)} (h : n.WellFormed)
    (hchange : ∀ ts, ts.WellFormed → ∀ a us, change ts = .ok (a, us) → us.WellFormed)
    (hrun : n.changeTables change = .ok (a, m)) : m.WellFormed := by
  obtain ⟨ts, us, hts, hus, rfl⟩ := changeTables_eq_ok.mp hrun
  exact h.setTables (hchange ts (h.of_tables (tables_eq_ok.mpr hts)) a us hus) n.working

theorem WellFormed.updateTables {change : Tables → Except NetworkError Tables}
    (h : n.WellFormed)
    (hchange : ∀ ts, ts.WellFormed → ∀ us, change ts = .ok us → us.WellFormed)
    (hrun : n.updateTables change = .ok m) : m.WellFormed := by
  obtain ⟨ts, us, hts, hus, rfl⟩ := updateTables_eq_ok.mp hrun
  exact h.setTables (hchange ts (h.of_tables (tables_eq_ok.mpr hts)) us hus) n.working

theorem WellFormed.add (h : n.WellFormed) {e : Element} (hrun : n.add e = .ok m) :
    m.WellFormed := by
  obtain ⟨cells, -, hrun⟩ := bind_eq_ok.mp hrun
  exact h.updateTables (fun ts hts us hus => hts.push hus) hrun

theorem WellFormed.of_ofElements {metadata : Metadata} {elements : List Element}
    (hrun : Network.ofElements metadata elements = .ok n) : n.WellFormed := by
  rw [ofElements] at hrun
  have hstart := wellFormed_new metadata
  generalize Network.new metadata = start at hrun hstart
  induction elements generalizing start with
  | nil => exact Except.ok.inj hrun ▸ hstart
  | cons e elements ih =>
    obtain ⟨m, hm, hrun⟩ := bind_eq_ok.mp hrun
    exact ih _ hrun (hstart.add hm)

theorem WellFormed.cloneVariant (h : n.WellFormed) {source target : String}
    {mayOverwrite : Bool} (hrun : n.cloneVariant source target mayOverwrite = .ok m) :
    m.WellFormed := by
  rw [Network.cloneVariant] at hrun
  split at hrun
  · cases hrun
  next v hv =>
  have hwf := h.tables v (List.mem_of_find?_eq_some hv)
  split at hrun
  · split at hrun
    · exact Except.ok.inj hrun ▸ h.setTables hwf target
    · cases hrun
  · obtain rfl := Except.ok.inj hrun
    refine ⟨?_, fun w hw => ?_⟩
    · have := h.working
      simp_all [hasVariant]
    · rcases List.mem_append.mp hw with hw | hw
      · exact h.tables w hw
      · obtain rfl := List.mem_singleton.mp hw
        exact hwf

theorem WellFormed.selectVariant (h : n.WellFormed) {id : String}
    (hrun : n.selectVariant id = .ok m) : m.WellFormed := by
  rw [Network.selectVariant] at hrun
  split at hrun
  · next hid => exact Except.ok.inj hrun ▸ ⟨hid, h.tables⟩
  · cases hrun

theorem WellFormed.removeVariant (h : n.WellFormed) {id : String}
    (hrun : n.removeVariant id = .ok m) : m.WellFormed := by
  rw [Network.removeVariant] at hrun
  split at hrun
  · cases hrun
  split at hrun
  · cases hrun
  next hid =>
  obtain rfl := Except.ok.inj hrun
  refine ⟨?_, fun v hv => h.tables v (List.mem_of_mem_eraseP hv)⟩
  obtain ⟨v, hv, hname⟩ := List.any_eq_true.mp h.working
  refine List.any_eq_true.mpr ⟨v, ?_, hname⟩
  rw [List.mem_eraseP_of_neg]
  · exact hv
  · have : v.id = n.working := by simpa using hname
    simpa [this] using hid

/-! ### Networks that are read -/

theorem checkTable_eq_ok_iff {v : Variant} {c : Category} :
    checkTable v c = .ok () ↔ (v.tables c).Fits c := by
  rw [checkTable]
  split
  · next hsignature => exact ⟨nofun, fun h => absurd h.signature.symm hsignature⟩
  next hsignature =>
  rw [not_not] at hsignature
  split
  · next hlength =>
    obtain ⟨col, hcol, hne⟩ := List.any_eq_true.mp hlength
    exact ⟨nofun, fun h => absurd (h.rectangular col hcol) (by simpa using hne)⟩
  next hlength =>
  refine ⟨fun _ => ⟨hsignature.symm, fun col hcol => ?_⟩, fun _ => rfl⟩
  by_contra hne
  exact hlength (List.any_eq_true.mpr ⟨col, hcol, by simpa using hne⟩)

/-- What is checked when a network is read is its version and that it is well-formed. -/
theorem check_eq_ok_iff {version : Nat} :
    check version n = .ok () ↔ version = snapshotVersion ∧ n.WellFormed := by
  have htables : (n.variants.forM fun v => Category.all.forM (checkTable v)) = .ok () ↔
      ∀ v ∈ n.variants, v.tables.WellFormed := by
    simp only [forM_eq_ok_iff, checkTable_eq_ok_iff, Category.mem_all, forall_const,
      Tables.WellFormed]
  rw [check]
  by_cases hversion : version = snapshotVersion
  · by_cases hworking : n.hasVariant n.working = true
    · rw [if_neg (not_not.mpr hversion), if_neg (by simp [hworking])]
      exact htables.trans ⟨fun h => ⟨hversion, hworking, h⟩, fun h => h.2.tables⟩
    · rw [if_neg (not_not.mpr hversion), if_pos (by simpa using hworking)]
      exact ⟨nofun, fun h => absurd h.2.working hworking⟩
  · rw [if_pos hversion]
    exact ⟨nofun, fun h => absurd h.1 hversion⟩

/-- A text is accepted exactly if it describes, under the version that is written, a network
that is well-formed; the network is then taken as it is described. -/
theorem ofSnapshot_eq_ok_iff {text : String} : ofSnapshot text = .ok n ↔
    (Json.parse? text).bind ofJson? = some (snapshotVersion, n) ∧ n.WellFormed := by
  rw [ofSnapshot]
  cases (Json.parse? text).bind ofJson? with
  | none => simp
  | some described =>
    obtain ⟨version, m⟩ := described
    dsimp only
    rw [map_eq_ok, Option.some_inj, Prod.mk.injEq]
    constructor
    · rintro ⟨_, hcheck, rfl⟩
      obtain ⟨hversion, hm⟩ := check_eq_ok_iff.mp hcheck
      exact ⟨⟨hversion, rfl⟩, hm⟩
    · rintro ⟨⟨hversion, rfl⟩, hm⟩
      exact ⟨(), check_eq_ok_iff.mpr ⟨hversion, hm⟩, rfl⟩

theorem WellFormed.of_ofSnapshot {text : String} (hrun : ofSnapshot text = .ok n) :
    n.WellFormed := (ofSnapshot_eq_ok_iff.mp hrun).2

end Network

end PowerTables
