import PowerTables.Proofs.Session.RoundTrip

/-!
# Numbers and missing values

A double that is not a number stands for a missing value.  Where a voltage is lacking, a
conversion gives a missing value, and such values are never written: their rows are left out.
The product of a number and its base can still be missing, as a voltage that is found may be
missing itself.  These products are the only way in which a writing in per-unit loses a number.
The tables may have columns of any lengths and repeated names, and the writing may fail.

## Main definitions

* `Table.HasNumbers`, `Table.KeepsNumbers` : doubles that are numbers, and stay so.
* `SessionState.LastGiven` : the value of a table that a writing leaves in a cell.
* `SessionState.ProductsAreNumbers` : the values left are numbers after their conversion.

## Main results

* `SessionState.lastWritten?_iff` : the cells that a writing leaves.
* `Session.update_keepsNumbers_iff` : when a writing keeps all numbers.
-/

namespace PowerTables

/-! ### Numbers -/

namespace Table

/-- Every double of a table is a number. -/
def HasNumbers (t : Table) : Prop :=
  ∀ col ∈ t.columns, ∀ x ∈ (col.valuesAs? .double).getD [], Float.isNaN x = false

instance (t : Table) : Decidable t.HasNumbers :=
  inferInstanceAs (Decidable (∀ col ∈ t.columns, _))

/-- No number became a missing value. -/
def KeepsNumbers (t u : Table) : Prop :=
  ∀ p name x y, t.cellAt? p name = some ⟨.double, x⟩ → Float.isNaN x = false →
    u.cellAt? p name = some ⟨.double, y⟩ → Float.isNaN y = false

theorem HasNumbers.cell? {t : Table} (ht : t.HasNumbers) {col : Column} (hcol : col ∈ t.columns)
    {p : Nat} {x : Float} (h : col.cell? p = some ⟨.double, x⟩) : x.isNaN = false := by
  obtain ⟨name, type, values⟩ := col
  obtain rfl : .double = type := Column.type_of_cell? h
  obtain ⟨y, hy, heq⟩ := Option.map_eq_some_iff.mp h
  cases heq
  exact ht _ hcol x (List.mem_of_getElem? hy)

/-- Only the cells of the columns that are stored can be lost. -/
theorem keepsNumbers_iff {t u : Table} : t.KeepsNumbers u ↔
    ∀ col ∈ t.columns, ∀ p ∈ List.range col.length,
      ∀ x ∈ (t.cellAt? p col.name).bind (·.as? .double), Float.isNaN x = false →
        ∀ y ∈ (u.cellAt? p col.name).bind (·.as? .double), Float.isNaN y = false := by
  constructor
  · intro h col _ p _ x hx hnumber y hy
    exact h p col.name x y (Cell.bind_as?_eq_some_iff.mp hx) hnumber
      (Cell.bind_as?_eq_some_iff.mp hy)
  · intro h p name x y hx hnumber hy
    obtain ⟨col, hcol, hcell⟩ := Option.bind_eq_some_iff.mp hx
    obtain ⟨hmem, rfl⟩ := mem_of_column? hcol
    refine h col hmem p (List.mem_range.mpr ?_) x (Cell.bind_as?_eq_some_iff.mpr hx) hnumber y
      (Cell.bind_as?_eq_some_iff.mpr hy)
    rw [← Nat.not_le, ← Column.cell?_eq_none_iff, hcell]
    exact Option.some_ne_none _

instance (t u : Table) : Decidable (t.KeepsNumbers u) := decidable_of_iff' _ keepsNumbers_iff

theorem KeepsNumbers.refl (t : Table) : t.KeepsNumbers t := by
  intro p name x y hx hnumber hy
  cases hx.symm.trans hy
  exact hnumber

end Table

/-! ### The last value for a cell -/

namespace Table

variable {t : Table} {keys : List RowKey} {cols : List Column} {p : Nat} {cell : Cell}

theorem lastWritten?_eq_some_iff {name : String} :
    t.lastWritten? keys cols p name = some cell ↔ ∃ (j : Nat) (col : Column),
      cols[j]? = some col ∧ col.name = name ∧
      (∀ (i : Nat) (col' : Column), j < i → cols[i]? = some col' → col'.name ≠ name) ∧
      t.lastFor? (keys.zip col.cells) p = some cell := by
  rw [lastWritten?, Option.bind_eq_some_iff]
  simp only [find?_reverse_eq_some_iff]
  constructor
  · rintro ⟨col, ⟨j, hj, hname, hlast⟩, hcell⟩
    exact ⟨j, col, hj, by simpa using hname,
      fun i col' hi hcol' => by simpa using hlast i col' hi hcol', hcell⟩
  · rintro ⟨j, col, hj, hname, hlast, hcell⟩
    exact ⟨col, ⟨j, hj, by simpa using hname,
      fun i col' hi hcol' => by simpa using hlast i col' hi hcol'⟩, hcell⟩

end Table

/-! ### What is handed over -/

namespace SessionState

variable {s : SessionState} {c : Category} {t : Table}

/-- The table that a writing in per-unit hands over; an empty one where the conversion fails. -/
def handedOver (s : SessionState) (c : Category) (t : Table) : Table :=
  match Session.toPhysical c t s with
  | .ok (u, _) _ => u
  | .error _ _ => .ofIndex []

/-- The columns that a writing in per-unit puts into the store. -/
def acceptedColumns (s : SessionState) (c : Category) (t : Table) : List Column :=
  Session.accepted c (s.tables c) (s.handedOver c t)

/-- A row is not left out. -/
def isKept (s : SessionState) (c : Category) (t : Table) (p : Nat) : Bool :=
  (t.index[p]?).any fun key => ¬s.Skips c t key

theorem isKept_iff {p : Nat} {key : RowKey} (hkey : t.index[p]? = some key) :
    s.isKept c t p = true ↔ ¬s.Skips c t key := by
  rw [isKept, hkey, Option.any_some, decide_eq_true_iff]

/-- What is handed over are the converted columns in the rows that are kept. -/
theorem getElem?_handedOver (hs : s.WellFormed) {j : Nat} {col' : Column}
    (h : (s.handedOver c t).columns[j]? = some col') :
    ∃ col, (s.physical c t).columns[j]? = some col ∧ col'.name = col.name ∧
      (s.handedOver c t).index.zip col'.cells =
        pick (s.isKept c t) (t.index.zip col.cells) := by
  rw [handedOver] at h ⊢
  cases hrun : Session.toPhysical c t s with
  | error e s' => simp [hrun, Table.ofIndex] at h
  | ok r s' =>
    obtain ⟨u, report⟩ := r
    simp only [hrun] at h ⊢
    rcases Session.toPhysical_spec hs hrun with ⟨-, ⟨rfl, hkeeps⟩ | rfl⟩
    · refine ⟨col', h, rfl, (pick_eq_self fun p hp => ?_).symm⟩
      have hlt : p < t.index.length := by
        have hzip : p < min t.index.length col'.cells.length := List.length_zip ▸ hp
        omega
      exact (isKept_iff (List.getElem?_eq_getElem hlt)).mpr (hkeeps _)
    · rw [written, Table.rowsWhere, List.getElem?_map] at h
      obtain ⟨col, hcol, rfl⟩ := Option.map_eq_some_iff.mp h
      refine ⟨col, hcol, rfl, ?_⟩
      rw [Column.cells_rowsWhere]
      exact pick_zip _ _ _

/-- The value in a row and a column, given by their places, is the last one that a writing gives
for a column of this name and an element of this key. -/
structure LastGiven (s : SessionState) (c : Category) (t : Table) (name : String) (key : RowKey)
    (j q : Nat) : Prop where
  /-- The column is written. -/
  accepted : ((s.acceptedColumns c t)[j]?).map (·.name) = some name
  /-- No column of the name is written after it. -/
  lastColumn : ∀ i, j < i → ((s.acceptedColumns c t)[i]?).map (·.name) ≠ some name
  /-- The rows of the element are not left out. -/
  kept : ¬s.Skips c t key
  row : t.index[q]? = some key
  /-- No row of the element that has a value comes after it. -/
  lastRow : ∀ r, q < r → t.index[r]? = some key → (t.columns[j]?).bind (·.cell? r) = none

theorem cell?_physical_eq_none_iff {j : Nat} {col : Column}
    (hcol : (s.physical c t).columns[j]? = some col) (p : Nat) :
    (t.columns[j]?).bind (·.cell? p) = none ↔ col.cell? p = none := by
  rw [physical, Table.getElem?_mapFirst] at hcol
  obtain ⟨col', hcol', rfl⟩ := Option.map_eq_some_iff.mp hcol
  rw [hcol', Option.bind_some, Column.cell?_eq_none_iff, Column.cell?_eq_none_iff]
  split
  · rw [Table.length_convertedColumn]
  · rfl

/-- A writing leaves in a cell the last value that is given for it, converted. -/
theorem lastWritten?_iff (hs : s.WellFormed) {p : Nat} {name : String} {cell : Cell} :
    (s.tables c).lastWritten? (s.handedOver c t).index (s.acceptedColumns c t) p name =
        some cell ↔
      ∃ key j q col, (s.tables c).position? key = some p ∧ s.LastGiven c t name key j q ∧
        (s.physical c t).columns[j]? = some col ∧ col.name = name ∧ col.cell? q = some cell := by
  have hhanded {j : Nat} {col' : Column} (h : (s.acceptedColumns c t)[j]? = some col') :
      (s.handedOver c t).columns[j]? = some col' := by
    obtain ⟨hj, rfl⟩ := List.getElem?_eq_some_iff.mp h
    exact List.prefix_iff_getElem?.mp (List.takeWhile_prefix _) j hj
  rw [Table.lastWritten?_eq_some_iff]
  constructor
  · rintro ⟨j, col', hcol', hname, hlast, hcell⟩
    obtain ⟨col, hcol, hname', hzip⟩ := getElem?_handedOver hs (hhanded hcol')
    rw [hzip, Table.lastFor?_pick_eq_some_iff] at hcell
    obtain ⟨q, key, hkey, hcell, hkept, hp, hlastRow⟩ := hcell
    have hskips := (isKept_iff hkey).mp hkept
    refine ⟨key, j, q, col, hp, ⟨by rw [hcol', Option.map_some, hname], fun i hi hi' => ?_,
      hskips, hkey, fun r hr hkey' => ?_⟩, hcol, hname' ▸ hname,
      by rwa [Column.getElem?_cells] at hcell⟩
    · obtain ⟨col'', hcol'', hname'⟩ := Option.map_eq_some_iff.mp hi'
      exact hlast i col'' hi hcol'' hname'
    · rw [cell?_physical_eq_none_iff hcol, Option.eq_none_iff_forall_ne_some]
      intro cell' hcell'
      rw [← Column.getElem?_cells] at hcell'
      exact hlastRow r key cell' hr hkey' hcell' ((isKept_iff hkey').mpr hskips) hp
  · rintro ⟨key, j, q, col, hp, hgiven, hcol, -, hcell⟩
    obtain ⟨col', hcol', hname⟩ := Option.map_eq_some_iff.mp hgiven.accepted
    obtain ⟨col₀, hcol₀, -, hzip⟩ := getElem?_handedOver hs (hhanded hcol')
    obtain rfl : col₀ = col := Option.some.inj (hcol₀.symm.trans hcol)
    refine ⟨j, col', hcol', hname, fun i col'' hi hcol'' hname' =>
      hgiven.lastColumn i hi (by rw [hcol'', Option.map_some, hname']), ?_⟩
    rw [hzip, Table.lastFor?_pick_eq_some_iff]
    refine ⟨q, key, hgiven.row, by rwa [Column.getElem?_cells],
      (isKept_iff hgiven.row).mpr hgiven.kept, hp, fun r key' cell' hr hkey' hcell' _ hp' => ?_⟩
    obtain rfl := Table.eq_of_position? hp hp'
    have hnone := hgiven.lastRow r hr hkey'
    rw [cell?_physical_eq_none_iff hcol₀, ← Column.getElem?_cells, hcell'] at hnone
    cases hnone

/-- A double of a first column with a rule is multiplied by its base. -/
theorem cell?_physical {rule : ConversionRule} (hrule : rule ∈ c.rules) {q : Nat}
    {x base : Float} (hx : t.cellAt? q rule.column = some ⟨.double, x⟩)
    (hbase : (rule.bases (s.levels c) (s.joined c t))[q]? = some (some base)) :
    ∃ col, (s.physical c t).columns[t.place rule.column]? = some col ∧
      col.name = rule.column ∧
      col.cell? q = some ⟨.double, x * rule.dimension.divisor s.session.perUnit base⟩ := by
  obtain ⟨col, hcol, hcell⟩ := Option.bind_eq_some_iff.mp hx
  have hname := (Table.mem_of_column? hcol).2
  have hfind : c.rules.find? (·.column == col.name) = some rule :=
    Category.find?_rule_eq_some_iff.mpr ⟨hrule, hname.symm⟩
  refine ⟨Table.convertedColumn s.session.perUnit (s.levels c) .fromPerUnit c.rules
    (s.joined c t) col, ?_, (Table.name_convertedColumn col).trans hname, ?_⟩
  · rw [physical, Table.getElem?_mapFirst, ← Table.column?_eq_getElem?, hcol, Option.map_some,
      hname, if_pos rfl]
  · rw [Table.convertedColumn, hfind]
    dsimp only
    rw [Column.cell?_mapDoubles, hcell, Option.map_some, Cell.mapDouble,
      ConversionRule.convertAt, hbase]
    rfl

/-- A row of a known element that lacks a voltage is left out. -/
theorem skips_of_bases_eq_none (hs : s.WellFormed) {rule : ConversionRule}
    (hrule : rule ∈ c.rules) {key : RowKey} (hknown : key ∈ (s.tables c).index) {q : Nat}
    (hkey : t.index[q]? = some key) {x : Float}
    (hx : t.cellAt? q rule.column = some ⟨.double, x⟩)
    (hbase : (rule.bases (s.levels c) (s.joined c t))[q]? = some none) : s.Skips c t key := by
  have hdouble : (t.doubles? rule.column).isSome := by
    refine Table.isSome_doubles? (p := q) ?_
    rw [hx]
    rfl
  refine ⟨hknown, rule, hrule, q, (List.getElem?_eq_some_iff.mp hkey).1, hkey, ?_, hbase⟩
  rwa [doubles?_joined_of_rule hs hrule]

/-- A double that is not a number after a conversion is a product, in the rows that are kept. -/
theorem exists_product (hs : s.WellFormed) (ht : t.HasNumbers) {j q : Nat} {col : Column}
    (hcol : (s.physical c t).columns[j]? = some col) {y : Float}
    (hcell : col.cell? q = some ⟨.double, y⟩) (hmissing : y.isNaN = true) {key : RowKey}
    (hkey : t.index[q]? = some key) (hknown : key ∈ (s.tables c).index)
    (hkept : ¬s.Skips c t key) :
    ∃ rule ∈ c.rules, ∃ x base, rule.column = col.name ∧ j = t.place rule.column ∧
      t.cellAt? q rule.column = some ⟨.double, x⟩ ∧
      (rule.bases (s.levels c) (s.joined c t))[q]? = some (some base) ∧
      y = x * rule.dimension.divisor s.session.perUnit base := by
  rw [physical, Table.getElem?_mapFirst] at hcol
  obtain ⟨col', hcol', rfl⟩ := Option.map_eq_some_iff.mp hcol
  have hgiven (x : Float) (hx : col'.cell? q = some ⟨.double, x⟩) : x.isNaN ≠ true := by
    rw [ht.cell? (List.mem_of_getElem? hcol') hx]
    exact Bool.false_ne_true
  by_cases hplace : t.place col'.name = j
  · rw [if_pos hplace] at hcell ⊢
    rw [Table.name_convertedColumn]
    cases hfind : c.rules.find? (·.column == col'.name) with
    | none =>
      rw [Table.convertedColumn, hfind] at hcell
      exact absurd hmissing (hgiven y hcell)
    | some rule =>
      obtain ⟨hrule, hname⟩ := Category.find?_rule_eq_some_iff.mp hfind
      obtain ⟨x, hx, rfl⟩ := Table.cell?_convertedColumn_eq_double hfind hcell
      have hfound : t.column? rule.column = some col' := by
        rw [Table.column?_eq_getElem?, hname, hplace, hcol']
      have hxt : t.cellAt? q rule.column = some ⟨.double, x⟩ := by
        rw [Table.cellAt?_of_column? hfound, hx]
      rw [ConversionRule.convertAt] at hmissing ⊢
      -- the value stays past the last voltage, and rows without voltage would be left out
      rcases hbase : (rule.bases (s.levels c) (s.joined c t))[q]? with _ | _ | base
      · rw [hbase] at hmissing
        exact absurd hmissing (hgiven x hx)
      · exact absurd (skips_of_bases_eq_none hs hrule hknown hkey hxt hbase) hkept
      · exact ⟨rule, hrule, x, base, hname, by rw [hname, hplace], hxt, hbase, rfl⟩
  · rw [if_neg hplace] at hcell
    exact absurd hmissing (hgiven y hcell)

end SessionState

/-! ### Writings that keep all numbers -/

namespace SessionState

/-- Every value that a writing leaves in the place of a number is a number when it is multiplied
by its base. -/
def ProductsAreNumbers (s : SessionState) (c : Category) (t : Table) : Prop :=
  ∀ rule ∈ c.rules, ∀ key q x x₀ base,
    s.LastGiven c t rule.column key (t.place rule.column) q →
    t.cellAt? q rule.column = some ⟨.double, x⟩ →
    (rule.bases (s.levels c) (s.joined c t))[q]? = some (some base) →
    (s.tables c).cell? key rule.column = some ⟨.double, x₀⟩ → Float.isNaN x₀ = false →
      Float.isNaN (x * rule.dimension.divisor s.session.perUnit base) = false

variable {s : SessionState} {c : Category} {t : Table}

theorem accepts_acceptedColumns : ∀ col ∈ s.acceptedColumns c t,
    c.Accepts (s.tables c) (s.handedOver c t).index col :=
  fun _ hcol => Session.accepts_of_mem_accepted hcol

/-- The table that a writing leaves has the numbers it had, if the products in their places are
numbers, and only then. -/
theorem keepsNumbers_putAll_iff (hs : s.WellFormed) (ht : t.HasNumbers) :
    (s.tables c).KeepsNumbers
        ((s.tables c).putAll (s.handedOver c t).index (s.acceptedColumns c t)) ↔
      s.ProductsAreNumbers c t := by
  have hcell := Table.cellAt?_putAll (hs.tables c) (accepts_acceptedColumns (t := t))
  constructor
  · intro hkeeps rule hrule key q x x₀ base hgiven hx hbase hstored hnumber
    obtain ⟨p, hp, hstored⟩ := Option.bind_eq_some_iff.mp hstored
    obtain ⟨col, hcol, hname, hproduct⟩ := cell?_physical hrule hx hbase
    have hlast := (lastWritten?_iff hs).mpr ⟨key, _, q, col, hp, hgiven, hcol, hname, hproduct⟩
    refine hkeeps p rule.column x₀ _ hstored hnumber ?_
    rw [hcell, hlast, Option.some_or]
  · intro hproducts p name x y hx hnumber hy
    rw [hcell] at hy
    cases hlast : (s.tables c).lastWritten? (s.handedOver c t).index
        (s.acceptedColumns c t) p name with
    | none =>
      rw [hlast, Option.none_or] at hy
      exact Table.KeepsNumbers.refl _ p name x y hx hnumber hy
    | some cell =>
      rw [hlast, Option.some_or, Option.some_inj] at hy
      subst hy
      obtain ⟨key, j, q, col, hp, hgiven, hcol, rfl, hy⟩ := (lastWritten?_iff hs).mp hlast
      rw [Bool.eq_false_iff]
      intro hmissing
      have hknown := Table.mem_index_of_position? hp
      obtain ⟨rule, hrule, x', base, hname, rfl, hx', hbase, rfl⟩ :=
        exists_product hs ht hcol hy hmissing hgiven.row hknown hgiven.kept
      rw [← hname] at hgiven hx
      have hstored : (s.tables c).cell? key rule.column = some ⟨.double, x⟩ := by
        rw [Table.cell?_eq_bind, hp, Option.bind_some, hx]
      rw [hproducts rule hrule key q x' x base hgiven hx' hbase hstored hnumber] at hmissing
      cases hmissing

/-- The rows of an element that lacks a voltage stay as they are. -/
theorem cell?_putAll_of_lacksBase (hs : s.WellFormed) {rule : ConversionRule}
    (hrule : rule ∈ c.rules) {key : RowKey} {q : Nat} (hkey : t.index[q]? = some key)
    (hlacks : rule.LacksBase (s.levels c) (s.joined c t) q) (name : String) :
    ((s.tables c).putAll (s.handedOver c t).index (s.acceptedColumns c t)).cell? key name =
      (s.tables c).cell? key name := by
  have haccepts := accepts_acceptedColumns (s := s) (c := c) (t := t)
  rw [Table.cell?_eq_bind, Table.cell?_eq_bind,
    (Table.sameShape_putAll (hs.tables c) haccepts).position?]
  cases hp : (s.tables c).position? key with
  | none => rfl
  | some p =>
    suffices hlast : (s.tables c).lastWritten? (s.handedOver c t).index
        (s.acceptedColumns c t) p name = none by
      rw [Option.bind_some, Option.bind_some, Table.cellAt?_putAll (hs.tables c) haccepts, hlast,
        Option.none_or]
    rw [Option.eq_none_iff_forall_ne_some]
    intro cell hlast
    obtain ⟨key', j, r, col, hp', hgiven, -⟩ := (lastWritten?_iff hs).mp hlast
    obtain rfl := Table.eq_of_position? hp hp'
    exact hgiven.kept ⟨Table.mem_index_of_position? hp, rule, hrule, q,
      (List.getElem?_eq_some_iff.mp hkey).1, hkey, hlacks⟩

end SessionState

namespace Session

variable {s : SessionState} {c : Category} {t : Table}

/-- What a writing in per-unit does to the tables, whether it succeeds or not. -/
theorem tables_after_update (hs : s.WellFormed) (hon : s.session.perUnit.enabled = true)
    (c : Category) (t : Table) :
    ((Operation.update c t).after s).store =
        (s.setTables ((Operation.update c t).after s).tables).store ∧
      ((Operation.update c t).after s).tables = s.tables.set c
        ((s.tables c).putAll (s.handedOver c t).index (s.acceptedColumns c t)) := by
  suffices hstore : ((Operation.update c t).after s).store = (s.setTables (s.tables.set c
      ((s.tables c).putAll (s.handedOver c t).index (s.acceptedColumns c t)))).store by
    have htables : ((Operation.update c t).after s).tables = _ :=
      SessionState.tables_of_store hs ((Operation.update c t).relates s).handle hstore
    exact ⟨by rw [htables, hstore], htables⟩
  rw [Operation.after, Operation.run, SessionState.acceptedColumns, SessionState.handedOver]
  cases hrun : toPhysical c t s with
  | error e s' =>
    obtain rfl := toPhysical_error hrun
    have hnone : (s'.tables c).putAll [] (accepted c (s'.tables c) (.ofIndex [])) = s'.tables c :=
      rfl
    rw [stateAfter_error (update_of_error hon hrun)]
    dsimp only [Table.ofIndex] at hnone ⊢
    rw [hnone, Tables.set_eq_self, SessionState.setTables_tables hs]
  | ok r s' =>
    obtain ⟨u, report⟩ := r
    obtain ⟨rfl, -⟩ := toPhysical_spec hs hrun
    by_cases hall : ∀ col ∈ u.columns, c.Accepts (s'.tables c) u.index col
    · have haccepted : accepted c (s'.tables c) u = u.columns :=
        List.takeWhile_eq_self_iff.mpr fun col hcol => by simpa using hall col hcol
      rw [stateAfter_ok (update_of_accepts hs hon hrun hall), haccepted]
    · obtain ⟨e, he⟩ := update_of_not_accepts hs hon hrun hall
      rw [stateAfter_error he]

/-- A writing in per-unit changes the tables of the working variant at most.  All their numbers
stay numbers exactly if the products that are left in their places are, and the rows of elements
that lack a voltage stay as they are. -/
theorem update_keepsNumbers_iff (hs : s.Reachable) (hon : s.session.perUnit.enabled = true)
    (ht : t.HasNumbers) :
    ((Operation.update c t).after s).store =
        (s.setTables ((Operation.update c t).after s).tables).store ∧
      ((∀ d, (s.tables d).KeepsNumbers (((Operation.update c t).after s).tables d)) ↔
        s.ProductsAreNumbers c t) ∧
      ∀ rule ∈ c.rules, ∀ key q, t.index[q]? = some key →
        rule.LacksBase (s.levels c) (s.joined c t) q →
          ∀ name, (((Operation.update c t).after s).tables c).cell? key name =
            (s.tables c).cell? key name := by
  have hwf := hs.wellFormed
  obtain ⟨hstore, htables⟩ := tables_after_update hwf hon c t
  refine ⟨hstore, ?_, fun rule hrule key q hkey hlacks name => ?_⟩
  · rw [htables, ← SessionState.keepsNumbers_putAll_iff hwf ht]
    constructor
    · intro hkeeps
      have hc := hkeeps c
      rwa [Tables.set_self] at hc
    · intro hkeeps d
      by_cases hd : d = c
      · rwa [hd, Tables.set_self]
      · rw [Tables.set_of_ne _ _ hd]
        exact .refl _
  · rw [htables, Tables.set_self]
    exact SessionState.cell?_putAll_of_lacksBase hwf hrule hkey hlacks name

/-- Where the voltage of a generator is a number, its target voltage stays one; the generator
without voltage stays as it is. -/
theorem update_keepsNumbers_twoGenerators :
    (∀ d, ((SessionState.twoGenerators (some 400.0)).tables d).KeepsNumbers
        (((Operation.update .generator .newTargets).after
          (SessionState.twoGenerators (some 400.0))).tables d)) ∧
      (SessionState.twoGenerators (some 400.0)).ProductsAreNumbers .generator .newTargets ∧
      ∀ name, (((Operation.update .generator .newTargets).after
          (SessionState.twoGenerators (some 400.0))).tables .generator).cell? (.plain "G2") name =
        ((SessionState.twoGenerators (some 400.0)).tables .generator).cell? (.plain "G2") name := by
  obtain ⟨-, hnumbers, hrows⟩ := update_keepsNumbers_iff (c := .generator) (t := .newTargets)
    (SessionState.reachable_twoGenerators (some 400.0)) rfl (by decide +kernel)
  have hkeeps : ∀ d ∈ Category.all,
      ((SessionState.twoGenerators (some 400.0)).tables d).KeepsNumbers
        (((Operation.update .generator .newTargets).after
          (SessionState.twoGenerators (some 400.0))).tables d) := by decide +kernel
  obtain ⟨rule, hrule, hlacks⟩ : ∃ rule ∈ Category.generator.rules,
      rule.LacksBase ((SessionState.twoGenerators (some 400.0)).levels .generator)
        ((SessionState.twoGenerators (some 400.0)).joined .generator .newTargets) 1 := by
    decide +kernel
  exact ⟨fun d => hkeeps d d.mem_all, hnumbers.mp fun d => hkeeps d d.mem_all,
    hrows rule hrule (.plain "G2") 1 rfl hlacks⟩

/-- A voltage level without nominal voltage is found, so the row of a generator at this level is
written, and its target voltage is lost. -/
theorem update_loses_number :
    (SessionState.twoGenerators none).Reachable ∧
      (SessionState.twoGenerators none).session.perUnit.enabled = true ∧
      (∀ col ∈ Table.newTargets.columns, ∀ x ∈ (col.valuesAs? .double).getD [],
        Float.isFinite x = true) ∧
      ¬∀ d, ((SessionState.twoGenerators none).tables d).KeepsNumbers
        (((Operation.update .generator .newTargets).after
          (SessionState.twoGenerators none)).tables d) := by
  refine ⟨SessionState.reachable_twoGenerators none, rfl, by decide +kernel, fun hkeeps => ?_⟩
  have hbefore : ((SessionState.twoGenerators none).tables .generator).doubles? "target_v" =
      some [420.0, Double.nan] := by decide +kernel
  have hafter : (((Operation.update .generator .newTargets).after
      (SessionState.twoGenerators none)).tables .generator).doubles? "target_v" =
        some [1.05 * Double.nan, Double.nan] := by decide +kernel
  have hnumber := hkeeps .generator 0 "target_v" _ _ (Table.cellAt?_of_valuesAs? hbefore 0)
    (by decide +kernel) (Table.cellAt?_of_valuesAs? hafter 0)
  exact absurd hnumber (by decide +kernel)

end Session

end PowerTables
