import Mathlib.Data.List.Induction
import Mathlib.Data.List.Sort
import PowerTables.Proofs.PerUnit.Cells
import PowerTables.Proofs.PerUnit.Report

/-!
# The rows that a report names

A report has an issue for every cell for which no voltage is found, and names every row with such
a cell once.  The rows come in the order in which the rules meet them: the rules one after the
other, and for each of them the rows of the table in order.  So a row that an early rule misses
comes before a row above it that only a later rule misses, which needs two rules that read their
voltages from different columns.

## Main definitions

* `ConversionRule.Misses` : a rule has a cell to convert, and no voltage for it.
* `Category.missedCells` : the cells without voltage, each as a rule and the position of a row.
* `Category.MissesDownward` : the rules meet these cells in the order of the rows.

## Main results

* `pairwise_eraseDups_flatMap_iff` : when first occurrences come in a given order.
* `convert_report` : what a report counts, lists and names.
* `unresolved_sublist_iff` : when the rows are named in the order of the table.
-/

namespace PowerTables

/-! ### The order of first occurrences -/

section Order

variable {α β : Type} [DecidableEq β]

/-- A list of some entries of a list without repetitions keeps their order exactly if each entry
comes before those after it. -/
theorem sublist_iff_pairwise_idxOf {l l' : List β} (hl : l.Nodup) (hsubset : l' ⊆ l) :
    l'.Sublist l ↔ l'.Pairwise fun x y => l.idxOf x < l.idxOf y := by
  have hpairwise : l.Pairwise fun x y => l.idxOf x < l.idxOf y :=
    List.pairwise_iff_getElem.mpr fun i j hi hj hij => by
      rwa [hl.idxOf_getElem i hi, hl.idxOf_getElem j hj]
  constructor
  · exact fun h => hpairwise.sublist h
  · intro h
    have hnodup : l'.Nodup := h.imp fun hlt heq => by simp [heq] at hlt
    have : Std.Antisymm fun x y : β => l.idxOf x < l.idxOf y :=
      ⟨fun x y hxy hyx => absurd hxy (Nat.lt_asymm hyx)⟩
    exact List.sublist_of_subperm_of_pairwise (List.subperm_of_subset hnodup hsubset) h hpairwise

/-- The first occurrences in some blocks, each of them in order, are in order exactly if whatever
occurs in a block for the first time comes after all that occurs in the blocks before it. -/
theorem pairwise_eraseDups_flatMap_iff {r : β → β → Prop} {f : α → List β} {l : List α}
    (hblocks : ∀ a ∈ l, (f a).Nodup ∧ (f a).Pairwise r) :
    (l.flatMap f).eraseDups.Pairwise r ↔ ∀ before a after, l = before ++ a :: after →
      ∀ b ∈ before, ∀ x ∈ f b, ∀ y ∈ f a, (∀ b' ∈ before, y ∉ f b') → r x y := by
  induction l using List.reverseRecOn with
  | nil => simp
  | append_singleton l a ih =>
    obtain ⟨hnodup, hpairwise⟩ := hblocks a (by simp)
    have hnew : ((f a).removeAll (l.flatMap f)).Sublist (f a) := List.filter_sublist
    have hmem {y : β} : y ∈ (f a).removeAll (l.flatMap f) ↔ y ∈ f a ∧ ∀ b ∈ l, y ∉ f b := by
      simp [List.removeAll]
    rw [List.flatMap_append, List.flatMap_singleton, List.eraseDups_append,
      eraseDups_eq_self (hnodup.sublist hnew), List.pairwise_append,
      ih fun b hb => hblocks b (List.mem_append_left _ hb)]
    constructor
    · rintro ⟨hbefore, -, hlast⟩ before b after hsplit
      -- the block is the last one, or it is one of those before it
      rcases List.eq_nil_or_concat after with rfl | ⟨after, a', rfl⟩
      · obtain ⟨rfl, hab⟩ := List.append_inj' hsplit rfl
        obtain rfl := List.singleton_inj.mp hab
        intro b hb x hx y hy hfirst
        exact hlast x (List.mem_eraseDups.mpr (List.mem_flatMap.mpr ⟨b, hb, hx⟩)) y
          (hmem.mpr ⟨hy, hfirst⟩)
      · have hsplit' : l ++ [a] = (before ++ b :: after) ++ [a'] := by
          rw [hsplit, List.concat_eq_append, List.append_assoc, List.cons_append]
        exact hbefore before b after (List.append_inj' hsplit' rfl).1
    · intro h
      refine ⟨fun before b after hsplit => h before b (after ++ [a]) (by simp [hsplit]),
        hpairwise.sublist hnew, fun x hx y hy => ?_⟩
      obtain ⟨b, hb, hx⟩ := List.mem_flatMap.mp (List.mem_eraseDups.mp hx)
      obtain ⟨hy, hfirst⟩ := hmem.mp hy
      exact h l a [] rfl b hb x hx y hy hfirst

end Order

/-! ### The cells without voltage -/

namespace ConversionRule

variable {rule : ConversionRule} {levels : VoltageLevels} {t : Table} {p : Nat} {key : RowKey}

/-- A rule has a column of doubles to convert, and no voltage for the row at a position. -/
structure Misses (rule : ConversionRule) (levels : VoltageLevels) (t : Table) (p : Nat) :
    Prop where
  doubles : (t.doubles? rule.column).isSome
  row : p < t.size
  findsNoVoltage : rule.FindsNoVoltage levels t p

/-- The positions of the rows that a rule misses, in order. -/
def missedRows (rule : ConversionRule) (levels : VoltageLevels) (t : Table) : List Nat :=
  if (t.doubles? rule.column).isSome then
    pick (fun p => (rule.baseOf levels (t.cellAt? p)).isNone) (List.range t.size)
  else []

theorem mem_missedRows (ht : t.IsRectangular) :
    p ∈ rule.missedRows levels t ↔ rule.Misses levels t p := by
  rw [missedRows]
  split
  · next hdoubles =>
    rw [mem_pick]
    constructor
    · rintro ⟨q, hq, hnone⟩
      obtain ⟨hlt, rfl⟩ := List.getElem?_eq_some_iff.mp hq
      rw [List.getElem_range]
      have hrow : q < t.size := List.length_range (n := t.size) ▸ hlt
      exact ⟨hdoubles, hrow, (baseOf_eq_none_iff ht hrow).mp (Option.isNone_iff_eq_none.mp hnone)⟩
    · intro h
      exact ⟨p, List.getElem?_range h.row,
        Option.isNone_iff_eq_none.mpr ((baseOf_eq_none_iff ht h.row).mpr h.findsNoVoltage)⟩
  · next hdoubles => exact ⟨nofun, fun h => absurd h.doubles hdoubles⟩

theorem nodup_missedRows : (rule.missedRows levels t).Nodup := by
  rw [missedRows]
  split
  · exact List.nodup_range.sublist (pick_sublist _ _)
  · exact List.nodup_nil

/-- The keys that a rule reports are those of the rows it misses. -/
theorem forall₂_missedRows (rule : ConversionRule) (levels : VoltageLevels) (t : Table) :
    List.Forall₂ (fun p key => t.index[p]? = some key) (rule.missedRows levels t)
      (rule.unresolvedRows levels t) := by
  rw [missedRows, unresolvedRows]
  split
  · exact forall₂_pick (forall₂_range t.index) _
  · exact .nil

theorem mem_unresolvedRows (ht : t.IsRectangular) :
    key ∈ rule.unresolvedRows levels t ↔ ∃ p, t.index[p]? = some key ∧ rule.Misses levels t p := by
  have hrows := rule.forall₂_missedRows levels t
  simp only [← mem_missedRows ht]
  constructor
  · intro hkey
    obtain ⟨p, hp, hindex⟩ := exists_of_forall₂ hrows.flip hkey
    exact ⟨p, hindex, hp⟩
  · rintro ⟨p, hindex, hp⟩
    obtain ⟨key', hkey', hindex'⟩ := exists_of_forall₂ hrows hp
    rwa [Option.some.inj (hindex.symm.trans hindex')]

theorem unresolvedRows_sublist : (rule.unresolvedRows levels t).Sublist t.index := by
  rw [unresolvedRows]
  split
  · exact pick_sublist _ _
  · exact List.nil_sublist _

end ConversionRule

namespace Category

variable {c : Category} {levels : VoltageLevels} {t : Table}

/-- The cells of a table for which no voltage is found, each as the rule of its column and the
position of its row, in the order of the rules and of the rows. -/
def missedCells (c : Category) (levels : VoltageLevels) (t : Table) :
    List (ConversionRule × Nat) :=
  c.rules.flatMap fun rule => (rule.missedRows levels t).map (rule, ·)

theorem mem_missedCells (ht : t.IsRectangular) {rule : ConversionRule} {p : Nat} :
    (rule, p) ∈ c.missedCells levels t ↔ rule ∈ c.rules ∧ rule.Misses levels t p := by
  rw [← ConversionRule.mem_missedRows ht]
  simp [missedCells]

theorem nodup_missedCells : (c.missedCells levels t).Nodup := by
  have hrules : c.rules.Nodup := c.nodup_ruleColumns.of_map _
  refine List.nodup_flatMap.mpr ⟨fun rule _ => ?_, hrules.imp fun {r r'} hne cell hr hr' => ?_⟩
  · exact ConversionRule.nodup_missedRows.map fun p q h => congrArg Prod.snd h
  · obtain ⟨p, -, rfl⟩ := List.mem_map.mp hr
    obtain ⟨q, -, heq⟩ := List.mem_map.mp hr'
    exact hne (congrArg Prod.fst heq).symm

/-- The cells that are reported by key are those that are missed. -/
theorem forall₂_missedCells (c : Category) (levels : VoltageLevels) (t : Table) :
    List.Forall₂ (fun cell other => other.1 = cell.1 ∧ t.index[cell.2]? = some other.2)
      (c.missedCells levels t) (c.unresolvedCells levels t) := by
  rw [missedCells, unresolvedCells]
  induction c.rules with
  | nil => exact .nil
  | cons rule rules ih =>
    rw [List.flatMap_cons, List.flatMap_cons]
    refine List.rel_append ?_ ih
    rw [List.forall₂_map_left_iff, List.forall₂_map_right_iff]
    exact (rule.forall₂_missedRows levels t).imp fun p key hkey => ⟨rfl, hkey⟩

end Category

/-! ### Complete reports -/

section Report

variable {c : Category} {levels : VoltageLevels} {t : Table} {report : ConversionReport}

/-- A report of the cells without voltage names the rows that rules miss. -/
theorem ConversionReport.Lists.mem_unresolved
    (h : report.Lists c (c.unresolvedCells levels t)) {key : RowKey} :
    key ∈ report.unresolved ↔
      ∃ cell ∈ c.missedCells levels t, t.index[cell.2]? = some key := by
  rw [h.unresolved, List.mem_eraseDups]
  have hcells := c.forall₂_missedCells levels t
  constructor
  · intro hkey
    obtain ⟨other, hother, rfl⟩ := List.mem_map.mp hkey
    obtain ⟨cell, hcell, -, hindex⟩ := exists_of_forall₂ hcells.flip hother
    exact ⟨cell, hcell, hindex⟩
  · rintro ⟨cell, hcell, hindex⟩
    obtain ⟨other, hother, -, hindex'⟩ := exists_of_forall₂ hcells hcell
    obtain rfl := Option.some.inj (hindex.symm.trans hindex')
    exact List.mem_map_of_mem hother

/-- A table whose columns are as long as the index is converted, with a report of the cells without
voltage. -/
theorem exists_convert_lists (ctx : PerUnitContext) (c : Category) (levels : VoltageLevels)
    (direction : Direction) (ht : t.IsRectangular) :
    ∃ u report, convert ctx c levels direction t = .ok (u, report) ∧
      report.Lists c (c.unresolvedCells levels t) := by
  obtain ⟨report, hrun⟩ := exists_convert ctx c levels direction ht
  exact ⟨_, report, hrun,
    convert_lists (fun _ _ => ConversionRule.covers_of_isRectangular ht) hrun⟩

/-- A conversion of a table whose columns are as long as the index reports each cell for which no
voltage is found, given as the rule of its column and the position of its row.  It counts these
cells, has one issue for each of them, which names the row and the column, and names each of their
rows once. -/
theorem convert_report (ctx : PerUnitContext) (c : Category) (levels : VoltageLevels)
    (direction : Direction) {t : Table} (ht : t.IsRectangular) :
    ∃ u report, convert ctx c levels direction t = .ok (u, report) ∧
      ∃ cells : List (ConversionRule × Nat), cells.Nodup ∧
        (∀ rule p, (rule, p) ∈ cells ↔ rule ∈ c.rules ∧ rule.Misses levels t p) ∧
        report.missingBases = cells.length ∧ report.diagnostics.length = cells.length ∧
        List.Forall₂ (fun cell issue => ∃ key, t.index[cell.2]? = some key ∧
            issue.entity = some (c.name ++ "/" ++ key.text) ∧ issue.column = some cell.1.column)
          cells report.diagnostics ∧
        report.unresolved.Nodup ∧
        ∀ key, key ∈ report.unresolved ↔ ∃ cell ∈ cells, t.index[cell.2]? = some key := by
  obtain ⟨u, report, hrun, hlists⟩ := exists_convert_lists ctx c levels direction ht
  have hcells := c.forall₂_missedCells levels t
  refine ⟨u, report, hrun, c.missedCells levels t, Category.nodup_missedCells,
    fun rule p => Category.mem_missedCells ht, ?_, ?_, ?_, ?_,
    fun key => hlists.mem_unresolved⟩
  · rw [hlists.missingBases, hcells.length_eq]
  · rw [hlists.diagnostics, List.length_map, hcells.length_eq]
  · rw [hlists.diagnostics, List.forall₂_map_right_iff]
    refine hcells.imp fun cell other ⟨hrule, hindex⟩ => ⟨other.2, hindex, rfl, ?_⟩
    rw [← hrule]
    rfl
  · rw [hlists.unresolved]
    exact nodup_eraseDups _

/-- Of two lines, each is missed on the side without voltage; the resistance is that of the first
side. -/
theorem convert_report_strandedLines :
    ∃ u report, convert ⟨100.0, true⟩ .line ⟨[("VL", 400.0)]⟩ .toPerUnit .strandedLines =
        .ok (u, report) ∧
      report.missingBases = report.diagnostics.length ∧ report.unresolved.Nodup ∧
      ∃ cells : List (ConversionRule × Nat),
        (.atLevel .impedance "r" "voltage_level1_id", 1) ∈ cells ∧
        (.atLevel .impedance "r" "voltage_level1_id", 0) ∉ cells ∧
        report.diagnostics.length = cells.length := by
  obtain ⟨u, report, hrun, cells, -, hmem, hcount, hlength, -, hnodup, -⟩ :=
    convert_report ⟨100.0, true⟩ .line ⟨[("VL", 400.0)]⟩ .toPerUnit
      (t := .strandedLines) (by decide)
  refine ⟨u, report, hrun, hcount.trans hlength.symm, hnodup, cells, ?_, ?_, hlength⟩
  · have hmissed : ConversionRule.FindsNoVoltage (.atLevel .impedance "r" "voltage_level1_id")
        ⟨[("VL", 400.0)]⟩ .strandedLines 1 := by
      intro ids hids id hid
      obtain rfl : ["VL", "?"] = ids := Option.some.inj hids
      obtain rfl : "?" = id := Option.some.inj hid
      rfl
    exact (hmem _ _).mpr ⟨by decide, by decide, by decide, hmissed⟩
  · intro h
    have hnone : VoltageLevels.nominal? ⟨[("VL", 400.0)]⟩ "VL" = none :=
      ((hmem _ _).mp h).2.findsNoVoltage ["VL", "?"] rfl "VL" rfl
    have hsome : VoltageLevels.nominal? ⟨[("VL", 400.0)]⟩ "VL" = some 400.0 := rfl
    cases hsome.symm.trans hnone

end Report

/-! ### The order of the rows -/

section RowOrder

variable {c : Category} {levels : VoltageLevels} {t : Table}

theorem Category.map_unresolvedCells :
    (c.unresolvedCells levels t).map (·.2) =
      c.rules.flatMap fun rule => rule.unresolvedRows levels t := by
  simp [unresolvedCells, List.map_flatMap]

/-- In a table without repeated keys, a rule reports the key at a position exactly if it misses
that row. -/
theorem ConversionRule.mem_unresolvedRows_iff_misses (ht : t.IsRectangular)
    (hkeys : t.index.Nodup) {rule : ConversionRule} {p : Nat} {key : RowKey}
    (hp : t.index[p]? = some key) :
    key ∈ rule.unresolvedRows levels t ↔ rule.Misses levels t p := by
  rw [mem_unresolvedRows ht]
  constructor
  · rintro ⟨q, hq, hmisses⟩
    obtain ⟨hlt, -⟩ := List.getElem?_eq_some_iff.mp hp
    rwa [(List.getElem?_inj hlt hkeys).mp (hp.trans hq.symm)]
  · exact fun hmisses => ⟨p, hp, hmisses⟩

/-- A rule of the same source misses the same rows, if it misses any. -/
theorem ConversionRule.Misses.of_source {rule rule' : ConversionRule} {p q : Nat}
    (hrule : rule.Misses levels t p) (hrule' : rule'.Misses levels t q)
    (hsource : rule.source = .none ∨ rule'.source = .none ∨ rule.source = rule'.source) :
    rule.Misses levels t q := by
  have hp := hrule.findsNoVoltage
  have hq := hrule'.findsNoVoltage
  refine ⟨hrule.doubles, hrule'.row, ?_⟩
  rw [FindsNoVoltage] at *
  rcases hsource with hnone | hnone | hsame
  · rw [hnone] at hp
    exact hp.elim
  · rw [hnone] at hq
    exact hq.elim
  · rwa [hsame]

/-- Each row that a rule is the first one to miss is below all rows that the rules before it
miss. -/
def Category.MissesDownward (c : Category) (levels : VoltageLevels) (t : Table) : Prop :=
  ∀ before rule after, c.rules = before ++ rule :: after → ∀ earlier ∈ before, ∀ p q,
    earlier.Misses levels t p → rule.Misses levels t q →
      (∀ r ∈ before, ¬r.Misses levels t q) → p < q

/-- Rules that need a voltage and all look for it in one place miss the same rows. -/
theorem Category.missesDownward_of_source
    (h : ∀ rule ∈ c.rules, ∀ rule' ∈ c.rules,
      rule.source = .none ∨ rule'.source = .none ∨ rule.source = rule'.source) :
    c.MissesDownward levels t := by
  intro before rule after hsplit earlier hearlier p q hp hq hfirst
  have hearlier' : earlier ∈ c.rules := hsplit ▸ List.mem_append_left _ hearlier
  have hrule : rule ∈ c.rules := hsplit ▸ List.mem_append_right _ List.mem_cons_self
  exact absurd (hp.of_source hq (h earlier hearlier' rule hrule)) (hfirst earlier hearlier)

/-- The first occurrences of the missed rows are in the order of the table exactly if the rules
miss them in that order. -/
theorem Category.sublist_eraseDups_iff (ht : t.IsRectangular) (hkeys : t.index.Nodup) :
    (c.rules.flatMap fun rule => rule.unresolvedRows levels t).eraseDups.Sublist t.index ↔
      c.MissesDownward levels t := by
  have hposition {p : Nat} {key : RowKey} (hp : t.index[p]? = some key) :
      t.index.idxOf key = p := by
    obtain ⟨hlt, rfl⟩ := List.getElem?_eq_some_iff.mp hp
    exact hkeys.idxOf_getElem p hlt
  have hmem {rule : ConversionRule} {p : Nat} {key : RowKey} (hp : t.index[p]? = some key) :
      key ∈ rule.unresolvedRows levels t ↔ rule.Misses levels t p :=
    rule.mem_unresolvedRows_iff_misses ht hkeys hp
  have hsubset : (c.rules.flatMap fun rule => rule.unresolvedRows levels t).eraseDups ⊆
      t.index := by
    intro key hkey
    obtain ⟨rule, -, hrow⟩ := List.mem_flatMap.mp (List.mem_eraseDups.mp hkey)
    exact ConversionRule.unresolvedRows_sublist.subset hrow
  rw [sublist_iff_pairwise_idxOf hkeys hsubset,
    pairwise_eraseDups_flatMap_iff fun rule _ => ⟨hkeys.sublist
      ConversionRule.unresolvedRows_sublist, (sublist_iff_pairwise_idxOf hkeys
        ConversionRule.unresolvedRows_sublist.subset).mp ConversionRule.unresolvedRows_sublist⟩]
  refine forall_congr' fun before => forall_congr' fun rule => forall_congr' fun after =>
    imp_congr_right fun _ => forall_congr' fun earlier => imp_congr_right fun _ => ?_
  constructor
  · intro h p q hp hq hfirst
    have hkeyp := List.getElem?_eq_getElem (l := t.index) hp.row
    have hkeyq := List.getElem?_eq_getElem (l := t.index) hq.row
    rw [← hposition hkeyp, ← hposition hkeyq]
    exact h _ ((hmem hkeyp).mpr hp) _ ((hmem hkeyq).mpr hq) fun r hr hrow =>
      hfirst r hr ((hmem hkeyq).mp hrow)
  · intro h x hx y hy hfirst
    obtain ⟨p, hkeyp, hp⟩ := (ConversionRule.mem_unresolvedRows ht).mp hx
    obtain ⟨q, hkeyq, hq⟩ := (ConversionRule.mem_unresolvedRows ht).mp hy
    rw [hposition hkeyp, hposition hkeyq]
    exact h p q hp hq fun r hr hmisses => hfirst r hr ((hmem hkeyq).mpr hmisses)

/-- The rows that the report of a conversion names are in the order of the table, if no key is
repeated, exactly if each row that a rule is the first one to miss is below all rows that the
rules before it miss.  This is so where all the rules of a category that need a voltage look for
it in one place. -/
theorem unresolved_sublist_iff (ctx : PerUnitContext) (c : Category) (levels : VoltageLevels)
    (direction : Direction) {t : Table} (ht : t.IsRectangular) (hkeys : t.index.Nodup) :
    ∃ u report, convert ctx c levels direction t = .ok (u, report) ∧
      (report.unresolved.Sublist t.index ↔ c.MissesDownward levels t) ∧
      ((∀ rule ∈ c.rules, ∀ rule' ∈ c.rules,
          rule.source = .none ∨ rule'.source = .none ∨ rule.source = rule'.source) →
        report.unresolved.Sublist t.index) := by
  obtain ⟨u, report, hrun, hlists⟩ := exists_convert_lists ctx c levels direction ht
  have horder : report.unresolved.Sublist t.index ↔ c.MissesDownward levels t := by
    rw [hlists.unresolved, Category.map_unresolvedCells]
    exact Category.sublist_eraseDups_iff ht hkeys
  exact ⟨u, report, hrun, horder, fun h => horder.mpr (Category.missesDownward_of_source h)⟩

/-- Two generators at a level that is not known, and one at the level `VL`. -/
def Table.strayGenerators : Table :=
  ⟨[.plain "G1", .plain "G2", .plain "G3"],
    [⟨"target_v", .double, [(24.0 : Float), (25.0 : Float), (26.0 : Float)]⟩,
      ⟨"i", .double, [(10.0 : Float), (20.0 : Float), (30.0 : Float)]⟩,
      ⟨"voltage_level_id", .string, ["?", "?", "VL"]⟩]⟩

/-- The rules of generators that need a voltage all look for it at one level. -/
theorem unresolved_sublist_iff_strayGenerators :
    ∃ u report, convert ⟨100.0, true⟩ .generator ⟨[("VL", 24.0)]⟩ .toPerUnit
        .strayGenerators = .ok (u, report) ∧
      report.unresolved.Sublist Table.strayGenerators.index := by
  obtain ⟨u, report, hrun, -, horder⟩ :=
    unresolved_sublist_iff ⟨100.0, true⟩ .generator ⟨[("VL", 24.0)]⟩ .toPerUnit
      (t := .strayGenerators) (by decide) (by decide)
  exact ⟨u, report, hrun, horder (by decide)⟩

/-- Of two lines, the one that is missed on its first side is named before the one above it, which
is missed on its second side. -/
theorem unresolved_not_sublist_strandedLines :
    Table.strandedLines.IsRectangular ∧ Table.strandedLines.index.Nodup ∧
      ∃ u report, convert ⟨100.0, true⟩ .line ⟨[("VL", 400.0)]⟩ .toPerUnit .strandedLines =
          .ok (u, report) ∧
        report.unresolved = [.plain "L2", .plain "L1"] ∧
        ¬report.unresolved.Sublist Table.strandedLines.index :=
  ⟨by decide, by decide, _, _, rfl, by decide, by decide⟩

end RowOrder

end PowerTables
