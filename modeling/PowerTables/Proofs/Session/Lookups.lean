import PowerTables.Proofs.Network.Snapshot
import PowerTables.Proofs.Session.Commutation
import PowerTables.Proofs.Session.Numbers

/-!
# Look-ups in a network

A writing in per-unit looks for voltages by a join and by the ids of voltage levels, both of which
take the last of several rows, and writes to the row that a cell is found in, which is the first.
The two lead to the same cells where no key is repeated and every voltage level is known by its id
alone.  Only a snapshot can bring in tables in which they do not.

## Main definitions

* `Table.NamesLevels` : the last row of each id is known by the id alone.
* `Tables.LookupsAgree` : all look-ups by key in the tables of a variant agree.
* `SessionState.voltageAt` : the voltage that a rule finds for a row, all of it looked up by key.

## Main results

* `Tables.lookupsAgree_iff` : when the look-ups agree.
* `Network.Identified.lookupsAgree` : they do where ids and keys are apart.
* `Session.cell?_of_update` : a writing where the look-ups agree.
* `Store.lookupsAgree_afterAll` : the look-ups in all networks after a run.
-/

namespace PowerTables

/-! ### Voltage levels by id -/

namespace Table

variable {t : Table}

/-- A row is the last one whose key has an id, with a number or without one. -/
def IsLastNamed (t : Table) (id : String) (q : Nat) : Prop :=
  (t.index[q]?).map (·.id) = some id ∧ ∀ r, q < r → (t.index[r]?).map (·.id) ≠ some id

theorem exists_isLastNamed {key : RowKey} (h : key ∈ t.index) : ∃ q, t.IsLastNamed key.id q := by
  have hsome : (t.index.reverse.find? (·.id == key.id)).isSome :=
    List.find?_isSome.mpr ⟨key, List.mem_reverse.mpr h, beq_self_eq_true key.id⟩
  obtain ⟨last, hfind⟩ := Option.isSome_iff_exists.mp hsome
  obtain ⟨q, hq, hid, hlast⟩ := find?_reverse_eq_some_iff.mp hfind
  refine ⟨q, by rw [hq, Option.map_some, beq_iff_eq.mp hid], fun r hr hid' => ?_⟩
  obtain ⟨key', hkey', hid'⟩ := Option.map_eq_some_iff.mp hid'
  exact absurd hid' (by simpa using hlast r key' hr hkey')

/-- The last row of each id has the nominal voltage of the first row whose key is the id alone. -/
def NamesLevels (t : Table) : Prop :=
  ∀ id q, t.IsLastNamed id q →
    ∃ p, t.IsFirstRow (.plain id) p ∧ t.cellAt? p "nominal_v" = t.cellAt? q "nominal_v"

/-- Keys that are apart and have no numbers are known by their ids. -/
theorem namesLevels_of_keyed (h : Category.Keyed .voltageLevel t.index) : t.NamesLevels := by
  rintro id q ⟨hid, -⟩
  obtain ⟨key, hkey, rfl⟩ := Option.map_eq_some_iff.mp hid
  rw [h.eq_plain rfl (List.mem_of_getElem? hkey)] at hkey
  exact ⟨q, isFirstRow_of_nodup h.nodup hkey, rfl⟩

/-- Every row of a table of voltage levels has a nominal voltage. -/
theorem Fits.nominals (ht : t.Fits .voltageLevel) :
    ∃ values : List Float, t.doubles? "nominal_v" = some values ∧ values.length = t.size ∧
      ∀ q, t.cellAt? q "nominal_v" = (values[q]?).map .ofDouble := by
  have hspec : Category.voltageLevel.column? "nominal_v" = some (.double "nominal_v") := rfl
  obtain ⟨⟨columnName, type, values⟩, hcol, htype, hlength⟩ := ht.exists_column? hspec
  obtain rfl : type = .double := htype
  obtain rfl : columnName = "nominal_v" := (mem_of_column? hcol).2
  have hvalues : t.doubles? "nominal_v" = some values := doubles?_eq_some_iff.mpr hcol
  exact ⟨values, hvalues, hlength, cellAt?_of_valuesAs? hvalues⟩

end Table

namespace VoltageLevels

variable {t : Table}

/-- The nominal voltage under an id is that of its last row. -/
theorem nominal?_ofTable_eq_some_iff (ht : t.Fits .voltageLevel) {id : String} {v : Float} :
    (ofTable t).nominal? id = some v ↔
      ∃ q, t.IsLastNamed id q ∧ t.cellAt? q "nominal_v" = some (.ofDouble v) := by
  obtain ⟨values, hvalues, hlength, hcell⟩ := ht.nominals
  have hlevels : ofTable t = ⟨(t.index.map (·.id)).zip values⟩ := by rw [ofTable, hvalues]
  rw [nominal?, hlevels, Option.map_eq_some_iff]
  simp only [find?_reverse_eq_some_iff, List.getElem?_zip_eq_some, List.getElem?_map, hcell,
    Table.IsLastNamed]
  constructor
  · rintro ⟨⟨id', v'⟩, ⟨q, ⟨hid, hv⟩, hsame, hlast⟩, rfl⟩
    obtain rfl : id' = id := beq_iff_eq.mp hsame
    refine ⟨q, ⟨hid, fun r hr hid' => ?_⟩, by rw [hv, Option.map_some]⟩
    -- a later row of the id would have a voltage too, and would count
    obtain ⟨key, hkey, -⟩ := Option.map_eq_some_iff.mp hid'
    have hlt : r < values.length := hlength ▸ (List.getElem?_eq_some_iff.mp hkey).1
    simpa using hlast r (id', values[r]) hr ⟨hid', List.getElem?_eq_getElem hlt⟩
  · rintro ⟨q, ⟨hid, hlast⟩, hv⟩
    obtain ⟨v', hv', heq⟩ := Option.map_eq_some_iff.mp hv
    cases heq
    refine ⟨(id, v), ⟨q, ⟨hid, hv'⟩, beq_self_eq_true id, ?_⟩, rfl⟩
    rintro r ⟨id', v'⟩ hr ⟨hid', -⟩
    refine beq_false_of_ne ?_
    rintro rfl
    exact hlast r hr hid'

/-- The voltages under all ids are those that are found in the table, exactly if its levels are
known by their ids alone. -/
theorem nominal?_eq_double?_iff (ht : t.Fits .voltageLevel) :
    (∀ id, (ofTable t).nominal? id = t.double? id "nominal_v") ↔ t.NamesLevels := by
  constructor
  · intro h id q hq
    obtain ⟨values, -, hlength, hcell⟩ := ht.nominals
    obtain ⟨key, hkey, -⟩ := Option.map_eq_some_iff.mp hq.1
    have hlt : q < values.length := hlength ▸ (List.getElem?_eq_some_iff.mp hkey).1
    have hv : t.cellAt? q "nominal_v" = some (.ofDouble values[q]) := by
      rw [hcell, List.getElem?_eq_getElem hlt, Option.map_some]
    have hdouble := (nominal?_ofTable_eq_some_iff ht).mpr ⟨q, hq, hv⟩
    rw [h, Table.double?_eq_some_iff] at hdouble
    obtain ⟨p, hp, hv'⟩ := hdouble
    exact ⟨p, hp, hv'.trans hv.symm⟩
  · intro h id
    ext v
    rw [nominal?_ofTable_eq_some_iff ht, Table.double?_eq_some_iff]
    constructor
    · rintro ⟨q, hq, hv⟩
      obtain ⟨p, hp, hsame⟩ := h id q hq
      exact ⟨p, hp, hsame.trans hv⟩
    · rintro ⟨p, hp, hv⟩
      obtain ⟨q, hq⟩ := Table.exists_isLastNamed (List.mem_of_getElem? hp.1)
      obtain ⟨p', hp', hsame⟩ := h id q hq
      obtain rfl := hp.eq hp'
      exact ⟨q, hq, hsame.symm.trans hv⟩

end VoltageLevels

/-! ### The tables of a variant -/

/-- In the tables of a variant, joins bring in the cells that are found by key, and the voltages
under the ids of voltage levels are those found in their table. -/
structure Tables.LookupsAgree (ts : Tables) : Prop where
  joined : ∀ c, (ts c).JoinsAsFound
  nominal : ∀ id, (VoltageLevels.ofTable (ts .voltageLevel)).nominal? id =
    (ts .voltageLevel).double? id "nominal_v"

theorem Tables.lookupsAgree_iff {ts : Tables} (hts : ts.WellFormed) : ts.LookupsAgree ↔
    (∀ c, (ts c).RepeatsAlike) ∧ (ts .voltageLevel).NamesLevels := by
  have hjoined (c : Category) := Table.joinsAsFound_iff (hts c).rectangular
  have hnominal := VoltageLevels.nominal?_eq_double?_iff (hts .voltageLevel)
  constructor
  · exact fun h => ⟨fun c => (hjoined c).mp (h.joined c), hnominal.mp h.nominal⟩
  · exact fun h => ⟨fun c => (hjoined c).mpr (h.1 c), hnominal.mpr h.2⟩

theorem Network.Identified.lookupsAgree {n : Network} (h : n.Identified) (hn : n.WellFormed)
    {v : Variant} (hv : v ∈ n.variants) : v.tables.LookupsAgree :=
  (Tables.lookupsAgree_iff (hn.tables v hv)).mpr
    ⟨fun c => Table.repeatsAlike_of_nodup (h.tables v hv c).nodup,
      Table.namesLevels_of_keyed (h.tables v hv .voltageLevel)⟩

/-! ### Writings in per-unit -/

namespace SessionState

variable {s : SessionState} {c : Category} {t : Table} {key : RowKey} {q : Nat}

/-- The voltage that a rule finds for a row of a table: in the columns that the table has, and else
in the stored row that its key leads to.  That of a voltage level is the one its id leads to. -/
def voltageAt (s : SessionState) (c : Category) (t : Table) (rule : ConversionRule) (p : Nat) :
    Option Float :=
  match rule.source with
  | .none => some Double.nan
  | .voltageLevel column =>
    (((s.tables c).baseRow t p column).bind (·.as? .string)).bind fun id =>
      (s.tables .voltageLevel).double? id "nominal_v"
  | .rowColumn column => ((s.tables c).baseRow t p column).bind (·.as? .double)

theorem baseAt_eq_voltageAt (h : s.tables.LookupsAgree) {rule : ConversionRule}
    (hrule : rule ∈ c.rules) (p : Nat) : s.baseAt c t rule p = s.voltageAt c t rule p := by
  rw [baseAt, voltageAt, ConversionRule.baseOf]
  cases hsource : rule.source with
  | none => rfl
  | rowColumn column => rfl
  | voltageLevel column =>
    have hneeds : c.needsVoltageLevels = true :=
      List.any_eq_true.mpr ⟨rule, hrule, by rw [hsource]⟩
    rw [levels, if_pos hneeds]
    exact congrArg (Option.bind _) (funext h.nominal)

/-- Of the rows of a key that are not left out, the last one is stored. -/
theorem cell?_putAll_written (hs : s.WellFormed) (hnames : t.columnNames.Nodup)
    (hall : ∀ col ∈ (s.written c t).columns,
      c.Accepts (s.tables c) (s.written c t).index col)
    (hknown : key ∈ (s.tables c).index) (hskips : ¬s.Skips c t key) (hq : t.IsLastRow key q)
    {col : Column} (hcol : col ∈ (s.physical c t).columns) {cell : Cell}
    (hcell : col.cell? q = some cell) :
    ((s.tables c).putAll (s.written c t).index (s.written c t).columns).cell? key col.name =
      some cell := by
  obtain ⟨p, hp⟩ := Table.exists_position? hknown
  have hwritten : ((s.written c t).columns.map (·.name)).Nodup := by
    change (s.written c t).columnNames.Nodup
    rwa [Table.columnNames_of_signature (s.signature_written c t)]
  have hmem : col.rowsWhere (s.isKept c t) ∈ (s.written c t).columns :=
    List.mem_map_of_mem hcol
  have hlast : (s.tables c).lastWritten? (s.written c t).index (s.written c t).columns p col.name =
      some cell := by
    have hrow := Table.lastWritten?_of_mem (s.tables c) (s.written c t).index hwritten hmem p
    refine hrow.trans ?_
    change (s.tables c).lastFor? ((pick (s.isKept c t) t.index).zip _) p = _
    rw [Column.cells_rowsWhere, pick_zip, Table.lastFor?_pick_eq_some_iff]
    refine ⟨q, key, hq.1, by rwa [Column.getElem?_cells], (isKept_iff hq.1).mpr hskips, hp,
      fun r key' _ hr hkey' _ _ hp' => ?_⟩
    obtain rfl := Table.eq_of_position? hp hp'
    exact hq.2 r hr hkey'
  rw [Table.cell?_eq_bind, (Table.sameShape_putAll (hs.tables c) hall).position?, hp,
    Option.bind_some, Table.cellAt?_putAll (hs.tables c) hall, hlast, Option.some_or]

end SessionState

namespace Session

open SessionState

variable {s s' : SessionState} {c : Category} {t : Table}

/-- Where the look-ups agree, a writing in per-unit multiplies the doubles in the last row of a key
by the bases at the voltages that are found for this row by its key, or it leaves the element alone
where one of them is not found. -/
theorem cell?_of_update (hs : s.WellFormed) (hagree : s.tables.LookupsAgree)
    (hon : s.session.perUnit.enabled = true) (ht : t.IsRectangular) (hnames : t.columnNames.Nodup)
    (h : update c t s = .ok () s') {key : RowKey} {q : Nat} (hq : t.IsLastRow key q) :
    ((∃ rule ∈ c.rules, (t.doubles? rule.column).isSome ∧ s.voltageAt c t rule q = none) ∧
      ∀ name, (s'.tables c).cell? key name = (s.tables c).cell? key name) ∨
    ∀ rule ∈ c.rules, ∀ x, t.cellAt? q rule.column = some (.ofDouble x) →
      ∃ v, s.voltageAt c t rule q = some v ∧ (s'.tables c).cell? key rule.column =
        some (.ofDouble (x * rule.dimension.divisor s.session.perUnit v)) := by
  obtain ⟨hall, -⟩ := update_ok hs hon ht h
  by_cases hcolumns : t.columns = []
  · refine .inr fun rule _ x hx => ?_
    simp [Table.cellAt?, Table.column?, hcolumns] at hx
  have hrepeats := ((Tables.lookupsAgree_iff hs.tables).mp hagree).1 c
  have hknown := mem_index_of_accepts hall hcolumns key (List.mem_of_getElem? hq.1)
  have hopen := c.column?_of_accepts (s.signature_written c t) hall
  have hskips := skips_iff_of_repeatsAlike hs hrepeats ht hnames hopen hq.1
  have htables : s'.tables c =
      (s.tables c).putAll (s.written c t).index (s.written c t).columns := by
    rw [tables_of_update hs ht h, Tables.set_self, dispatched, if_pos hon]
  rw [htables]
  by_cases hskip : s.Skips c t key
  · have hlacks : s.lacksBase c t q = true := by
      have hdropped := hskips.mp hskip
      rw [isWritten, Bool.not_eq_false', Bool.and_eq_true] at hdropped
      exact hdropped.2
    obtain ⟨rule, hrule, hdouble, hnone⟩ := lacksBase_iff.mp hlacks
    rw [baseAt_eq_voltageAt hagree hrule] at hnone
    refine .inl ⟨⟨rule, hrule, hdouble, hnone⟩, fun name =>
      Table.cell?_putAll_of_notMem (hs.tables c) hall (.inl fun hmem => ?_)⟩
    obtain ⟨r, hr, hkept⟩ := Table.mem_index_rowsWhere.mp hmem
    exact (isKept_iff (t := t) hr).mp hkept hskip
  · refine .inr fun rule hrule x hx => ?_
    have hwritten : s.isWritten c t q = true := by
      rwa [hskips, Bool.not_eq_false] at hskip
    have hdouble : (t.doubles? rule.column).isSome :=
      Table.isSome_doubles? (p := q) (by rw [hx]; rfl)
    obtain ⟨v, hv⟩ := exists_baseAt hrule hq.1 hknown hwritten hdouble
    have hbase := getElem?_bases_joined hs hrepeats ht hq.1 hknown hrule
      (mem_columnNames_of_doubles? hdouble)
    rw [hv] at hbase
    obtain ⟨col, hcol, hname, hproduct⟩ := cell?_physical hrule hx hbase
    rw [baseAt_eq_voltageAt hagree hrule] at hv
    refine ⟨v, hv, ?_⟩
    rw [← hname]
    exact cell?_putAll_written hs hnames hall hknown hskip hq (List.mem_of_getElem? hcol) hproduct

end Session

/-! ### Runs -/

/-- A limit of a voltage level, in per-unit. -/
def Table.newLimit : Table :=
  ⟨[.plain "VL"], [⟨"high_voltage_limit", .double, [(1.5 : Float)]⟩]⟩

namespace Store

/-- In each variant of each network after a run, the look-ups by key agree exactly if the first and
the last row of each key hold the same cells and every voltage level is known by its id alone.
This is so if ids and keys are apart in all snapshots that were read.  Where the look-ups agree, a
writing in per-unit converts the last row that it gives for a key at the voltages that are found for
this row by its key, or leaves the element alone where one of them is not found. -/
theorem lookupsAgree_afterAll (ops : List Operation) :
    (∀ handle n, (afterAll ops {}).network? handle = some n → ∀ v ∈ n.variants,
      (v.tables.LookupsAgree ↔
        (∀ c, (v.tables c).RepeatsAlike) ∧ (v.tables .voltageLevel).NamesLevels)) ∧
    ((∀ text n, .load text ∈ ops → Network.ofSnapshot text = .ok n → n.Identified) →
      ∀ handle n, (afterAll ops {}).network? handle = some n → ∀ v ∈ n.variants,
        v.tables.LookupsAgree) ∧
    ∀ s : SessionState, s.Reachable → s.tables.LookupsAgree → s.session.perUnit.enabled = true →
      ∀ c t s', t.IsRectangular → t.columnNames.Nodup → Session.update c t s = .ok () s' →
        ∀ key q, t.IsLastRow key q →
          ((∃ rule ∈ c.rules, (t.doubles? rule.column).isSome ∧ s.voltageAt c t rule q = none) ∧
            ∀ name, (s'.tables c).cell? key name = (s.tables c).cell? key name) ∨
          ∀ rule ∈ c.rules, ∀ x, t.cellAt? q rule.column = some (.ofDouble x) →
            ∃ v, s.voltageAt c t rule q = some v ∧ (s'.tables c).cell? key rule.column =
              some (.ofDouble (x * rule.dimension.divisor s.session.perUnit v)) := by
  have hwf {handle : Nat} {n : Network} (hn : (afterAll ops {}).network? handle = some n) :
      n.WellFormed := (reachable_afterAll ops).wellFormed.network hn
  refine ⟨fun handle n hn v hv => Tables.lookupsAgree_iff ((hwf hn).tables v hv),
    fun hload handle n hn v hv => ?_, fun s hs hagree hon c t s' ht hnames h key q hq =>
      Session.cell?_of_update hs.wellFormed hagree hon ht hnames h hq⟩
  have hidentified := identified_afterAll ops identified_empty hload handle n hn
  exact hidentified.lookupsAgree (hwf hn) hv

/-- The operations that lead to the network of two generators. -/
def twoGeneratorsRun : List Operation :=
  [.create "grid" ⟨0, 0, 0⟩,
   .addElement 1 .voltageLevel (.plain "VL") [⟨"nominal_v", .ofDouble 400.0⟩],
   .addElement 1 .generator (.plain "G1")
    [⟨"target_v", .ofDouble 420.0⟩, ⟨"voltage_level_id", .ofString "VL"⟩],
   .addElement 1 .generator (.plain "G2") []]

/-- A generator whose voltage is found is converted at the voltage of its level. -/
theorem lookupsAgree_twoGenerators :
    (SessionState.twoGenerators (some 400.0)).tables.LookupsAgree ∧
      ∃ s', Session.update .generator .newTargets (SessionState.twoGenerators (some 400.0)) =
          .ok () s' ∧
        (s'.tables .generator).cell? (.plain "G1") "target_v" = some (.ofDouble (1.05 *
          Dimension.divisor .voltage (SessionState.twoGenerators (some 400.0)).session.perUnit
            400.0)) := by
  obtain ⟨-, hagrees, hconverts⟩ := lookupsAgree_afterAll twoGeneratorsRun
  have hreachable := SessionState.reachable_twoGenerators (some 400.0)
  obtain ⟨n, hn, -, hts⟩ := hreachable.wellFormed.exists_network
  obtain ⟨v, hv, htables⟩ := Network.exists_of_tables? hts
  have hagree := hagrees (by simp [twoGeneratorsRun]) _ n hn v hv
  rw [htables] at hagree
  have hrun : Session.update .generator .newTargets (SessionState.twoGenerators (some 400.0)) =
      .ok () _ := run_eq_ok_stateAfter (by decide +kernel)
  have hlast : Table.newTargets.IsLastRow (.plain "G1") 0 :=
    Table.lastPosition?_eq_some_iff.mp (by decide)
  refine ⟨hagree, _, hrun, ?_⟩
  rcases hconverts _ hreachable hagree rfl .generator .newTargets _ (by decide) (by decide) hrun
    (.plain "G1") 0 hlast with ⟨⟨rule, hrule, hdouble, hnone⟩, -⟩ | hconverted
  · have hfound : ∀ rule ∈ Category.rules .generator,
        (Table.newTargets.doubles? rule.column).isSome →
          ((SessionState.twoGenerators (some 400.0)).voltageAt .generator .newTargets rule
            0).isSome := by decide +kernel
    rw [← Option.not_isSome_iff_eq_none] at hnone
    exact absurd (hfound rule hrule hdouble) hnone
  · obtain ⟨v, hv, hcell⟩ := hconverted (.atLevel .voltage "target_v" "voltage_level_id")
      (by decide) 1.05 rfl
    have hvoltage : (SessionState.twoGenerators (some 400.0)).voltageAt .generator .newTargets
        (.atLevel .voltage "target_v" "voltage_level_id") 0 = some 400.0 := by decide +kernel
    obtain rfl := Option.some.inj (hvoltage.symm.trans hv)
    exact hcell

/-- A snapshot with two rows `VL` of different nominal voltages. -/
def repeatedLevel : String :=
  "\x7b\"format_version\": 1,
    \"metadata\": \x7b\"id\": \"n\", \"name\": \"n\", \"source_format\": \"\",
      \"case_date\": \"1970-01-01T00:00:00Z\", \"forecast_distance\": 0\x7d,
    \"working_variant\": \"A\",
    \"variants\": [\x7b\"id\": \"A\", \"tables\": \x7b\"voltage_level\": \x7b
      \"index\": [\x7b\"id\": \"VL\"\x7d, \x7b\"id\": \"VL\"\x7d],
      \"columns\": [
        \x7b\"name\": \"name\",
          \"data\": \x7b\"type\": \"string\", \"values\": [\"\", \"\"]\x7d\x7d,
        \x7b\"name\": \"substation_id\",
          \"data\": \x7b\"type\": \"string\", \"values\": [\"\", \"\"]\x7d\x7d,
        \x7b\"name\": \"nominal_v\",
          \"data\": \x7b\"type\": \"double\", \"values\": [400, 200]\x7d\x7d,
        \x7b\"name\": \"high_voltage_limit\",
          \"data\": \x7b\"type\": \"double\", \"values\": [null, null]\x7d\x7d,
        \x7b\"name\": \"low_voltage_limit\",
          \"data\": \x7b\"type\": \"double\", \"values\": [null, null]\x7d\x7d]\x7d\x7d\x7d]\x7d"

/-- A session in per-unit on a network that is alone in its store. -/
def perUnitSession (n : Network) : SessionState :=
  (Session.Operation.setPerUnit true).after ⟨Session.open 1, insertNetwork {} n⟩

set_option maxRecDepth 4000 in
/-- The limit of the first row is converted at the voltage of the second one. -/
theorem lookups_differ_repeatedLevel : ∃ n, Network.ofSnapshot repeatedLevel = .ok n ∧
    (∃ v ∈ n.variants, ¬v.tables.LookupsAgree) ∧
    ∃ s : SessionState, s.Reachable ∧ s.store = afterAll [.load repeatedLevel] {} ∧
      s.session.perUnit.enabled = true ∧
      (s.tables .voltageLevel).double? "VL" "nominal_v" = some 400.0 ∧
      (((Session.Operation.update .voltageLevel .newLimit).after s).tables .voltageLevel).double?
        "VL" "high_voltage_limit" = some 300.0 := by
  have haccepted : (Network.ofSnapshot repeatedLevel).toOption.any (fun n => decide
      ((∃ v ∈ n.variants,
        (VoltageLevels.ofTable (v.tables .voltageLevel)).nominal? "VL" = some 200.0 ∧
          (v.tables .voltageLevel).double? "VL" "nominal_v" = some 400.0) ∧
      ((perUnitSession n).tables .voltageLevel).double? "VL" "nominal_v" = some 400.0 ∧
      (((Session.Operation.update .voltageLevel .newLimit).after
        (perUnitSession n)).tables .voltageLevel).double? "VL" "high_voltage_limit" = some 300.0)) =
      true := by
    have hchars : repeatedLevel = String.ofList _ := rfl
    rw [Network.ofSnapshot, hchars, Json.parse?_ofList]
    decide +kernel
  rw [Option.any_eq_true] at haccepted
  obtain ⟨n, hn, hdiffer⟩ := haccepted
  obtain ⟨⟨v, hv, hnominal, hdouble⟩, hbefore, hafter⟩ := of_decide_eq_true hdiffer
  have hread := toOption_eq_some_iff.mp hn
  have hload : Store.load repeatedLevel = insert n := by rw [Store.load, hread]
  have hstore : afterAll [.load repeatedLevel] {} = insertNetwork {} n := by
    rw [afterAll, List.foldl_cons, List.foldl_nil, Operation.after, Operation.run,
      stateAfter_discard, hload]
    rfl
  have hreachable : (perUnitSession n).Reachable :=
    .after _ (.opened (hstore ▸ reachable_afterAll [.load repeatedLevel]) rfl)
  refine ⟨n, hread, ⟨v, hv, fun hagree => ?_⟩, perUnitSession n, hreachable, hstore.symm, rfl,
    hbefore, hafter⟩
  have hsame := hagree.nominal "VL"
  rw [hnominal, hdouble] at hsame
  exact absurd hsame (by decide +kernel)

end Store

end PowerTables
