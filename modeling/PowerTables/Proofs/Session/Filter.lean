import PowerTables.Proofs.Session.Lookups
import PowerTables.Session.Filter

/-!
# The ids that pass a filter

A filter is about voltage levels.  One of them is accepted if it satisfies every criterion at once,
and a row of another category passes if one of its ends is at an accepted level: of two ends that
satisfy one criterion each, neither counts.  Where the keys in the tables are apart and suit their
categories, the ids that are found are exactly those of the rows that pass.

## Main definitions

* `ElementFilter.Accepts` : the voltage levels that satisfy a filter.
* `ElementFilter.Passes` : the rows that pass one.
* `ElementFilter.Extends` : filters with another criterion.

## Main results

* `ElementFilter.mem_acceptedLevels_iff` : the levels that are found are those that are accepted.
* `Table.inFirstOrder_idsWhere` : each id once, in the order of the table.
* `Session.elementIds_exact` : the ids that are found are those that pass.
-/

namespace PowerTables

/-! ### Which rows pass -/

namespace ElementFilter

/-- A voltage level that satisfies every criterion of a filter.  Its nominal voltage differs by less
than `1e-9` kV from one of the wanted ones, and its substation is in one of the wanted countries. -/
structure Accepts (f : ElementFilter) (ts : Tables) (level : String) : Prop where
  known : .plain level ∈ (ts .voltageLevel).index
  voltage : ∀ wanted, f.nominalVoltages = some wanted → ∃ v,
    (ts .voltageLevel).cell? (.plain level) "nominal_v" = some (.ofDouble v) ∧
      ∃ w ∈ wanted, (w - v).abs < 1e-9
  country : ∀ wanted, f.countries = some wanted → ∃ substation country,
    (ts .voltageLevel).cell? (.plain level) "substation_id" = some (.ofString substation) ∧
      (ts .substation).cell? (.plain substation) "country" = some (.ofString country) ∧
      country ∈ wanted

/-- A row that passes a filter.  All rows do if there is no criterion; else a voltage level does if
it is accepted, and a row of another category if one of its voltage levels is. -/
inductive Passes (f : ElementFilter) (ts : Tables) (c : Category) (key : RowKey) : Prop
  | all (hf : f = {}) : Passes f ts c key
  | level (hc : c = .voltageLevel) (hlevel : f.Accepts ts key.id) : Passes f ts c key
  | atLevel (hc : c ≠ .voltageLevel) (side level : String)
      (hcell : (ts c).cell? key ("voltage_level" ++ side ++ "_id") = some (.ofString level))
      (hlevel : f.Accepts ts level) : Passes f ts c key

/-- A filter has all criteria of another one. -/
structure Extends (g f : ElementFilter) : Prop where
  nominalVoltages : f.nominalVoltages = none ∨ g.nominalVoltages = f.nominalVoltages
  countries : f.countries = none ∨ g.countries = f.countries

variable {f g : ElementFilter} {ts : Tables} {c : Category} {key : RowKey} {level : String}

theorem isEmpty_iff : f.isEmpty = true ↔ f = {} := by
  obtain ⟨voltages, countries⟩ := f
  simp [isEmpty]

/-- Where there is a criterion, a voltage level passes if it is accepted. -/
theorem passes_level_iff (hf : f ≠ {}) :
    f.Passes ts .voltageLevel key ↔ f.Accepts ts key.id := by
  refine ⟨fun h => ?_, .level rfl⟩
  cases h with
  | all hempty => exact absurd hempty hf
  | level _ hlevel => exact hlevel
  | atLevel hother _ _ _ _ => exact absurd rfl hother

/-- Where there is a criterion, any other row passes if one of its voltage levels is accepted. -/
theorem passes_atLevel_iff (hf : f ≠ {}) (hc : c ≠ .voltageLevel) : f.Passes ts c key ↔
    ∃ side level, (ts c).cell? key ("voltage_level" ++ side ++ "_id") = some (.ofString level) ∧
      f.Accepts ts level := by
  refine ⟨fun h => ?_, fun ⟨side, level, hcell, hlevel⟩ => .atLevel hc side level hcell hlevel⟩
  cases h with
  | all hempty => exact absurd hempty hf
  | level hlevel _ => exact absurd hlevel hc
  | atLevel _ side level hcell hlevel => exact ⟨side, level, hcell, hlevel⟩

theorem Extends.accepts (h : g.Extends f) (hlevel : g.Accepts ts level) : f.Accepts ts level := by
  refine ⟨hlevel.known, fun wanted hwanted => ?_, fun wanted hwanted => ?_⟩
  · obtain hnone | hsame := h.nominalVoltages
    · exact absurd hwanted (by simp [hnone])
    · exact hlevel.voltage wanted (hsame.trans hwanted)
  · obtain hnone | hsame := h.countries
    · exact absurd hwanted (by simp [hnone])
    · exact hlevel.country wanted (hsame.trans hwanted)

/-- What passes a filter also passes with a criterion less. -/
theorem Extends.passes (h : g.Extends f) (hpasses : g.Passes ts c key) : f.Passes ts c key := by
  cases hpasses with
  | all hg =>
    subst hg
    refine .all ?_
    obtain ⟨voltages, countries⟩ := f
    obtain rfl : voltages = none := h.nominalVoltages.elim id Eq.symm
    obtain rfl : countries = none := h.countries.elim id Eq.symm
    rfl
  | level hc hlevel => exact .level hc (h.accepts hlevel)
  | atLevel hc side level hcell hlevel => exact .atLevel hc side level hcell (h.accepts hlevel)

end ElementFilter

/-! ### Columns of voltage levels -/

theorem isLevelColumn_iff {name : String} :
    isLevelColumn name = true ↔ ∃ side, name = "voltage_level" ++ side ++ "_id" := by
  rw [isLevelColumn, Bool.and_eq_true, List.isPrefixOf_iff_prefix, List.isSuffixOf_iff_suffix]
  constructor
  · rintro ⟨⟨rest, hprefix⟩, hsuffix⟩
    rw [← hprefix] at hsuffix
    have hlength : "_id".toList.length ≤ rest.length := by
      -- the ending does not begin in the front
      match rest with
      | [] | [_] | [_, _] => simp [List.suffix_iff_eq_append] at hsuffix
      | _ :: _ :: _ :: _ => simp
    obtain ⟨side, rfl⟩ :=
      List.suffix_of_suffix_length_le hsuffix (List.suffix_append _ rest) hlength
    refine ⟨String.ofList side, ?_⟩
    rw [← String.toList_inj, ← hprefix]
    simp
  · rintro ⟨side, rfl⟩
    rw [String.toList_append, String.toList_append]
    exact ⟨(List.prefix_append _ _).trans (List.prefix_append _ _), List.suffix_append _ _⟩

/-- Numbered rows are at no voltage level. -/
theorem Category.isLevelColumn_of_numbered {c : Category} (hc : c.hasNumberedRows = true) :
    ∀ name ∈ c.schema.map (·.name), isLevelColumn name = false := by
  revert hc
  cases c <;> decide

namespace Table

variable {t : Table}

theorem isAtLevel_iff {accepted : List String} {p : Nat} : t.isAtLevel accepted p = true ↔
    ∃ side level, t.cellAt? p ("voltage_level" ++ side ++ "_id") = some (.ofString level) ∧
      level ∈ accepted := by
  rw [isAtLevel, List.any_eq_true]
  constructor
  · rintro ⟨name, hname, hlevel⟩
    obtain ⟨side, rfl⟩ := isLevelColumn_iff.mp (List.mem_filter.mp hname).2
    obtain ⟨level, hvalue, hmem⟩ := (Option.any_eq_true _ _).mp hlevel
    exact ⟨side, level, getElem?_strings?_eq_some_iff.mp hvalue, by simpa using hmem⟩
  · rintro ⟨side, level, hcell, hmem⟩
    refine ⟨_, List.mem_filter.mpr
      ⟨mem_columnNames_of_cellAt? hcell, isLevelColumn_iff.mpr ⟨side, rfl⟩⟩,
      (Option.any_eq_true _ _).mpr ⟨level, ?_, by simpa using hmem⟩⟩
    exact getElem?_strings?_eq_some_iff.mpr hcell

/-- The ids of the rows that pass are apart and in the order of the table, if it depends on the id
whether a row passes. -/
theorem inFirstOrder_idsWhere {passes : RowKey → Nat → Bool} {p : String → Prop}
    (h : ∀ position key, t.index[position]? = some key →
      (passes key position = true ↔ p key.id)) :
    InFirstOrder (t.index.map (·.id)) (t.idsWhere passes) ∧
      ∀ id, id ∈ t.idsWhere passes ↔ id ∈ t.index.map (·.id) ∧ p id := by
  classical
  have hpasses : t.index.zipIdx.filter (fun e => passes e.1 e.2) =
      t.index.zipIdx.filter fun e => decide (p e.1.id) := by
    refine List.filter_congr fun e he => ?_
    rw [Bool.eq_iff_iff, decide_eq_true_iff]
    exact h e.2 e.1 (List.mem_zipIdx_iff_getElem?.mp he)
  have hids : t.idsWhere passes =
      ((t.index.map (·.id)).filter fun id => decide (p id)).eraseDups := by
    rw [idsWhere, hpasses]
    conv_rhs => rw [← List.zipIdx_map_fst 0 t.index, List.map_map, List.filter_map]
    rfl
  have hsatisfied (id : String) : id ∈ t.idsWhere passes ↔ id ∈ t.index.map (·.id) ∧ p id := by
    rw [hids, List.mem_eraseDups, List.mem_filter, decide_eq_true_iff]
  refine ⟨?_, hsatisfied⟩
  rw [hids] at hsatisfied ⊢
  exact (inFirstOrder_eraseDups _).of_filter fun id hid => decide_eq_true ((hsatisfied id).mp hid).2

end Table

/-! ### Accepted levels -/

namespace ElementFilter

variable {f g : ElementFilter} {ts : Tables} {c : Category} {key : RowKey} {level : String}

theorem acceptsVoltage_iff {nominal : Option Float} : f.acceptsVoltage nominal = true ↔
    ∀ wanted, f.nominalVoltages = some wanted →
      ∃ v, nominal = some v ∧ ∃ w ∈ wanted, (w - v).abs < 1e-9 := by
  have htolerance : (1e-9 : Float) = voltageTolerance := rfl
  rw [acceptsVoltage, htolerance]
  cases f.nominalVoltages with
  | none => simp
  | some wanted => simp [Option.any_eq_true]

theorem acceptsCountry_iff {country : Option String} : f.acceptsCountry country = true ↔
    ∀ wanted, f.countries = some wanted → ∃ name, country = some name ∧ name ∈ wanted := by
  rw [acceptsCountry]
  cases f.countries with
  | none => simp
  | some wanted => simp [Option.any_eq_true]

/-- The country of a substation is the one in its row, if it is known by its id alone. -/
theorem countryOf?_eq_some_iff {t : Table} (hkeys : Category.substation.Keyed t.index)
    {id country : String} : countryOf? t id = some country ↔
      t.cell? (.plain id) "country" = some (.ofString country) := by
  have hplain {p : Nat} {id : String} (hid : (t.index.map (·.id))[p]? = some id) :
      t.position? (.plain id) = some p := by
    rw [List.getElem?_map] at hid
    obtain ⟨key, hkey, rfl⟩ := Option.map_eq_some_iff.mp hid
    rw [← hkeys.eq_plain rfl (List.mem_of_getElem? hkey)]
    exact Table.position?_of_nodup hkeys.nodup hkey
  have hentries : countryOf? t id = (((t.index.map (·.id)).zip
      ((t.strings? "country").getD [])).reverse.find? (·.1 == id)).map (·.2) := by
    rw [countryOf?]
    cases t.strings? "country" <;> simp
  rw [hentries, Option.map_eq_some_iff]
  simp only [find?_reverse_eq_some_iff, List.getElem?_zip_eq_some]
  constructor
  · rintro ⟨⟨id', country'⟩, ⟨p, ⟨hid, hcountry⟩, hsame, -⟩, rfl⟩
    obtain rfl : id' = id := beq_iff_eq.mp hsame
    rw [Table.cell?_eq_bind, hplain hid, Option.bind_some]
    exact Table.getElem?_strings?_eq_some_iff.mp hcountry
  · intro hcell
    rw [Table.cell?_eq_bind] at hcell
    obtain ⟨p, hp, hcell⟩ := Option.bind_eq_some_iff.mp hcell
    have hid : (t.index.map (·.id))[p]? = some id := by
      rw [List.getElem?_map, Table.position?_eq_some hp]
      rfl
    refine ⟨(id, country), ⟨p, ⟨hid, Table.getElem?_strings?_eq_some_iff.mpr hcell⟩,
      beq_self_eq_true id, fun q (id', _) hq hlater => beq_false_of_ne ?_⟩, rfl⟩
    rintro rfl
    exact Nat.ne_of_lt hq (Option.some.inj (hp.symm.trans (hplain hlater.1)))

variable (hkeys : ∀ c : Category, c.Keyed (ts c).index)
include hkeys

/-- The levels that are found are those that satisfy every criterion. -/
theorem mem_acceptedLevels_iff :
    level ∈ f.acceptedLevels (ts .voltageLevel) (ts .substation) ↔ f.Accepts ts level := by
  have hcell {p : Nat} (hp : (ts .voltageLevel).index[p]? = some (.plain level)) (name : String) :
      (ts .voltageLevel).cell? (.plain level) name = (ts .voltageLevel).cellAt? p name :=
    (Table.isFirstRow_of_nodup (hkeys .voltageLevel).nodup hp).cell?_eq name
  rw [acceptedLevels]
  simp only [List.mem_map, List.mem_filter, Prod.exists, List.mem_zipIdx_iff_getElem?,
    Bool.and_eq_true, acceptsVoltage_iff, acceptsCountry_iff, Option.bind_eq_some_iff,
    countryOf?_eq_some_iff (hkeys .substation), Table.getElem?_doubles?_eq_some_iff,
    Table.getElem?_strings?_eq_some_iff]
  constructor
  · rintro ⟨key, p, ⟨hp, hvoltage, hcountry⟩, rfl⟩
    have hmem := List.mem_of_getElem? hp
    rw [(hkeys .voltageLevel).eq_plain rfl hmem] at hp hmem
    refine ⟨hmem, fun wanted hwanted => ?_, fun wanted hwanted => ?_⟩
    · obtain ⟨v, hv, hnear⟩ := hvoltage wanted hwanted
      exact ⟨v, (hcell hp _).trans hv, hnear⟩
    · obtain ⟨country, ⟨substation, hsubstation, hcountry⟩, hmem⟩ := hcountry wanted hwanted
      exact ⟨substation, country, (hcell hp _).trans hsubstation, hcountry, hmem⟩
  · intro h
    obtain ⟨p, hp⟩ := List.mem_iff_getElem?.mp h.known
    refine ⟨_, p, ⟨hp, fun wanted hwanted => ?_, fun wanted hwanted => ?_⟩, rfl⟩
    · obtain ⟨v, hv, hnear⟩ := h.voltage wanted hwanted
      exact ⟨v, (hcell hp _).symm.trans hv, hnear⟩
    · obtain ⟨substation, country, hsubstation, hcountry, hmem⟩ := h.country wanted hwanted
      exact ⟨country, ⟨substation, (hcell hp _).symm.trans hsubstation, hcountry⟩, hmem⟩

variable (hts : ts.WellFormed)
include hts

/-- Whether a row passes is told by its id. -/
theorem Passes.of_sameId (hkey : key ∈ (ts c).index) {key' : RowKey}
    (hkey' : key' ∈ (ts c).index) (hid : key.id = key'.id) (h : f.Passes ts c key) :
    f.Passes ts c key' := by
  cases h with
  | all hf => exact .all hf
  | level hc hlevel => exact .level hc (hid ▸ hlevel)
  | atLevel hc side level hcell hlevel =>
    -- a row that is at a voltage level is known by its id alone
    have hname := Table.mem_columnNames_of_cell? hcell
    rw [(hts c).columnNames] at hname
    have hplain : c.hasNumberedRows = false := by
      refine Bool.eq_false_iff.mpr fun hnumbered => ?_
      have hno := c.isLevelColumn_of_numbered hnumbered _ hname
      rw [isLevelColumn_iff.mpr ⟨side, rfl⟩] at hno
      cases hno
    obtain rfl : key = key' := by
      rw [(hkeys c).eq_plain hplain hkey, (hkeys c).eq_plain hplain hkey', hid]
    exact .atLevel hc side level hcell hlevel

end ElementFilter

namespace Session

open ElementFilter

variable {s : SessionState}

section Found

variable (hs : s.WellFormed) (hkeys : ∀ c : Category, c.Keyed (s.tables c).index) (c : Category)
  (f : ElementFilter)
include hs hkeys

/-- A row is kept if it passes. -/
theorem elementIds_run :
    ∃ passes, elementIds c f s = .ok ((s.tables c).idsWhere passes) s ∧
      ∀ p key, (s.tables c).index[p]? = some key →
        (passes key p = true ↔ f.Passes s.tables c key) := by
  have hstored := storedTable_run hs c
  by_cases hf : f.isEmpty = true
  · refine ⟨fun _ _ => true, ?_, fun p key hp => ?_⟩
    · rw [elementIds, run_bind_of_ok hstored, if_pos hf]
      rfl
    · exact iff_of_true rfl (.all (isEmpty_iff.mp hf))
  · have hne : f ≠ {} := mt isEmpty_iff.mpr hf
    let accepted := f.acceptedLevels (s.tables .voltageLevel) (s.tables .substation)
    have haccepted (level : String) : level ∈ accepted ↔ f.Accepts s.tables level :=
      mem_acceptedLevels_iff hkeys
    refine ⟨fun key p => if c = .voltageLevel then accepted.contains key.id
      else (s.tables c).isAtLevel accepted p, ?_, fun p key hp => ?_⟩
    · rw [elementIds, run_bind_of_ok hstored, if_neg hf,
        run_bind_of_ok (storedTable_run hs .voltageLevel),
        run_bind_of_ok (storedTable_run hs .substation)]
      rfl
    · have hrow := (Table.isFirstRow_of_nodup (hkeys c).nodup hp).cell?_eq
      beta_reduce
      by_cases hc : c = .voltageLevel
      · subst hc
        rw [if_pos rfl, List.contains_iff_mem, haccepted, passes_level_iff hne]
      · rw [if_neg hc, Table.isAtLevel_iff, passes_atLevel_iff hne hc]
        simp only [haccepted, hrow]

/-- The ids that are found are those of the rows that pass, in the order of the table. -/
theorem exists_elementIds : ∃ ids, elementIds c f s = .ok ids s ∧
    InFirstOrder ((s.tables c).index.map (·.id)) ids ∧
    ∀ id, id ∈ ids ↔ ∃ key ∈ (s.tables c).index, key.id = id ∧ f.Passes s.tables c key := by
  obtain ⟨passes, hrun, hpasses⟩ := elementIds_run hs hkeys c f
  have hsame (p : Nat) (key : RowKey) (hp : (s.tables c).index[p]? = some key) :
      passes key p = true ↔
        ∃ key' ∈ (s.tables c).index, key'.id = key.id ∧ f.Passes s.tables c key' := by
    have hkey := List.mem_of_getElem? hp
    rw [hpasses p key hp]
    refine ⟨fun h => ⟨key, hkey, rfl, h⟩, ?_⟩
    rintro ⟨key', hkey', hid, h⟩
    exact h.of_sameId hkeys hs.tables hkey' hkey hid
  obtain ⟨horder, hids⟩ := Table.inFirstOrder_idsWhere
    (p := fun id => ∃ key' ∈ (s.tables c).index, key'.id = id ∧ f.Passes s.tables c key') hsame
  refine ⟨_, hrun, horder, fun id => (hids id).trans (and_iff_right_of_imp ?_)⟩
  rintro ⟨key, hkey, rfl, -⟩
  exact List.mem_map_of_mem hkey

end Found

/-- The ids of a category that pass a filter are found exactly, each once and in the order of the
table.  Away from the voltage levels, rows that are at none of them pass the empty filter only, and
with a criterion more no other ids are found. -/
theorem elementIds_exact (hreachable : s.Reachable)
    (hkeys : ∀ c : Category, c.Keyed (s.tables c).index) (c : Category) (f : ElementFilter) :
    ∃ ids, elementIds c f s = .ok ids s ∧ ids.Nodup ∧
      InFirstOrder ((s.tables c).index.map (·.id)) ids ∧
      (∀ id, id ∈ ids ↔ ∃ key ∈ (s.tables c).index, key.id = id ∧ f.Passes s.tables c key) ∧
      (c ≠ .voltageLevel → (∀ side, "voltage_level" ++ side ++ "_id" ∉ c.schema.map (·.name)) →
        f ≠ {} → ids = []) ∧
      ∀ g : ElementFilter, g.Extends f →
        ∃ ids', elementIds c g s = .ok ids' s ∧ ids' ⊆ ids := by
  have hs := hreachable.wellFormed
  obtain ⟨ids, hrun, horder, hids⟩ := exists_elementIds hs hkeys c f
  refine ⟨ids, hrun, horder.nodup, horder, hids, fun hc hsides hf => ?_, fun g hg => ?_⟩
  · refine List.eq_nil_iff_forall_not_mem.mpr fun id hid => ?_
    obtain ⟨key, -, -, hpasses⟩ := (hids id).mp hid
    obtain ⟨side, level, hcell, -⟩ := (passes_atLevel_iff hf hc).mp hpasses
    have hname := Table.mem_columnNames_of_cell? hcell
    rw [(hs.tables c).columnNames] at hname
    exact hsides side hname
  · obtain ⟨ids', hrun', -, hids'⟩ := exists_elementIds hs hkeys c g
    refine ⟨ids', hrun', fun id hid => ?_⟩
    obtain ⟨key, hkey, hname, hpasses⟩ := (hids' id).mp hid
    exact (hids id).mpr ⟨key, hkey, hname, hg.passes hpasses⟩

/-- The operations that lead to a network of two voltage levels in two countries, and of a line
between them. -/
def borderRun : List Store.Operation :=
  [.create "grid" ⟨0, 0, 0⟩,
   .addElement 1 .substation (.plain "S1") [⟨"country", .ofString "FR"⟩],
   .addElement 1 .substation (.plain "S2") [⟨"country", .ofString "BE"⟩],
   .addElement 1 .voltageLevel (.plain "VL1")
    [⟨"nominal_v", .ofDouble 400.0⟩, ⟨"substation_id", .ofString "S1"⟩],
   .addElement 1 .voltageLevel (.plain "VL2")
    [⟨"nominal_v", .ofDouble 225.0⟩, ⟨"substation_id", .ofString "S2"⟩],
   .addElement 1 .line (.plain "L")
    [⟨"voltage_level1_id", .ofString "VL1"⟩, ⟨"voltage_level2_id", .ofString "VL2"⟩]]

/-- A session on the network of two countries. -/
def borderSession : SessionState := ⟨Session.open 1, Store.afterAll borderRun {}⟩

theorem reachable_borderSession : borderSession.Reachable :=
  .opened (Store.reachable_afterAll borderRun) (by decide +kernel)

theorem keyed_borderSession (c : Category) : c.Keyed (borderSession.tables c).index := by
  obtain ⟨n, hn, -, hts⟩ := reachable_borderSession.wellFormed.exists_network
  obtain ⟨v, hv, htables⟩ := Network.exists_of_tables? hts
  have hidentified := Store.identified_afterAll borderRun Store.identified_empty
    (by simp [borderRun]) _ n hn
  exact htables ▸ hidentified.tables v hv c

theorem accepts_of_mem_border {f : ElementFilter} {level : String}
    (h : level ∈ f.acceptedLevels (borderSession.tables .voltageLevel)
      (borderSession.tables .substation)) : f.Accepts borderSession.tables level :=
  (mem_acceptedLevels_iff keyed_borderSession).mp h

theorem not_accepts_of_eq_nil {f : ElementFilter}
    (h : f.acceptedLevels (borderSession.tables .voltageLevel)
      (borderSession.tables .substation) = []) (level : String) :
    ¬f.Accepts borderSession.tables level := by
  rw [← mem_acceptedLevels_iff keyed_borderSession, h]
  exact List.not_mem_nil

/-- Each level of the line satisfies one of two criteria, and no level both of them. -/
theorem accepts_border :
    Accepts { nominalVoltages := some [400.0] } borderSession.tables "VL1" ∧
      Accepts { countries := some ["BE"] } borderSession.tables "VL2" ∧
      ∀ level, ¬Accepts ⟨some [400.0], some ["BE"]⟩ borderSession.tables level :=
  ⟨accepts_of_mem_border (by decide +kernel), accepts_of_mem_border (by decide +kernel),
    not_accepts_of_eq_nil (by decide +kernel)⟩

/-- The line passes by its end in Belgium, but not if this end had to be at the voltage of the other
one.  It also passes by a voltage that is nearer than `1e-9` to that of this end, and not by one
that is farther away. -/
theorem elementIds_border :
    (∃ ids, elementIds .line { countries := some ["BE"] } borderSession = .ok ids borderSession ∧
      "L" ∈ ids) ∧
    (∃ ids, elementIds .line ⟨some [400.0], some ["BE"]⟩ borderSession = .ok ids borderSession ∧
      "L" ∉ ids) ∧
    (∃ ids, elementIds .line { nominalVoltages := some [225.0000000005] } borderSession =
      .ok ids borderSession ∧ "L" ∈ ids) ∧
    ∃ ids, elementIds .line { nominalVoltages := some [225.000000002] } borderSession =
      .ok ids borderSession ∧ "L" ∉ ids := by
  have hexact := elementIds_exact reachable_borderSession keyed_borderSession .line
  have hfound (f : ElementFilter) (hlevel : f.Accepts borderSession.tables "VL2") :
      ∃ ids, elementIds .line f borderSession = .ok ids borderSession ∧ "L" ∈ ids := by
    have hend : ((borderSession.tables .line).cell? (.plain "L") "voltage_level2_id").bind
        (·.as? .string) = some "VL2" := by decide +kernel
    obtain ⟨ids, hrun, -, -, hids, -⟩ := hexact f
    refine ⟨ids, hrun, (hids "L").mpr ⟨.plain "L", by decide +kernel, rfl, ?_⟩⟩
    exact .atLevel nofun "2" "VL2" (Cell.bind_as?_eq_some_iff.mp hend) hlevel
  have hlost (f : ElementFilter) (hf : f ≠ {})
      (hnone : ∀ level, ¬f.Accepts borderSession.tables level) :
      ∃ ids, elementIds .line f borderSession = .ok ids borderSession ∧ "L" ∉ ids := by
    obtain ⟨ids, hrun, -, -, hids, -⟩ := hexact f
    refine ⟨ids, hrun, fun hmem => ?_⟩
    obtain ⟨key, -, -, hpasses⟩ := (hids "L").mp hmem
    cases hpasses with
    | all hempty => exact hf hempty
    | level hc _ => cases hc
    | atLevel _ _ level _ hlevel => exact hnone level hlevel
  exact ⟨hfound _ accepts_border.2.1, hlost _ nofun accepts_border.2.2,
    hfound _ (accepts_of_mem_border (by decide +kernel)),
    hlost _ nofun (not_accepts_of_eq_nil (by decide +kernel))⟩

end Session

end PowerTables
