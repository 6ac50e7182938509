import PowerTables.Proofs.Network.Runs
import PowerTables.Proofs.Table.Json

/-!
# Networks through their snapshots

The snapshot of a network is a text, and a network is read from it again.  The network that is
read has the same working variant and the same variants in the same order, and all tables are
alike, cell by cell.  The case date is read from its printed form.  So a network comes back as it
was exactly if its case date and its doubles do; this is not so for every double.

## Main definitions

* `Variant.Alike` : the cells of variants are in a relation.
* `Network.ReadsBack` : a network is read from what was written for another one.
* `Network.doubles` : the doubles in the tables of a network.

## Main results

* `Network.ofSnapshot_snapshot_iff` : the networks that are read from a snapshot.
* `Network.readsBack_self_iff` : the networks that are read back as they were.
* `Store.load_dump_keeps` : what a network keeps on its way through a text.
* `Store.load_dump_same_iff` : the networks that come back as they were.
-/

namespace PowerTables

/-! ### Tables and variants -/

theorem Category.ofName?_name (c : Category) : ofName? c.name = some c := by
  cases c <;> decide

namespace Tables

theorem regular_toJson (ts : Tables) : ts.toJson.Regular := by
  refine .record fun f hf => ?_
  obtain ⟨c, -, rfl⟩ := List.mem_map.mp hf
  exact (ts c).regular_toJson

theorem readTable?_name {c : Category} {t : Table} {entry : Category × Table} :
    readTable? (some c.name, t.toJson) = some entry ↔
      entry.1 = c ∧ Table.Alike CellType.ReadsBack t entry.2 := by
  obtain ⟨d, u⟩ := entry
  have hread : readTable? (some c.name, t.toJson) =
      (Table.ofJson? t.toJson).map fun u => (c, u) := by
    simp only [readTable?, Category.ofName?_name, Option.bind_eq_bind, Option.bind_some,
      Option.map_eq_bind]
    rfl
  rw [hread, Option.map_eq_some_iff]
  simp only [Table.ofJson?_toJson, Prod.mk.injEq]
  constructor
  · rintro ⟨u, hu, rfl, rfl⟩
    exact ⟨rfl, hu⟩
  · rintro ⟨rfl, hu⟩
    exact ⟨u, hu, rfl, rfl⟩

/-- Where each category has one entry, its table is the one of the entry. -/
theorem ofList_of_mem {entries : List (Category × Table)} (h : (entries.map Prod.fst).Nodup)
    {c : Category} {t : Table} (hmem : (c, t) ∈ entries) : ofList entries c = t := by
  have hreverse : (entries.reverse.map Prod.fst).Nodup := by
    rw [List.map_reverse]
    exact List.nodup_reverse.mpr h
  have hfind : entries.reverse.find? (·.1 == c) = some (c, t) :=
    (find?_key_eq_some_iff hreverse).mpr ⟨List.mem_reverse.mpr hmem, rfl⟩
  rw [ofList, hfind]

/-- The tables that are read from what was written for some tables. -/
theorem ofJson?_toJson {ts us : Tables} : Tables.ofJson? ts.toJson = some us ↔
    ∀ c, Table.Alike CellType.ReadsBack (ts c) (us c) := by
  have hread : Tables.ofJson? ts.toJson =
      ((Category.all.map fun c => (some c.name, (ts c).toJson)).mapM readTable?).map ofList := by
    rw [toJson, Json.record, List.map_map]
    rfl
  rw [hread, Option.map_eq_some_iff]
  simp only [mapM_eq_some_iff, List.forall₂_map_left_iff, readTable?_name]
  constructor
  · rintro ⟨entries, hentries, rfl⟩ c
    have hkeys : entries.map Prod.fst = Category.all := by
      rw [← List.forall₂_eq_eq_eq, List.forall₂_map_left_iff]
      exact hentries.flip.imp fun _ _ h => h.1
    obtain ⟨⟨d, u⟩, hu, rfl, halike⟩ := exists_of_forall₂ hentries (Category.mem_all c)
    rwa [ofList_of_mem (hkeys ▸ by decide) hu]
  · intro h
    refine ⟨Category.all.map fun c => (c, us c), ?_, ?_⟩
    · rw [List.forall₂_map_right_iff, List.forall₂_same]
      exact fun c _ => ⟨rfl, h c⟩
    · funext c
      refine ofList_of_mem ?_ (List.mem_map_of_mem (Category.mem_all c))
      rw [List.map_map]
      exact List.Nodup.map Function.injective_id (by decide)

end Tables

section Alike

variable (R : (type : CellType) → type.Value → type.Value → Prop)

/-- Variants of one id with tables that are alike. -/
structure Variant.Alike (v w : Variant) : Prop where
  id : w.id = v.id
  tables : ∀ c, Table.Alike R (v.tables c) (w.tables c)

variable {R}

theorem Variant.Alike.mono {R' : (type : CellType) → type.Value → type.Value → Prop}
    (hR : ∀ type v w, R type v w → R' type v w) {v w : Variant} (h : Alike R v w) :
    Alike R' v w :=
  ⟨h.id, fun c => (h.tables c).mono hR⟩

end Alike

namespace Variant

theorem regular_toJson (v : Variant) : v.toJson.Regular := by
  refine .record fun f hf => ?_
  obtain rfl | rfl := List.mem_pair.mp hf
  · exact .text v.id
  · exact v.tables.regular_toJson

/-- The variants that are read from what was written for one. -/
theorem ofJson?_toJson {v w : Variant} :
    Variant.ofJson? v.toJson = some w ↔ Alike CellType.ReadsBack v w := by
  have hfields : v.toJson.fields? ["id", "tables"] =
    some [some (.ofText v.id), some v.tables.toJson] := rfl
  have hid : (Json.ofText v.id).text? = some v.id := rfl
  have hread : Variant.ofJson? v.toJson =
      (Tables.ofJson? v.tables.toJson).map fun ts => ⟨v.id, ts⟩ := by
    simp only [Variant.ofJson?, hfields, hid, Option.bind_eq_bind, Option.bind_some,
      Option.map_eq_bind]
    rfl
  rw [hread, Option.map_eq_some_iff]
  simp only [Tables.ofJson?_toJson]
  constructor
  · rintro ⟨ts, hts, rfl⟩
    exact ⟨rfl, hts⟩
  · rintro ⟨hid, hts⟩
    exact ⟨w.tables, hts, by rw [← hid]⟩

end Variant

/-! ### Networks -/

namespace Metadata

theorem regular_toJson (m : Metadata) : m.toJson.Regular := by
  refine .record fun f hf => ?_
  simp only [List.mem_cons, List.not_mem_nil, or_false] at hf
  obtain rfl | rfl | rfl | rfl | rfl := hf
  · exact .text _
  · exact .text _
  · exact .text _
  · exact .text _
  · exact Json.regular_ofInt _

/-- The metadata that are read from what was written for some: the case date is read from its
printed form. -/
theorem ofJson?_toJson (m : Metadata) : Metadata.ofJson? m.toJson =
    (Instant.parse? m.caseDate.text).map fun caseDate => { m with caseDate := caseDate } := by
  have hfields : m.toJson.fields?
      ["id", "name", "source_format", "case_date", "forecast_distance"] =
    some [some (.ofText m.id), some (.ofText m.name), some (.ofText m.sourceFormat),
      some (.ofText m.caseDate.text), some (.ofInt m.forecastDistance.toInt)] := rfl
  have htext (s : String) : (Json.ofText s).text? = some s := rfl
  simp only [Metadata.ofJson?, hfields, htext, Json.int64?_ofInt, Option.bind_eq_bind,
    Option.bind_some, Option.map_eq_bind]
  rfl

end Metadata

namespace Network

variable {n m : Network}

/-- A network is read from what was written for another one. -/
structure ReadsBack (n m : Network) : Prop where
  metadata : Metadata.ofJson? n.metadata.toJson = some m.metadata
  working : m.working = n.working
  variants : List.Forall₂ (Variant.Alike CellType.ReadsBack) n.variants m.variants

theorem regular_toJson (n : Network) : n.toJson.Regular := by
  refine .record fun f hf => ?_
  simp only [List.mem_cons, List.not_mem_nil, or_false] at hf
  obtain rfl | rfl | rfl | rfl := hf
  · exact Json.regular_ofInt _
  · exact n.metadata.regular_toJson
  · exact .text _
  · exact .array (List.forall_mem_map.mpr fun v _ => v.regular_toJson)

/-- The networks that are read from what was written for one. -/
theorem ofJson?_toJson {version : Nat} : Network.ofJson? n.toJson = some (version, m) ↔
    version = snapshotVersion ∧ n.ReadsBack m := by
  have hfields : n.toJson.fields? ["format_version", "metadata", "working_variant", "variants"] =
    some [some (.ofNat snapshotVersion), some n.metadata.toJson, some (.ofText n.working),
      some (.array (n.variants.map Variant.toJson))] := rfl
  have hversion : readVersion? (.ofNat snapshotVersion) = some snapshotVersion := by
    decide +kernel
  have hworking : (Json.ofText n.working).text? = some n.working := rfl
  have hvariants (l : List Variant) :
      (Json.array (n.variants.map Variant.toJson)).items? Variant.ofJson? = some l ↔
        List.Forall₂ (Variant.Alike CellType.ReadsBack) n.variants l := by
    simp only [Json.items?_array_iff, Variant.ofJson?_toJson]
  simp only [Network.ofJson?, hfields, hversion, hworking, Option.bind_eq_bind, Option.bind_some]
  constructor
  · intro h
    obtain ⟨metadata, hmetadata, h⟩ := Option.bind_eq_some_iff.mp h
    obtain ⟨l, hl, h⟩ := Option.bind_eq_some_iff.mp h
    obtain ⟨rfl, rfl⟩ := Prod.mk.inj (Option.some.inj h)
    exact ⟨rfl, hmetadata, rfl, (hvariants l).mp hl⟩
  · rintro ⟨rfl, hmetadata, hsame, halike⟩
    rw [hmetadata, (hvariants _).mpr halike, Option.bind_some, Option.bind_some, ← hsame]
    rfl

/-- The networks that are read from a snapshot: those that are read from what was written, if the
working variant is there and the tables have the columns of the schema. -/
theorem ofSnapshot_snapshot_iff :
    ofSnapshot n.snapshot = .ok m ↔ n.ReadsBack m ∧ m.WellFormed := by
  rw [ofSnapshot_eq_ok_iff, snapshot, Json.parse?_pretty n.regular_toJson, Option.bind_some,
    ofJson?_toJson]
  exact and_congr_left fun _ => and_iff_right rfl

/-! ### What comes back -/

/-- The doubles in the tables of all variants. -/
def doubles (n : Network) : List Float :=
  n.variants.flatMap fun v => Category.all.flatMap fun c => (v.tables c).columns.flatMap fun col =>
    (col.valuesAs? .double).getD []

theorem mem_doubles {x : Float} : x ∈ n.doubles ↔
    ∃ v ∈ n.variants, ∃ c : Category, ∃ col ∈ (v.tables c).columns,
      ∃ xs, col.valuesAs? .double = some xs ∧ x ∈ xs := by
  have hvalues (col : Column) : x ∈ (col.valuesAs? .double).getD [] ↔
      ∃ xs, col.valuesAs? .double = some xs ∧ x ∈ xs := by
    cases col.valuesAs? .double with
    | none => simp
    | some xs => simp
  simp only [doubles, List.mem_flatMap, Category.mem_all, true_and, hvalues]

/-- A network is read back as it was exactly if its case date is, none of its doubles is infinite,
and each finite one is what the reader finds in its shortest digits. -/
theorem readsBack_self_iff : n.ReadsBack n ↔
    Instant.parse? n.metadata.caseDate.text = some n.metadata.caseDate ∧
      ∀ x ∈ n.doubles, x.isInf = false ∧
        (x.isFinite = true → (Json.ofDouble x).double? = some x) := by
  have hmetadata : Metadata.ofJson? n.metadata.toJson = some n.metadata ↔
      Instant.parse? n.metadata.caseDate.text = some n.metadata.caseDate := by
    rw [Metadata.ofJson?_toJson, Option.map_eq_some_iff]
    constructor
    · rintro ⟨caseDate, hparse, heq⟩
      rw [hparse, ← heq]
    · intro hparse
      exact ⟨_, hparse, rfl⟩
  have hvariants : List.Forall₂ (Variant.Alike CellType.ReadsBack) n.variants n.variants ↔
      ∀ x ∈ n.doubles, x.isInf = false ∧
        (x.isFinite = true → (Json.ofDouble x).double? = some x) := by
    rw [List.forall₂_same]
    constructor
    · intro h x hx
      rw [← Json.doubleOrMissing?_self_iff]
      obtain ⟨v, hv, c, col, hcol, xs, hxs, hx⟩ := mem_doubles.mp hx
      have hself := Table.alike_self_iff.mp ((h v hv).tables c) col hcol
      exact Column.readsBack_self_iff.mp hself xs hxs x hx
    · intro h v hv
      refine ⟨rfl, fun c => Table.alike_self_iff.mpr fun col hcol => ?_⟩
      exact Column.readsBack_self_iff.mpr fun xs hxs x hx =>
        Json.doubleOrMissing?_self_iff.mpr
          (h x (mem_doubles.mpr ⟨v, hv, c, col, hcol, xs, hxs, hx⟩))
  exact ⟨fun h => ⟨hmetadata.mp h.metadata, hvariants.mp h.variants⟩,
    fun h => ⟨hmetadata.mpr h.1, rfl, hvariants.mpr h.2⟩⟩

end Network

/-! ### Stores -/

namespace Store

variable {s s' t t' : Store} {handle fresh : Nat} {n : Network} {text : String}

theorem dump_eq_ok_iff : dump handle s = .ok text s' ↔
    s' = s ∧ ∃ n, s.network? handle = some n ∧ n.snapshot = text := by
  have hget := get_eq handle s
  cases hn : s.network? handle with
  | none =>
    rw [hn] at hget
    rw [dump, run_bind_of_error hget]
    simp
  | some n =>
    rw [hn] at hget
    rw [dump, run_bind_of_ok hget]
    change EStateM.Result.ok n.snapshot s = .ok text s' ↔ _
    simp [and_comm, eq_comm]

theorem load_eq_ok_iff : load text t = .ok fresh t' ↔
    ∃ m, Network.ofSnapshot text = .ok m ∧ fresh = t.next ∧ t' = t.insertNetwork m := by
  rw [load]
  cases Network.ofSnapshot text with
  | error e =>
    constructor
    · intro h
      cases h
    · rintro ⟨m, h, -⟩
      cases h
  | ok m =>
    change EStateM.Result.ok t.next (t.insertNetwork m) = .ok fresh t' ↔ _
    simp [eq_comm]

theorem WellFormed.network?_next (h : t.WellFormed) : t.network? t.next = none := by
  rw [network?, Option.map_eq_none_iff, List.find?_eq_none]
  exact fun e he => by simpa using (h.fresh e he).ne

/-- A network comes back from its snapshot as it was exactly if it is read back from what is
written for it. -/
theorem exists_load_dump_iff (hs : s.Reachable) (ht : t.Reachable)
    (hn : s.network? handle = some n) :
    (∃ text fresh t', dump handle s = .ok text s ∧ load text t = .ok fresh t' ∧
      t'.network? fresh = some n) ↔ n.ReadsBack n := by
  constructor
  · rintro ⟨text, fresh, t', hdump, hload, hfresh⟩
    obtain ⟨-, n', hn', rfl⟩ := dump_eq_ok_iff.mp hdump
    obtain rfl : n' = n := Option.some.inj (hn'.symm.trans hn)
    obtain ⟨m, hm, rfl, rfl⟩ := load_eq_ok_iff.mp hload
    rw [network?_insertNetwork_next ht.wellFormed.network?_next] at hfresh
    obtain rfl : m = n' := Option.some.inj hfresh
    exact (Network.ofSnapshot_snapshot_iff.mp hm).1
  · intro hread
    exact ⟨n.snapshot, t.next, t.insertNetwork n, dump_eq_ok_iff.mpr ⟨rfl, n, hn, rfl⟩,
      load_eq_ok_iff.mpr ⟨n, Network.ofSnapshot_snapshot_iff.mpr
        ⟨hread, hs.wellFormed.network hn⟩, rfl, rfl⟩,
      network?_insertNetwork_next ht.wellFormed.network?_next n⟩

/-- What a network keeps when one store takes its snapshot and another one, or the same, reads
it: the version that was written is read, the metadata are the same if the case date is read back
from its printed form, and so are the working variant, the variants in their order, the row keys,
the columns and all texts, integers and truth values.  A double is missing exactly if it was
missing or infinite, and finite exactly if it was finite. -/
theorem load_dump_keeps (ht : t.Reachable) (hdump : dump handle s = .ok text s')
    (hload : load text t = .ok fresh t') :
    ∃ n m, s.network? handle = some n ∧ t'.network? fresh = some m ∧
      (Json.parse? text).bind Network.ofJson? = some (1, m) ∧
      (Instant.parse? n.metadata.caseDate.text = some n.metadata.caseDate →
        m.metadata = n.metadata) ∧
      m.working = n.working ∧ m.variantIds = n.variantIds ∧
      List.Forall₂ (Variant.Alike CellType.Survives) n.variants m.variants := by
  obtain ⟨-, n, hn, rfl⟩ := dump_eq_ok_iff.mp hdump
  obtain ⟨m, hm, rfl, rfl⟩ := load_eq_ok_iff.mp hload
  obtain ⟨hread, -⟩ := Network.ofSnapshot_snapshot_iff.mp hm
  have hids : n.variantIds = m.variantIds := by
    rw [← List.forall₂_eq_eq_eq, Network.variantIds, Network.variantIds, List.forall₂_map_left_iff,
      List.forall₂_map_right_iff]
    exact hread.variants.imp fun v w h => h.id.symm
  refine ⟨n, m, hn, network?_insertNetwork_next ht.wellFormed.network?_next m,
    (Network.ofSnapshot_eq_ok_iff.mp hm).1, fun hdate => ?_, hread.working, hids.symm, ?_⟩
  · have hmetadata := hread.metadata
    rw [Metadata.ofJson?_toJson, hdate] at hmetadata
    exact (Option.some.inj hmetadata).symm
  · exact hread.variants.imp fun v w => Variant.Alike.mono fun _ _ _ => CellType.ReadsBack.survives

/-- A load with an infinite power, under an id with quotes and a line break. -/
def infiniteLoad : Store :=
  afterAll [.create "grid" ⟨0, 0, 0⟩,
    .addElement 1 .load (.plain "\"é\"\n") [⟨"p0", .ofDouble Double.infinity⟩]] {}

theorem load_dump_keeps_infiniteLoad : ∃ text t', dump 1 infiniteLoad = .ok text infiniteLoad ∧
    load text infiniteLoad = .ok 2 t' ∧
    ∃ n m, infiniteLoad.network? 1 = some n ∧ t'.network? 2 = some m ∧
      m.metadata = n.metadata ∧
      List.Forall₂ (Variant.Alike CellType.Survives) n.variants m.variants := by
  have hreachable : infiniteLoad.Reachable := reachable_afterAll _
  have hnext : infiniteLoad.next = 2 := by decide +kernel
  have haccepted : (infiniteLoad.network? 1).any (fun n =>
      decide (Instant.parse? n.metadata.caseDate.text = some n.metadata.caseDate) &&
        (Network.ofJson? n.toJson).any fun r => decide (Network.check r.1 r.2 = .ok ())) =
      true := by
    decide +kernel
  obtain ⟨n, hn, haccepted⟩ := (Option.any_eq_true _ _).mp haccepted
  obtain ⟨hdate, haccepted⟩ := Bool.and_eq_true_iff.mp haccepted
  obtain ⟨⟨version, m⟩, hread, hcheck⟩ := (Option.any_eq_true _ _).mp haccepted
  have hm : Network.ofSnapshot n.snapshot = .ok m := Network.ofSnapshot_snapshot_iff.mpr
    ⟨(Network.ofJson?_toJson.mp hread).2, (Network.check_eq_ok_iff.mp (of_decide_eq_true hcheck)).2⟩
  have hdump : dump 1 infiniteLoad = .ok n.snapshot infiniteLoad :=
    dump_eq_ok_iff.mpr ⟨rfl, n, hn, rfl⟩
  have hload : load n.snapshot infiniteLoad = .ok 2 (infiniteLoad.insertNetwork m) :=
    load_eq_ok_iff.mpr ⟨m, hm, hnext.symm, rfl⟩
  obtain ⟨n', m', hn', hm', -, hmetadata, -, -, halike⟩ :=
    load_dump_keeps hreachable hdump hload
  obtain rfl : n' = n := Option.some.inj (hn'.symm.trans hn)
  exact ⟨n'.snapshot, _, hdump, hload, n', m', hn, hm', hmetadata (of_decide_eq_true hdate), halike⟩

/-- A network comes back from its snapshot as it was exactly if its case date is read back from
its printed form, none of its doubles is infinite, and each finite one is what the reader finds in
its shortest digits. -/
theorem load_dump_same_iff (hs : s.Reachable) (ht : t.Reachable)
    (hn : s.network? handle = some n) :
    (∃ text fresh t', dump handle s = .ok text s ∧ load text t = .ok fresh t' ∧
      t'.network? fresh = some n) ↔
    Instant.parse? n.metadata.caseDate.text = some n.metadata.caseDate ∧
      ∀ x ∈ n.doubles, x.isInf = false ∧
        (x.isFinite = true → (Json.ofDouble x).double? = some x) :=
  (exists_load_dump_iff hs ht hn).trans Network.readsBack_self_iff

theorem load_dump_same_exampleRun : ∃ n, (afterAll exampleRun {}).network? 1 = some n ∧
    ∃ text fresh t', dump 1 (afterAll exampleRun {}) = .ok text (afterAll exampleRun {}) ∧
      load text (afterAll exampleRun {}) = .ok fresh t' ∧ t'.network? fresh = some n := by
  have hreachable := reachable_afterAll exampleRun
  have hheld : ((afterAll exampleRun {}).network? 1).any (fun n => decide
      (Instant.parse? n.metadata.caseDate.text = some n.metadata.caseDate ∧
        ∀ x ∈ n.doubles, x.isInf = false ∧
          (x.isFinite = true → (Json.ofDouble x).double? = some x))) = true := by
    decide +kernel
  obtain ⟨n, hn, hdoubles⟩ := (Option.any_eq_true _ _).mp hheld
  exact ⟨n, hn, (load_dump_same_iff hreachable hreachable hn).mpr (of_decide_eq_true hdoubles)⟩

/-- A sample network does not come back as it was: the limits of the reactive power of its second
generator are other doubles afterwards. -/
theorem load_dump_changes_eurostagExample :
    ∃ n, (afterAll [.sample .eurostagExample] {}).network? 1 = some n ∧
      1.79769e306 ∈ n.doubles ∧
      ¬∃ text fresh t', dump 1 (afterAll [.sample .eurostagExample] {}) =
          .ok text (afterAll [.sample .eurostagExample] {}) ∧
        load text (afterAll [.sample .eurostagExample] {}) = .ok fresh t' ∧
        t'.network? fresh = some n := by
  have hreachable := reachable_afterAll [.sample .eurostagExample]
  have hheld : ((afterAll [.sample .eurostagExample] {}).network? 1).any (fun n =>
      n.doubles.any fun x => decide (x = 1.79769e306)) = true := by
    decide +kernel
  have hother : (1.79769e306 : Float).isFinite = true ∧
      (Json.ofDouble 1.79769e306).double? ≠ some 1.79769e306 := by
    decide +kernel
  obtain ⟨n, hn, hlimit⟩ := (Option.any_eq_true _ _).mp hheld
  obtain ⟨x, hx, hlimit⟩ := List.any_eq_true.mp hlimit
  obtain rfl := of_decide_eq_true hlimit
  refine ⟨n, hn, hx, fun hback => ?_⟩
  obtain ⟨-, hdoubles⟩ :=
    Network.readsBack_self_iff.mp ((exists_load_dump_iff hreachable hreachable hn).mp hback)
  exact hother.2 ((hdoubles _ hx).2 hother.1)

end Store

end PowerTables
