import PowerTables.Proofs.Network.RoundTrip
import PowerTables.Proofs.Program.Opening
import PowerTables.Proofs.Session.Assignments

/-!
# Runs that assign values

A run that assigns values opens a network, goes to the variant that it is given, writes the
assignments column by column and saves the network as it is then.  So it changes no more than the
assigned cells, but the given variant stays the working one; and where the nominal voltage of a row
is assigned along with a value that is converted at it, the order of the assignments counts.

## Main definitions

* `SessionState.left?` : the network that some assignments leave.
* `Network.SameButAssigned` : only assigned cells of one variant differ.

## Main results

* `Program.ends_update` : what a run that succeeds leaves.
* `Program.update_changes` : what differs from the network that was opened.
* `Program.update_order_iff` : when the order of the assignments does not count.
-/

namespace PowerTables

open Session SessionState

variable {fs fs' : Files} {c : Category} {as : List Assignment} {s s' : SessionState}

/-! ### What a session leaves -/

/-- The network that a session has after some assignments, if they succeed. -/
def SessionState.left? (c : Category) (as : List Assignment) (s : SessionState) :
    Option Network :=
  match updateTables c c.schema as with
  | .error _ => none
  | .ok tables =>
    match tables.forM (Session.update c) s with
    | .error _ _ => none
    | .ok _ s' => s'.store.network? s'.session.handle

theorem SessionState.left?_eq_some_iff {m : Network} : s.left? c as = some m ↔
    ∃ s', Assigns c as s s' ∧ s'.store.network? s'.session.handle = some m := by
  rw [left?]
  constructor
  · intro h
    cases htables : updateTables c c.schema as with
    | error e =>
      rw [htables] at h
      cases h
    | ok tables =>
      rw [htables] at h
      dsimp only at h
      cases hrun : tables.forM (Session.update c) s with
      | error e s' =>
        rw [hrun] at h
        cases h
      | ok _ s' =>
        rw [hrun] at h
        exact ⟨s', ⟨tables, htables, hrun⟩, h⟩
  · rintro ⟨s', ⟨tables, htables, hrun⟩, hm⟩
    rw [htables]
    dsimp only
    rw [hrun]
    exact hm

/-- Networks that are the same but for cells that are assigned in one of the variants. -/
structure Network.SameButAssigned (c : Category) (as : List Assignment) (id : String)
    (n m : Network) : Prop where
  metadata : m.metadata = n.metadata
  variantIds : m.variantIds = n.variantIds
  others : ∀ (i : Nat) (v w : Variant), n.variants[i]? = some v → m.variants[i]? = some w →
    ∀ d, d ≠ c ∨ i ≠ n.variantIds.idxOf id → w.tables d = v.tables d
  shape : ∀ v w, n.variant? id = some v → m.variant? id = some w →
    Table.SameShape (v.tables c) (w.tables c)
  cells : ∀ v w, n.variant? id = some v → m.variant? id = some w →
    ∀ p name, (w.tables c).cellAt? p name ≠ (v.tables c).cellAt? p name →
      ∃ a ∈ as, a.column = name ∧ (v.tables c).index[p]? = some a.key

/-- The tables of a session are those of the variant that its network works in. -/
theorem SessionState.tables_of_variant? {m : Network} {w : Variant}
    (hm : s.store.network? s.session.handle = some m) (hw : m.variant? m.working = some w) :
    s.tables = w.tables := by
  have htables : m.tables? = some w.tables := congrArg (Option.map _) hw
  rw [SessionState.tables, hm, Option.bind_some, htables, Option.getD_some]

/-- Of the network, assignments change what they name in the working variant. -/
theorem SessionState.sameButAssigned_of_left? {n m : Network} {variant : Option String}
    {ctx : PerUnitContext} (hn : (n.inVariant variant).WellFormed)
    (h : (opened (n.inVariant variant) ctx).left? c as = some m) :
    n.SameButAssigned c as (variant.getD n.working) m ∧
      m.working = variant.getD n.working := by
  obtain ⟨s', hassigns, hm⟩ := left?_eq_some_iff.mp h
  have hs := wellFormed_opened hn ctx
  have hrewrites := rewrites_of_assigns hs hassigns
  have hstore := hrewrites.changes.store
  rw [hrewrites.tables_eq] at hstore
  obtain ⟨-, ⟨n', m', hn', hm', hsame⟩, -, -, -⟩ :=
    sameBut_setTables hs hrewrites.changes.handle hstore
  obtain rfl := Option.some.inj ((network?_opened _ ctx).symm.trans hn')
  rw [← hrewrites.changes.handle, hm] at hm'
  obtain rfl := Option.some.inj hm'
  have hbefore {v : Variant} (hv : n.variant? (variant.getD n.working) = some v) :
      (opened (n.inVariant variant) ctx).tables = v.tables :=
    tables_of_variant? (network?_opened _ ctx) hv
  have hafter {w : Variant} (hw : m.variant? (variant.getD n.working) = some w) :
      s'.tables = w.tables :=
    tables_of_variant? hm ((congrArg m.variant? hsame.working).trans hw)
  refine ⟨⟨hsame.metadata, hsame.variantIds, hsame.tables, fun v w hv hw => ?_,
    fun v w hv hw p name hne => ?_⟩, hsame.working⟩
  · rw [← hbefore hv, ← hafter hw]
    exact hrewrites.shape
  · rw [← hbefore hv, ← hafter hw] at hne
    obtain ⟨assigned, hiff, hcell⟩ := cellAt?_of_assigns hs hassigns p name
    cases hassigned : assigned with
    | none =>
      rw [hassigned, Option.none_or] at hcell
      exact absurd hcell hne
    | some cell =>
      obtain ⟨-, -, a, ha, hname, hp, -⟩ := (hiff cell).mp hassigned
      exact ⟨a, ha, hname, hbefore hv ▸ Table.position?_eq_some hp⟩

/-- The double of an element in the working variant. -/
def Network.double? (n : Network) (c : Category) (id name : String) : Option Float :=
  n.tables?.bind fun tables => (tables c).double? id name

namespace Session

/-- A reading leaves the network as it is. -/
theorem network_of_elements (hs : s.WellFormed) {t : Table} (h : elements c s = .ok t s') :
    s'.store = s.store ∧ s'.session.handle = s.session.handle := by
  cases hon : s.session.perUnit.enabled with
  | true =>
    obtain ⟨report, hrun⟩ := elements_run hs hon c
    cases hrun.symm.trans h
    exact ⟨rfl, rfl⟩
  | false =>
    cases (elements_off hs hon c).symm.trans h
    exact ⟨rfl, rfl⟩

theorem network_of_dump {text : String} (h : dump s = .ok text s') :
    ∃ m, s.store.network? s.session.handle = some m ∧ text = m.snapshot := by
  rw [dump, onNetwork_run] at h
  cases hdump : Store.dump s.session.handle s.store with
  | error e store =>
    rw [hdump] at h
    cases h
  | ok snapshot store =>
    rw [hdump] at h
    cases h
    obtain ⟨-, m, hm, hsnapshot⟩ := Store.dump_eq_ok_iff.mp hdump
    exact ⟨m, hm, hsnapshot.symm⟩

end Session

namespace Program

/-- An update that succeeds leaves what its assignments leave in the given variant, and writes that
where a path is given. -/
theorem ends_update {source category : String} {texts : List String}
    {variant output : Option String} {settings : Settings}
    (h : Ends (update source category texts variant output settings) fs (.ok ()) fs') :
    ∃ c as n m, Category.parse? category = some c ∧
      texts.mapM Assignment.parse = .ok as ∧
      (NetworkSource.ofText source).network? fs = some n ∧
      (∀ id ∈ variant, n.hasVariant id = true) ∧
      (opened (n.inVariant variant) ⟨settings.powerBase, settings.perUnit⟩).left? c as = some m ∧
      ∀ path ∈ output, fs'.content path = .ok m.snapshot := by
  rw [update] at h
  obtain ⟨c, fs₁, hcategory, h₁⟩ := ends_bind_ok h
  obtain ⟨hc, rfl⟩ := ends_categoryOf_ok hcategory
  obtain ⟨as, fs₂, hread, h₂⟩ := ends_bind_ok h₁
  obtain ⟨has, rfl⟩ := ends_ofResult_ok hread
  obtain ⟨state, fs₃, hopen, h₃⟩ := ends_bind_ok h₂
  obtain ⟨rfl, n, hn, rfl⟩ := ends_openNetwork hopen
  obtain ⟨⟨_, chosen⟩, fs₄, hchoose, h₄⟩ := ends_bind_ok h₃
  obtain ⟨hchosen, rfl⟩ := ends_inSession_ok hchoose
  obtain ⟨hvariant, rfl⟩ := useVariant_opened hchosen
  obtain ⟨tables, fs₅, hgroup, h₅⟩ := ends_bind_ok h₄
  obtain ⟨htables, rfl⟩ := ends_ofResult_ok hgroup
  obtain ⟨⟨t, last⟩, fs₆, hwrite, h₆⟩ := ends_bind_ok h₅
  obtain ⟨hwritten, rfl⟩ := ends_inSession_ok hwrite
  obtain ⟨part, fs₇, hpart, h₇⟩ := ends_bind_ok h₆
  obtain ⟨-, rfl⟩ := ends_ofResult_ok hpart
  obtain ⟨_, fs₈, hprint, h₈⟩ := ends_bind_ok h₇
  obtain ⟨-, rfl⟩ := ends_print hprint
  have hwf := wellFormed_opened ((NetworkSource.wellFormed_of_network? hn).inVariant hvariant)
    ⟨settings.powerBase, settings.perUnit⟩
  obtain ⟨s', hassigns, hread⟩ : ∃ s', Assigns c as (opened (n.inVariant variant)
      ⟨settings.powerBase, settings.perUnit⟩) s' ∧ elements c s' = .ok t last := by
    cases hrun : tables.forM (Session.update c) (opened (n.inVariant variant)
        ⟨settings.powerBase, settings.perUnit⟩) with
    | error e s' => cases (run_bind_of_error hrun).symm.trans hwritten
    | ok _ s' => exact ⟨s', ⟨tables, htables, hrun⟩, (run_bind_of_ok hrun).symm.trans hwritten⟩
  have hs' := (rewrites_of_assigns hwf hassigns).wellFormed
  obtain ⟨hstore, hhandle⟩ := network_of_elements hs' hread
  obtain ⟨m, hm⟩ := Option.isSome_iff_exists.mp hs'.network
  refine ⟨c, as, n, m, hc, has, hn, hvariant,
    left?_eq_some_iff.mpr ⟨s', hassigns, hm⟩, ?_⟩
  intro path hpath
  obtain rfl : output = some path := hpath
  rcases ends_saveNetwork h₈ with ⟨-, text, s'', hdump, hsave⟩ | ⟨⟨_, hr⟩, -⟩
  · obtain ⟨m', hm', rfl⟩ := network_of_dump hdump
    rw [hstore, hhandle, hm] at hm'
    obtain rfl := Option.some.inj hm'
    exact Files.content_of_save hsave
  · cases hr

/-! ### A network in two variants -/

/-- A network of one substation in two variants, of which the first one is worked in. -/
def twoVariants : Network :=
  let tables := Tables.empty.set .substation ⟨[.plain "S"],
    [⟨"name", .string, [""]⟩, ⟨"TSO", .string, ["RTE"]⟩, ⟨"geo_tags", .string, [""]⟩,
      ⟨"country", .string, ["FR"]⟩]⟩
  ⟨Network.plainMetadata "grid" ⟨0, 0, 0⟩, "day", [⟨"day", tables⟩, ⟨"night", tables⟩]⟩

/-- A folder with one file. -/
def fileOf (text : String) : Files := ⟨[], [], [(["grid.json"], text)]⟩

theorem network?_fileOf {text : String} {n : Network} (h : Network.ofSnapshot text = .ok n) :
    (NetworkSource.ofText "grid.json").network? (fileOf text) = some n := by
  have hsource : NetworkSource.ofText "grid.json" = .snapshot "grid.json" := rfl
  have hplace : (fileOf text).locate "grid.json" = .ok ["grid.json"] := rfl
  have hcontent : (fileOf text).content "grid.json" = .ok text := by
    rw [Files.content, hplace]
    rfl
  rw [hsource, NetworkSource.network?, hcontent]
  exact toOption_eq_some_iff.mpr h

/-- The file of the network with two variants. -/
def savedVariants : Files := fileOf twoVariants.snapshot

theorem network?_savedVariants :
    (NetworkSource.ofText "grid.json").network? savedVariants = some twoVariants := by
  have hself : twoVariants.ReadsBack twoVariants :=
    Network.readsBack_self_iff.mpr ⟨by decide +kernel, by decide +kernel⟩
  have hcheck : Network.check Network.snapshotVersion twoVariants = .ok () := by decide +kernel
  exact network?_fileOf
    (Network.ofSnapshot_snapshot_iff.mpr ⟨hself, (Network.check_eq_ok_iff.mp hcheck).2⟩)

/-- The country of the substation, in the variant that is not worked in. -/
theorem ends_update_savedVariants : ∃ fs', Ends (update "grid.json" "substation" ["S.country=BE"]
    (some "night") (some "left.json") {}) savedVariants (.ok ()) fs' := by
  have hcategory : runOn (categoryOf "substation") {} savedVariants =
    ((.ok .substation, {}), savedVariants) := rfl
  have hread : runOn (ofResult .assignment (["S.country=BE"].mapM Assignment.parse)) {}
    savedVariants = ((.ok [⟨.plain "S", "country", "BE"⟩], {}), savedVariants) := rfl
  have hopen := runOn_openNetwork {} network?_savedVariants (by decide +kernel) {}
  refine ⟨_, ends_of_isOk _ {} _ ?_⟩
  rw [update, runOn_bind_of_ok hcategory, runOn_bind_of_ok hread, runOn_bind_of_ok hopen]
  decide +kernel

/-! ### What an update changes -/

/-- An update that is written changes the assigned cells of one variant only, and the variant that
it is given becomes the working one: so the network works in the variant of before exactly if no
other one is given. -/
theorem update_changes {source category path : String} {texts : List String}
    {variant : Option String} {settings : Settings}
    (h : Ends (update source category texts variant (some path) settings) fs (.ok ()) fs') :
    ∃ c as n m, Category.parse? category = some c ∧
      texts.mapM Assignment.parse = .ok as ∧
      (NetworkSource.ofText source).network? fs = some n ∧
      fs'.content path = .ok m.snapshot ∧
      n.SameButAssigned c as (variant.getD n.working) m ∧
      (m.working = n.working ↔ ∀ id ∈ variant, id = n.working) := by
  obtain ⟨c, as, n, m, hc, has, hn, hvariant, hleft, hsaved⟩ := ends_update h
  have hwf := (NetworkSource.wellFormed_of_network? hn).inVariant hvariant
  obtain ⟨hsame, hworking⟩ := sameButAssigned_of_left? hwf hleft
  refine ⟨c, as, n, m, hc, has, hn, hsaved path rfl, hsame, ?_⟩
  rw [hworking]
  cases variant with
  | none => exact iff_of_true rfl nofun
  | some id => simp

theorem update_changes_savedVariants : ∃ (fs' : Files) (m : Network),
    Ends (update "grid.json" "substation" ["S.country=BE"] (some "night") (some "left.json") {})
      savedVariants (.ok ()) fs' ∧
    fs'.content "left.json" = .ok m.snapshot ∧
    twoVariants.SameButAssigned .substation [⟨.plain "S", "country", "BE"⟩] "night" m ∧
    m.working ≠ twoVariants.working := by
  obtain ⟨fs', hends⟩ := ends_update_savedVariants
  obtain ⟨c, as, n, m, hc, has, hn, hsaved, hsame, hworking⟩ := update_changes hends
  obtain rfl : .substation = c := Option.some.inj hc
  obtain rfl : [⟨.plain "S", "country", "BE"⟩] = as := Except.ok.inj has
  obtain rfl := Option.some.inj (network?_savedVariants.symm.trans hn)
  refine ⟨fs', m, hends, hsaved, hsame, fun heq => ?_⟩
  exact absurd (hworking.mp heq "night" rfl) (by decide)

/-- The network that is saved works in the variant that was only to be changed. -/
theorem update_leaves_night : ∃ (fs' : Files) (m : Network),
    Ends (update "grid.json" "substation" ["S.country=BE"] (some "night") (some "left.json") {})
      savedVariants (.ok ()) fs' ∧
    (NetworkSource.ofText "grid.json").network? savedVariants = some twoVariants ∧
    fs'.content "left.json" = .ok m.snapshot ∧
    twoVariants.working = "day" ∧ m.working = "night" := by
  obtain ⟨fs', hends⟩ := ends_update_savedVariants
  obtain ⟨c, as, n, m, -, -, hn, hvariant, hleft, hsaved⟩ := ends_update hends
  have hwf := (NetworkSource.wellFormed_of_network? hn).inVariant hvariant
  exact ⟨fs', m, hends, network?_savedVariants, hsaved _ rfl, rfl,
    (sameButAssigned_of_left? hwf hleft).2⟩

/-! ### The order of the assignments -/

/-- A double that an update writes to a file is the one that its assignments leave. -/
theorem double?_of_update {source category path : String} {texts : List String}
    {settings : Settings} (c : Category) (id name : String) (x : Float)
    (h : Ends (update source category texts none (some path) settings) fs (.ok ()) fs')
    (hc : Category.parse? category = some c) (has : texts.mapM Assignment.parse = .ok as)
    (hx : ((NetworkSource.ofText source).network? fs).bind (fun n =>
      ((opened (n.inVariant none) ⟨settings.powerBase, settings.perUnit⟩).left? c as).bind
        (·.double? c id name)) = some x) :
    ∃ m : Network, fs'.content path = .ok m.snapshot ∧ m.double? c id name = some x := by
  obtain ⟨c', as', n, m, hc', has', hn, -, hleft, hsaved⟩ := ends_update h
  obtain rfl := Option.some.inj (hc'.symm.trans hc)
  obtain rfl := Except.ok.inj (has'.symm.trans has)
  rw [hn, Option.bind_some, hleft, Option.bind_some] at hx
  exact ⟨m, hsaved path rfl, hx⟩

/-- Two updates with the same assignments in another order, on the same files, leave the same
network if and only if each value is converted to the same one in both. -/
theorem update_order_iff {source category : String} {texts texts' : List String}
    {variant output output' : Option String} {settings : Settings} {fs₁ fs₂ : Files}
    (hperm : texts.Perm texts')
    (h : Ends (update source category texts variant output settings) fs (.ok ()) fs₁)
    (h' : Ends (update source category texts' variant output' settings) fs (.ok ()) fs₂) :
    ∃ c as bs n m m', Category.parse? category = some c ∧
      texts.mapM Assignment.parse = .ok as ∧ texts'.mapM Assignment.parse = .ok bs ∧
      (NetworkSource.ofText source).network? fs = some n ∧
      (opened (n.inVariant variant) ⟨settings.powerBase, settings.perUnit⟩).left? c as = some m ∧
      (opened (n.inVariant variant) ⟨settings.powerBase, settings.perUnit⟩).left? c bs = some m' ∧
      (∀ path ∈ output, fs₁.content path = .ok m.snapshot) ∧
      (∀ path ∈ output', fs₂.content path = .ok m'.snapshot) ∧
      (m' = m ↔ (opened (n.inVariant variant)
        ⟨settings.powerBase, settings.perUnit⟩).ConvertsAlike c as bs) := by
  obtain ⟨c, as, n, m, hc, has, hn, hvariant, hleft, hsaved⟩ := ends_update h
  obtain ⟨c', bs, n', m', hc', hbs, hn', -, hleft', hsaved'⟩ := ends_update h'
  obtain rfl := Option.some.inj (hc'.symm.trans hc)
  obtain rfl := Option.some.inj (hn'.symm.trans hn)
  have hwf := wellFormed_opened ((NetworkSource.wellFormed_of_network? hn).inVariant hvariant)
    ⟨settings.powerBase, settings.perUnit⟩
  refine ⟨_, as, bs, _, m, m', hc, has, hbs, hn, hleft, hleft', hsaved, hsaved', ?_⟩
  obtain ⟨s₁, hassigns, hm⟩ := left?_eq_some_iff.mp hleft
  obtain ⟨s₂, hassigns', hm'⟩ := left?_eq_some_iff.mp hleft'
  exact network_eq_iff_convertsAlike hwf (perm_of_parse hperm has hbs) hassigns hassigns' hm hm'

/-- The reactive target of a generator and its target voltage, in per-unit and in either order. -/
theorem update_order_targets : ∃ fs₁ fs₂ m,
    Ends (update "dangling_line" "generator" ["G.target_q=0.3", "G.target_v=1.01"] none
      (some "a.json") { perUnit := true }) {} (.ok ()) fs₁ ∧
    Ends (update "dangling_line" "generator" ["G.target_v=1.01", "G.target_q=0.3"] none
      (some "a.json") { perUnit := true }) {} (.ok ()) fs₂ ∧
    fs₁.content "a.json" = .ok (Network.snapshot m) ∧ fs₂.content "a.json" = .ok m.snapshot := by
  have h := ends_of_isOk (update "dangling_line" "generator"
    ["G.target_q=0.3", "G.target_v=1.01"] none (some "a.json") { perUnit := true })
    {} {} (by decide +kernel)
  have h' := ends_of_isOk (update "dangling_line" "generator"
    ["G.target_v=1.01", "G.target_q=0.3"] none (some "a.json") { perUnit := true })
    {} {} (by decide +kernel)
  obtain ⟨c, as, bs, n, m, m', hc, has, hbs, -, -, -, hsaved, hsaved', hiff⟩ :=
    update_order_iff (.swap _ _ []) h h'
  obtain rfl : .generator = c := Option.some.inj hc
  have hsources : ∀ rule ∈ Category.rules .generator, ∀ name, rule.source ≠ .rowColumn name := by
    simp [Category.rules, ConversionRule.power, ConversionRule.atLevel]
  obtain rfl := hiff.mpr (convertsAlike_of_notMem _ (perm_of_parse (.swap _ _ []) has hbs)
    (fun rule hrule name hsource => absurd hsource (hsources rule hrule name)))
  exact ⟨_, _, m', h, h', hsaved _ rfl, hsaved' _ rfl⟩

/-- The nominal voltage of a voltage level and a limit, in per-unit: the limit is converted at the
new voltage in one order and at the old one in the other. -/
theorem update_order_limit : ∃ (fs₁ fs₂ : Files) (m m' : Network),
    Ends (update "dangling_line" "voltage_level" ["VL.nominal_v=200", "VL.high_voltage_limit=1.1"]
      none (some "a.json") { perUnit := true }) {} (.ok ()) fs₁ ∧
    Ends (update "dangling_line" "voltage_level" ["VL.high_voltage_limit=1.1", "VL.nominal_v=200"]
      none (some "a.json") { perUnit := true }) {} (.ok ()) fs₂ ∧
    fs₁.content "a.json" = .ok m.snapshot ∧ fs₂.content "a.json" = .ok m'.snapshot ∧
    m.double? .voltageLevel "VL" "high_voltage_limit" = some (1.1 * 200.0) ∧
    m'.double? .voltageLevel "VL" "high_voltage_limit" = some (1.1 * 100.0) ∧
    (1.1 : Float) * 200.0 ≠ 1.1 * 100.0 := by
  have h := ends_of_isOk (update "dangling_line" "voltage_level"
    ["VL.nominal_v=200", "VL.high_voltage_limit=1.1"] none (some "a.json") { perUnit := true })
    {} {} (by decide +kernel)
  have h' := ends_of_isOk (update "dangling_line" "voltage_level"
    ["VL.high_voltage_limit=1.1", "VL.nominal_v=200"] none (some "a.json") { perUnit := true })
    {} {} (by decide +kernel)
  obtain ⟨m, hm, hlimit⟩ := double?_of_update .voltageLevel "VL" "high_voltage_limit"
    (1.1 * 200.0) h rfl rfl (by decide +kernel)
  obtain ⟨m', hm', hlimit'⟩ := double?_of_update .voltageLevel "VL" "high_voltage_limit"
    (1.1 * 100.0) h' rfl rfl (by decide +kernel)
  exact ⟨_, _, m, m', h, h', hm, hm', hlimit, hlimit', by decide +kernel⟩

end Program

end PowerTables
