import PowerTables.Proofs.Network.Runs

/-!
# Identity of variants and rows

A variant is found by its id and a row by its key, so ids and keys have to be apart.  A key has
a number exactly where its category asks for one.  No operation breaks these rules but the
reading of a snapshot: elements are added under new keys of the right shape, variants are copied
to new ids, and everything else keeps the keys of every table.

## Main definitions

* `RowKey.Suits`, `Category.Keyed` : keys of the shape of a category, and tables of such keys that
  are apart.
* `Network.Identified`, `Store.Identified` : ids and keys are apart in a network, and in all
  networks of a store.
* `Network.keys` : the ids of the variants with the row keys of their tables.

## Main results

* `Store.Operation.identified_after_of_load` : an operation keeps the rules, if the snapshot it
  may read has them.
* `Store.Operation.identified_after` : what the other operations do to ids and keys.
* `Store.identified_afterAll` : only a snapshot can bring in ids or keys that break the rules.
-/

namespace PowerTables

/-! ### Keys of a table -/

/-- A key has a number exactly where a category asks for one. -/
def RowKey.Suits (key : RowKey) (c : Category) : Prop := key.number.isSome = c.hasNumberedRows

instance (key : RowKey) (c : Category) : Decidable (key.Suits c) :=
  inferInstanceAs (Decidable (_ = _))

/-- The keys of some rows are apart and suit a category. -/
structure Category.Keyed (c : Category) (keys : List RowKey) : Prop where
  nodup : keys.Nodup
  suits : ∀ key ∈ keys, key.Suits c

theorem Category.Keyed.append {c : Category} {keys : List RowKey} {key : RowKey}
    (h : c.Keyed keys) (hnew : key ∉ keys) (hkey : key.Suits c) : c.Keyed (keys ++ [key]) := by
  refine ⟨List.nodup_append.mpr ⟨h.nodup, List.nodup_singleton key, ?_⟩, fun key' hkey' => ?_⟩
  · rintro key' hkey' _ hmem rfl
    obtain rfl := List.mem_singleton.mp hmem
    exact hnew hkey'
  · rcases List.mem_append.mp hkey' with hold | hmem
    · exact h.suits key' hold
    · obtain rfl := List.mem_singleton.mp hmem
      exact hkey

/-- Where rows are not numbered, a key is its id. -/
theorem Category.Keyed.eq_plain {c : Category} {keys : List RowKey} (h : c.Keyed keys)
    (hc : c.hasNumberedRows = false) {key : RowKey} (hkey : key ∈ keys) : key = .plain key.id := by
  have hsuits := h.suits key hkey
  obtain ⟨id, number⟩ := key
  obtain rfl : number = none := by simpa [RowKey.Suits, hc] using hsuits
  rfl

theorem Category.suits_of_newRow {c : Category} {key : RowKey} {entries : List Entry}
    {cells : List Cell} (h : c.newRow key entries = .ok cells) : key.Suits c := by
  rw [newRow] at h
  split at h
  · cases h
  next hshape => exact (not_not.mp hshape).symm

theorem Tables.push_eq_ok {ts us : Tables} {c : Category} {key : RowKey} {cells : List Cell} :
    ts.push c key cells = .ok us ↔ ∃ t, (ts c).pushRow key cells = .ok t ∧ ts.set c t = us := by
  rw [push]
  cases (ts c).pushRow key cells <;> simp

/-! ### Keys of a network -/

namespace Network

variable {n m : Network}

/-- The ids of the variants, in order, each with the row keys of its tables. -/
def keys (n : Network) : List (String × (Category → List RowKey)) :=
  n.variants.map fun v => (v.id, fun c => (v.tables c).index)

/-- The ids of the variants are apart, and so are the keys of every table, which suit its
category. -/
structure Identified (n : Network) : Prop where
  ids : n.variantIds.Nodup
  tables : ∀ v ∈ n.variants, ∀ c : Category, c.Keyed (v.tables c).index

theorem map_fst_keys (n : Network) : n.keys.map (·.1) = n.variantIds := by
  rw [keys, List.map_map]
  rfl

/-- Whether ids and keys are apart is told by them alone. -/
theorem identified_iff_keys : n.Identified ↔
    (n.keys.map (·.1)).Nodup ∧ ∀ e ∈ n.keys, ∀ c : Category, c.Keyed (e.2 c) := by
  rw [map_fst_keys]
  constructor
  · intro h
    refine ⟨h.ids, fun e he c => ?_⟩
    obtain ⟨v, hv, rfl⟩ := List.mem_map.mp he
    exact h.tables v hv c
  · rintro ⟨hids, htables⟩
    exact ⟨hids, fun v hv c => htables _ (List.mem_map_of_mem hv) c⟩

theorem Identified.congr (h : n.Identified) (hkeys : m.keys = n.keys) : m.Identified := by
  rw [identified_iff_keys, hkeys, ← identified_iff_keys]
  exact h

/-- Where the ids are apart, the variant found for an id is the only one that has it. -/
theorem variant?_eq_some_iff (hids : n.variantIds.Nodup) {id : String} {v : Variant} :
    n.variant? id = some v ↔ v ∈ n.variants ∧ v.id = id :=
  find?_key_eq_some_iff hids

theorem tables_of_tables? (hids : n.variantIds.Nodup) {ts : Tables} (hts : n.tables? = some ts)
    {v : Variant} (hv : v ∈ n.variants) (hworking : v.id = n.working) : v.tables = ts := by
  rw [tables?, (variant?_eq_some_iff hids).mpr ⟨hv, hworking⟩] at hts
  exact Option.some.inj hts

theorem exists_of_tables? {ts : Tables} (hts : n.tables? = some ts) :
    ∃ v ∈ n.variants, v.tables = ts := by
  obtain ⟨v, hv, rfl⟩ := Option.map_eq_some_iff.mp hts
  exact ⟨v, List.mem_of_find?_eq_some hv, rfl⟩

theorem variants_setTables (hids : n.variantIds.Nodup) (id : String) (ts : Tables) :
    (n.setTables id ts).variants =
      n.variants.map fun v => if v.id = id then { v with tables := ts } else v := by
  ext i : 1
  rw [getElem?_setTables, List.getElem?_map]
  cases hv : n.variants[i]? with
  | none => rfl
  | some v =>
    obtain ⟨hi, rfl⟩ := List.getElem?_eq_some_iff.mp hv
    have hplace : n.variants.findIdx (·.id == id) = i ↔ n.variants[i].id = id := by
      constructor
      · intro hfind
        have hlt : n.variants.findIdx (·.id == id) < n.variants.length := hfind ▸ hi
        have hid := List.findIdx_getElem (w := hlt)
        simpa [hfind] using hid
      · rintro rfl
        have hi' : i < n.variantIds.length := by simpa [variantIds] using hi
        have hfirst := hids.idxOf_getElem i hi'
        rw [← findIdx_variantIds]
        simpa [List.idxOf, variantIds] using hfirst
    simp only [Option.map_some, hplace]

theorem keys_setTables (hids : n.variantIds.Nodup) (id : String) (ts : Tables) :
    (n.setTables id ts).keys =
      n.keys.map fun e => if e.1 = id then (e.1, fun c => (ts c).index) else e := by
  rw [keys, variants_setTables hids, keys, List.map_map, List.map_map]
  refine List.map_congr_left fun v _ => ?_
  by_cases hv : v.id = id
  · simp [hv]
  · simp [hv]

/-- Tables with the same rows leave all keys as they are. -/
theorem keys_setTables_of_sameShape {ts us : Tables} (h : n.tables? = some ts)
    (hshape : Tables.SameShape ts us) : (n.setTables n.working us).keys = n.keys := by
  have hsame : (n.setTables n.working us).keys = (n.setTables n.working ts).keys := by
    rw [keys, keys]
    ext i : 1
    rw [List.getElem?_map, List.getElem?_map, getElem?_setTables, getElem?_setTables,
      Option.map_map, Option.map_map]
    congr 1
    funext v
    by_cases hi : n.variants.findIdx (·.id == n.working) = i
    · simp [hi, (hshape _).index]
    · simp [hi]
  rw [hsame, setTables_tables? h]

theorem keys_changeTables {α : Type} {a : α} {change : Tables → Except NetworkError (α × Tables)}
    (hchange : ∀ ts a us, change ts = .ok (a, us) → Tables.SameShape ts us)
    (hrun : n.changeTables change = .ok (a, m)) : m.keys = n.keys := by
  obtain ⟨ts, us, hts, hus, rfl⟩ := changeTables_eq_ok.mp hrun
  exact keys_setTables_of_sameShape hts (hchange ts a us hus)

theorem keys_updateTables {change : Tables → Except NetworkError Tables}
    (hchange : ∀ ts us, change ts = .ok us → Tables.SameShape ts us)
    (hrun : n.updateTables change = .ok m) : m.keys = n.keys := by
  obtain ⟨ts, us, hts, hus, rfl⟩ := updateTables_eq_ok.mp hrun
  exact keys_setTables_of_sameShape hts (hchange ts us hus)

theorem keys_selectVariant {id : String} (hrun : n.selectVariant id = .ok m) :
    m.keys = n.keys := by
  rw [selectVariant] at hrun
  split at hrun
  · exact Except.ok.inj hrun ▸ rfl
  · cases hrun

/-- What an element that is added does to the keys: its own comes last in its table in the
working variant, and all others stay. -/
theorem keys_add (hids : n.variantIds.Nodup) {e : Element} (hrun : n.add e = .ok m) :
    m.keys = n.keys.map fun entry => (entry.1, fun c =>
      if entry.1 = n.working ∧ c = e.category then entry.2 c ++ [e.key] else entry.2 c) := by
  obtain ⟨cells, -, hrun⟩ := bind_eq_ok.mp hrun
  obtain ⟨ts, us, hts, hpush, rfl⟩ := updateTables_eq_ok.mp hrun
  obtain ⟨t, ht, rfl⟩ := Tables.push_eq_ok.mp hpush
  rw [keys_setTables hids, keys, List.map_map, List.map_map]
  refine List.map_congr_left fun v hv => ?_
  by_cases hworking : v.id = n.working
  · have hold := tables_of_tables? hids hts hv hworking
    suffices hindex : ∀ c, (ts.set e.category t c).index =
        if c = e.category then (ts c).index ++ [e.key] else (ts c).index by
      simp [hworking, hold, hindex]
    intro c
    by_cases hc : c = e.category
    · rw [hc, Tables.set_self, if_pos rfl, (Table.pushRow_spec ht).2.1]
    · rw [Tables.set_of_ne ts t hc, if_neg hc]
  · simp [hworking]

/-! ### Changes of a network -/

theorem identified_new (metadata : Metadata) : (Network.new metadata).Identified := by
  refine ⟨List.nodup_singleton _, fun v hv c => ?_⟩
  obtain rfl := List.mem_singleton.mp hv
  exact ⟨List.nodup_nil, nofun⟩

/-- Tables of keys that are apart can take the place of those of any variant. -/
theorem Identified.setTables (h : n.Identified) (id : String) {ts : Tables}
    (hts : ∀ c : Category, c.Keyed (ts c).index) : (n.setTables id ts).Identified := by
  refine ⟨(variantIds_setTables n id ts).symm ▸ h.ids, fun v hv c => ?_⟩
  rw [variants_setTables h.ids] at hv
  obtain ⟨w, hw, rfl⟩ := List.mem_map.mp hv
  split
  · exact hts c
  · exact h.tables w hw c

theorem Identified.add (h : n.Identified) {e : Element} (hrun : n.add e = .ok m) :
    m.Identified := by
  obtain ⟨cells, hcells, hrun⟩ := bind_eq_ok.mp hrun
  obtain ⟨ts, us, hts, hpush, rfl⟩ := updateTables_eq_ok.mp hrun
  obtain ⟨t, ht, rfl⟩ := Tables.push_eq_ok.mp hpush
  obtain ⟨hnew, hindex, -⟩ := Table.pushRow_spec ht
  obtain ⟨v, hv, rfl⟩ := exists_of_tables? hts
  refine h.setTables n.working fun c => ?_
  by_cases hc : c = e.category
  · subst hc
    rw [Tables.set_self, hindex]
    exact (h.tables v hv _).append hnew (Category.suits_of_newRow hcells)
  · rw [Tables.set_of_ne _ t hc]
    exact h.tables v hv c

theorem Identified.of_ofElements {metadata : Metadata} {elements : List Element}
    (hrun : ofElements metadata elements = .ok n) : n.Identified := by
  rw [ofElements] at hrun
  have hstart := identified_new metadata
  generalize Network.new metadata = start at hrun hstart
  induction elements generalizing start with
  | nil => exact Except.ok.inj hrun ▸ hstart
  | cons e elements ih =>
    obtain ⟨m, hm, hrun⟩ := bind_eq_ok.mp hrun
    exact ih _ hrun (hstart.add hm)

theorem variantIds_selectVariant {id : String} (hrun : n.selectVariant id = .ok m) :
    m.variantIds = n.variantIds := by
  rw [selectVariant] at hrun
  split at hrun
  · exact Except.ok.inj hrun ▸ rfl
  · cases hrun

/-- A copy that does not go to an existing variant is of a new id. -/
theorem nodup_cloneVariant (hids : n.variantIds.Nodup) {source target : String}
    {mayOverwrite : Bool} (hrun : n.cloneVariant source target mayOverwrite = .ok m) :
    m.variantIds.Nodup := by
  rw [Network.cloneVariant] at hrun
  split at hrun
  · cases hrun
  next v hv =>
  split at hrun
  · split at hrun
    · obtain rfl := Except.ok.inj hrun
      rwa [variantIds_setTables]
    · cases hrun
  next htarget =>
  obtain rfl := Except.ok.inj hrun
  have hnew : target ∉ n.variantIds := mt hasVariant_iff.mpr htarget
  rw [variantIds, List.map_append, List.nodup_append]
  refine ⟨hids, List.nodup_singleton _, ?_⟩
  rintro id hid _ hmem rfl
  obtain rfl := List.mem_singleton.mp hmem
  exact hnew hid

theorem nodup_removeVariant (hids : n.variantIds.Nodup) {id : String}
    (hrun : n.removeVariant id = .ok m) : m.variantIds.Nodup := by
  rw [Network.removeVariant] at hrun
  split at hrun
  · cases hrun
  split at hrun
  · cases hrun
  obtain rfl := Except.ok.inj hrun
  exact hids.sublist (List.eraseP_sublist.map _)

theorem Identified.cloneVariant (h : n.Identified) {source target : String}
    {mayOverwrite : Bool} (hrun : n.cloneVariant source target mayOverwrite = .ok m) :
    m.Identified := by
  have hids := nodup_cloneVariant h.ids hrun
  rw [Network.cloneVariant] at hrun
  split at hrun
  · cases hrun
  next v hv =>
  have hsource := h.tables v (List.mem_of_find?_eq_some hv)
  split at hrun
  · split at hrun
    · exact Except.ok.inj hrun ▸ h.setTables target hsource
    · cases hrun
  obtain rfl := Except.ok.inj hrun
  refine ⟨hids, fun w hw c => ?_⟩
  rcases List.mem_append.mp hw with hw | hw
  · exact h.tables w hw c
  · obtain rfl := List.mem_singleton.mp hw
    exact hsource c

theorem Identified.removeVariant (h : n.Identified) {id : String}
    (hrun : n.removeVariant id = .ok m) : m.Identified := by
  have hids := nodup_removeVariant h.ids hrun
  rw [Network.removeVariant] at hrun
  split at hrun
  · cases hrun
  split at hrun
  · cases hrun
  obtain rfl := Except.ok.inj hrun
  exact ⟨hids, fun v hv => h.tables v (List.mem_of_mem_eraseP hv)⟩

end Network

/-! ### Stores -/

namespace Store

variable {s : Store}

/-- In every network of a store, ids and keys are apart. -/
def Identified (s : Store) : Prop :=
  ∀ handle n, s.network? handle = some n → n.Identified

/-- The operations that write cells, move a switch, connect an element or select a variant. -/
def Operation.KeepsKeys : Operation → Prop
  | .write _ _ _ _ _ | .setSwitch _ _ _ | .setConnected _ _ _ | .selectVariant _ _ => True
  | _ => False

namespace Operation

theorem keys_result {op : Operation} (hop : op.KeepsKeys) {n m : Network}
    (h : op.result n = .ok m) : m.keys = n.keys := by
  cases op with
  | write handle c column keys batch =>
    obtain ⟨cells, -, h⟩ := bind_eq_ok.mp h
    exact Network.keys_updateTables (fun _ _ => Tables.sameShape_write) h
  | setSwitch handle id isOpen =>
    obtain ⟨⟨changed, m⟩, hrun, rfl⟩ := map_eq_ok.mp h
    exact Network.keys_changeTables (fun _ _ _ => Tables.sameShape_setSwitch) hrun
  | setConnected handle id connected =>
    obtain ⟨⟨changed, m⟩, hrun, rfl⟩ := map_eq_ok.mp h
    exact Network.keys_changeTables (fun _ _ _ => Tables.sameShape_setConnected) hrun
  | selectVariant handle id => exact Network.keys_selectVariant h
  | _ => exact hop.elim

theorem identified_result {op : Operation} {n m : Network} (hn : n.Identified)
    (h : op.result n = .ok m) : m.Identified := by
  by_cases hop : op.KeepsKeys
  · exact hn.congr (keys_result hop h)
  cases op with
  | create | load | sample | release => exact Except.ok.inj h ▸ hn
  | setMetadata handle metadata => exact Except.ok.inj h ▸ ⟨hn.ids, hn.tables⟩
  | addElement handle c key entries => exact hn.add h
  | cloneVariant handle source target mayOverwrite => exact hn.cloneVariant h
  | removeVariant handle id => exact hn.removeVariant h
  | write | setSwitch | setConnected | selectVariant => exact absurd trivial hop

/-- An operation keeps ids and keys apart, if they are apart in the snapshot it may read. -/
theorem identified_after_of_load {op : Operation} (hs : s.Identified)
    (hload : ∀ text n, op = .load text → Network.ofSnapshot text = .ok n → n.Identified) :
    (op.after s).Identified := by
  intro handle m hm
  rcases op.network?_after_cases s handle with
    hsame | ⟨-, n, m', hn, hresult, hafter⟩ | ⟨n, hincoming, -, hafter⟩ | ⟨-, hgone⟩
  · exact hs handle m (hsame ▸ hm)
  · obtain rfl := Option.some.inj (hafter.symm.trans hm)
    exact identified_result (hs handle n hn) hresult
  · obtain rfl := Option.some.inj (hafter.symm.trans hm)
    cases op with
    | create id now => exact Option.some.inj hincoming ▸ Network.identified_new _
    | load text =>
      exact hload text _ rfl (toOption_eq_some_iff.mp hincoming)
    | sample which => exact .of_ofElements (toOption_eq_some_iff.mp hincoming)
    | _ => cases hincoming
  · cases hgone.symm.trans hm

theorem keys_network?_after {op : Operation} (hop : op.KeepsKeys) (s : Store) (handle : Nat) :
    ((op.after s).network? handle).map Network.keys =
      (s.network? handle).map Network.keys := by
  rcases op.network?_after_cases s handle with
    hsame | ⟨-, n, m, hn, hresult, hafter⟩ | ⟨n, hincoming, -⟩ | ⟨rfl, -⟩
  · rw [hsame]
  · rw [hn, hafter, Option.map_some, Option.map_some, keys_result hop hresult]
  · cases op with
    | create | load | sample => exact hop.elim
    | _ => cases hincoming
  · exact hop.elim

/-- Where ids and keys are apart, every operation but the reading of a snapshot keeps them so.
Writes, toggles and the choice of a variant leave all keys as they are.  An element that is added
has its key at the end of its table in the working variant, and no other key is touched. -/
theorem identified_after (op : Operation) (hop : ∀ text, op ≠ .load text) (hs : s.Identified) :
    (op.after s).Identified ∧
      (op.KeepsKeys → ∀ handle, ((op.after s).network? handle).map Network.keys =
        (s.network? handle).map Network.keys) ∧
      ∀ handle c key entries, op = .addElement handle c key entries →
        if succeeds op.run s then
          (∀ other ≠ handle, (op.after s).network? other = s.network? other) ∧
          ∃ n m, s.network? handle = some n ∧ (op.after s).network? handle = some m ∧
            m.keys = n.keys.map fun variant => (variant.1, fun d =>
              if variant.1 = n.working ∧ d = c then variant.2 d ++ [key] else variant.2 d)
        else op.after s = s := by
  refine ⟨identified_after_of_load hs fun text n hload => absurd hload (hop text),
    fun hkeeps => keys_network?_after hkeeps s, ?_⟩
  rintro handle c key entries rfl
  have hreplaces : Replaces (Operation.addElement handle c key entries).run handle
      (Operation.addElement handle c key entries).result s := Operation.replaces rfl s
  rcases hreplaces with ⟨n, m, a, hn, hm, hrun⟩ | ⟨⟨e, hrun⟩, -⟩
  · rw [if_pos (by rw [succeeds, hrun]), Operation.after, stateAfter_ok hrun]
    exact ⟨fun other hother => network?_setNetwork_of_ne s hother m, n, m, hn,
      network?_setNetwork_self hn m, Network.keys_add (hs handle n hn).ids hm⟩
  · rw [if_neg (by simp [succeeds, hrun]), Operation.after, stateAfter_error hrun]

end Operation

/-- After a run, ids and keys are apart if they were so before and in every snapshot that was
read. -/
theorem identified_afterAll (ops : List Operation) (hs : s.Identified)
    (hload : ∀ text n, .load text ∈ ops → Network.ofSnapshot text = .ok n → n.Identified) :
    (afterAll ops s).Identified := by
  induction ops using List.reverseRecOn with
  | nil => exact hs
  | append_singleton ops op ih =>
    rw [afterAll_append_singleton]
    refine Operation.identified_after_of_load
      (ih fun text n hmem => hload text n (List.mem_append_left _ hmem)) ?_
    rintro text n rfl
    exact hload text n (by simp)

theorem identified_empty : Store.Identified {} := fun _ _ => nofun

/-- A store with one network of one load, which is in two variants. -/
def oneLoad : Store :=
  afterAll [.create "grid" ⟨0, 0, 0⟩, .addElement 1 .load (.plain "L1") [],
    .cloneVariant 1 Network.initialVariant "copy" false] {}

theorem identified_oneLoad : oneLoad.Identified :=
  identified_afterAll _ identified_empty (by simp)

/-- A second load comes after the first one, in the working variant only. -/
theorem identified_after_secondLoad :
    ((Operation.addElement 1 .load (.plain "L2") []).after oneLoad).Identified ∧
      (((Operation.addElement 1 .load (.plain "L2") []).after oneLoad).network? 1).map
          (fun n => n.keys.map fun variant => (variant.1, variant.2 .load)) =
        some [(Network.initialVariant, [.plain "L1", .plain "L2"]), ("copy", [.plain "L1"])] := by
  have hbefore : (oneLoad.network? 1).map
      (fun n => (n.working, n.keys.map fun variant => (variant.1, variant.2 .load))) =
        some (Network.initialVariant,
          [(Network.initialVariant, [.plain "L1"]), ("copy", [.plain "L1"])]) := by
    decide +kernel
  obtain ⟨hidentified, -, hadd⟩ := Operation.identified_after
    (.addElement 1 .load (.plain "L2") []) nofun identified_oneLoad
  refine ⟨hidentified, ?_⟩
  have hadded := hadd 1 .load (.plain "L2") [] rfl
  rw [if_pos (by decide +kernel)] at hadded
  obtain ⟨-, n, m, hn, hm, hkeys⟩ := hadded
  rw [hn, Option.map_some, Option.some_inj, Prod.mk.injEq] at hbefore
  obtain ⟨hworking, hloads⟩ := hbefore
  have hstep : m.keys.map (fun variant => (variant.1, variant.2 .load)) =
      (n.keys.map fun variant => (variant.1, variant.2 .load)).map fun variant =>
        (variant.1, if variant.1 = n.working then variant.2 ++ [.plain "L2"] else variant.2) := by
    rw [hkeys, List.map_map, List.map_map]
    simp [Function.comp_def]
  rw [hm, Option.map_some, hstep, hloads, hworking]
  rfl

end Store

end PowerTables
