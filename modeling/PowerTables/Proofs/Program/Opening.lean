import PowerTables.Proofs.Program.Steps
import PowerTables.Proofs.Session.Physical
import PowerTables.Proofs.Session.Variants

/-!
# Networks that are opened for a run

A run opens its network in a store of its own: the network of a sample, or the one of a snapshot
file.  The session is the first of that store and takes the per-unit settings of the run.

## Main definitions

* `NetworkSource.network?` : the network that a source gives.
* `SessionState.opened` : the session with a network in a store of its own.
* `Network.inVariant` : a network with another working variant.

## Main results

* `Program.ends_openNetwork` : how opening ends.
* `Program.runOn_openNetwork` : where it succeeds.
* `Program.useVariant_opened` : the work in a variant.
-/

namespace PowerTables

/-- The network that a source gives, among some files. -/
def NetworkSource.network? (fs : Files) : NetworkSource → Option Network
  | .sample s => s.network.toOption
  | .snapshot path =>
    (fs.content path).toOption.bind fun text => (Network.ofSnapshot text).toOption

theorem NetworkSource.wellFormed_of_network? {source : NetworkSource} {fs : Files} {n : Network}
    (h : source.network? fs = some n) : n.WellFormed := by
  cases source with
  | sample s => exact .of_ofElements (toOption_eq_some_iff.mp h)
  | snapshot path =>
    obtain ⟨text, -, hn⟩ := Option.bind_eq_some_iff.mp h
    exact .of_ofSnapshot (toOption_eq_some_iff.mp hn)

/-- The network with another working variant, if one is given. -/
def Network.inVariant (n : Network) (variant : Option String) : Network :=
  { n with working := variant.getD n.working }

theorem Network.WellFormed.inVariant {n : Network} (hn : n.WellFormed) {variant : Option String}
    (h : ∀ id ∈ variant, n.hasVariant id = true) : (n.inVariant variant).WellFormed := by
  cases variant with
  | none => exact hn
  | some id => exact ⟨h id rfl, hn.tables⟩

/-- A session with a network that is the only one of its store. -/
def SessionState.opened (n : Network) (ctx : PerUnitContext) : SessionState :=
  ⟨{ handle := 1, perUnit := ctx }, ({} : Store).insertNetwork n⟩

namespace SessionState

variable {n : Network} {ctx : PerUnitContext}

theorem network?_opened (n : Network) (ctx : PerUnitContext) :
    (opened n ctx).store.network? (opened n ctx).session.handle = some n := rfl

theorem wellFormed_opened (hn : n.WellFormed) (ctx : PerUnitContext) : (opened n ctx).WellFormed :=
  ⟨(Store.evolves_insertNetwork {} hn).wellFormed Store.wellFormed_empty,
    by rw [network?_opened, Option.isSome_some]⟩

end SessionState

namespace Program

open SessionState

variable {fs fs' : Files}

/-- A network is opened in a store of its own. -/
theorem ends_openSource {source : NetworkSource} {state : SessionState}
    (h : Ends (openSource source) fs (.ok state) fs') :
    fs' = fs ∧ ∃ n, source.network? fs = some n ∧ state = opened n {} := by
  cases source with
  | sample s =>
    rw [openSource] at h
    cases hn : s.network with
    | error e =>
      rw [hn] at h
      cases (ends_throw h).1
    | ok n =>
      rw [hn] at h
      obtain ⟨hr, rfl⟩ := ends_pure h
      refine ⟨rfl, n, ?_, Except.ok.inj hr⟩
      rw [NetworkSource.network?, hn]
      rfl
  | snapshot path =>
    rw [openSource] at h
    obtain ⟨found, fs₁, hfound, hchecked⟩ := ends_bind_ok h
    obtain ⟨-, rfl⟩ := ends_onFiles hfound
    split at hchecked
    · obtain ⟨_, _, hthrow, -⟩ := ends_bind_ok hchecked
      cases (ends_throw hthrow).1
    obtain ⟨text, fs₂, hread, hload⟩ := ends_bind_ok hchecked
    obtain ⟨htext, rfl⟩ := ends_onFile hread
    have hcontent : (FileSystem.read path : StateM Files (Except FileFault String)) fs₂ =
        (fs₂.content path, fs₂) := rfl
    rw [hcontent] at htext
    cases hfile : fs₂.content path with
    | error fault =>
      rw [hfile] at htext
      cases htext
    | ok content =>
      rw [hfile] at htext
      obtain rfl := Except.ok.inj htext
      rw [Store.load] at hload
      cases hn : Network.ofSnapshot text with
      | error e =>
        rw [hn] at hload
        cases (ends_throw hload).1
      | ok n =>
        rw [hn] at hload
        obtain ⟨hr, rfl⟩ := ends_pure hload
        refine ⟨rfl, n, ?_, Except.ok.inj hr⟩
        rw [NetworkSource.network?, hfile]
        simp [Except.toOption, hn]

theorem setPowerBase_ok {value : Float} {s s' : SessionState}
    (h : Session.setPowerBase value s = .ok () s') :
    s' = ⟨{ s.session with perUnit := { s.session.perUnit with powerBase := value } },
      s.store⟩ := by
  rw [Session.setPowerBase, run_bind_of_ok (Session.context_run s),
    PerUnitContext.withPowerBase?] at h
  by_cases hbase : PerUnitContext.isPowerBase value = true
  · rw [if_pos hbase] at h
    cases h
    rfl
  · rw [if_neg hbase] at h
    cases h

/-- A network is opened with the per-unit settings of the run. -/
theorem ends_openNetwork {source : String} {settings : Settings} {state : SessionState}
    (h : Ends (openNetwork source settings) fs (.ok state) fs') :
    fs' = fs ∧ ∃ n, (NetworkSource.ofText source).network? fs = some n ∧
      state = opened n ⟨settings.powerBase, settings.perUnit⟩ := by
  obtain ⟨start, fs₁, hopen, hrest⟩ := ends_bind_ok h
  obtain ⟨rfl, n, hn, rfl⟩ := ends_openSource hopen
  obtain ⟨⟨_, changed⟩, fs₂, hset, hreturn⟩ := ends_bind_ok hrest
  obtain ⟨hrun, rfl⟩ := ends_inSession_ok hset
  obtain ⟨hr, rfl⟩ := ends_pure hreturn
  obtain rfl := Except.ok.inj hr
  refine ⟨rfl, n, hn, ?_⟩
  cases hbase : Session.setPowerBase settings.powerBase (opened n {}) with
  | error e s => cases (run_bind_of_error hbase).symm.trans hrun
  | ok _ s =>
    have hlast := (run_bind_of_ok hbase).symm.trans hrun
    rw [setPowerBase_ok hbase] at hlast
    cases hon : settings.perUnit with
    | false =>
      rw [hon] at hlast
      cases hlast
      rfl
    | true =>
      rw [hon] at hlast
      cases hlast
      rfl

/-- A source that gives a network is opened, if the power base is one. -/
theorem runOn_openNetwork {source : String} {n : Network} (settings : Settings)
    (hn : (NetworkSource.ofText source).network? fs = some n)
    (hbase : PerUnitContext.isPowerBase settings.powerBase = true) (out : Output) :
    runOn (openNetwork source settings) out fs =
      ((.ok (opened n ⟨settings.powerBase, settings.perUnit⟩), out), fs) := by
  have hopen : runOn (openSource (NetworkSource.ofText source)) out fs =
      ((.ok (opened n {}), out), fs) := by
    cases hsource : NetworkSource.ofText source with
    | sample s =>
      rw [hsource] at hn
      rw [openSource, toOption_eq_some_iff.mp hn]
      rfl
    | snapshot path =>
      rw [hsource] at hn
      obtain ⟨text, htext, hnetwork⟩ := Option.bind_eq_some_iff.mp hn
      have hcontent := toOption_eq_some_iff.mp htext
      have hfound : runOn (onFiles (FileSystem.hasPath path)) out fs =
        ((.ok (fs.hasPath path), out), fs) := rfl
      have hread : runOn (onFile (.readSnapshot path) (FileSystem.read path)) out fs =
          ((.ok text, out), fs) := by
        have hresult : runOn (onFiles (FileSystem.read path)) out fs =
          ((.ok (fs.content path), out), fs) := rfl
        rw [onFile, runOn_bind_of_ok hresult, hcontent]
        rfl
      rw [openSource, runOn_bind_of_ok hfound, Files.hasPath_of_content hcontent]
      refine (runOn_bind_of_ok hread).trans ?_
      rw [Store.load, toOption_eq_some_iff.mp hnetwork]
      rfl
  have hset : (do
      Session.setPowerBase settings.powerBase
      if settings.perUnit then Session.setPerUnit true : SessionM Unit) (opened n {}) =
        .ok () (opened n ⟨settings.powerBase, settings.perUnit⟩) := by
    have hpower : Session.setPowerBase settings.powerBase (opened n {}) =
        .ok () (opened n ⟨settings.powerBase, false⟩) := by
      rw [Session.setPowerBase, run_bind_of_ok (Session.context_run _),
        PerUnitContext.withPowerBase?, if_pos hbase]
      rfl
    refine (run_bind_of_ok hpower).trans ?_
    cases settings.perUnit <;> rfl
  exact (runOn_bind_of_ok hopen).trans (runOn_bind_of_ok (runOn_inSession hset out fs))

/-- A variant that is worked in is there, and nothing else changes. -/
theorem useVariant_opened {n : Network} {ctx : PerUnitContext} {variant : Option String}
    {s : SessionState} (h : useVariant variant (opened n ctx) = .ok () s) :
    (∀ id ∈ variant, n.hasVariant id = true) ∧ s = opened (n.inVariant variant) ctx := by
  cases variant with
  | none =>
    cases h
    exact ⟨nofun, rfl⟩
  | some id =>
    have hselect := VariantOperation.select_eq (network?_opened n ctx) id
    rw [Network.selectVariant] at hselect
    have hrun : VariantAccess.select ⟨(opened n ctx).session.handle⟩ id (opened n ctx) =
        .ok () s := h
    rw [hselect] at hrun
    by_cases hid : n.hasVariant id = true
    · rw [if_pos hid] at hrun
      cases hrun
      exact ⟨fun _ hmem => Option.some.inj hmem ▸ hid, rfl⟩
    · rw [if_neg hid] at hrun
      cases hrun

end Program

end PowerTables
