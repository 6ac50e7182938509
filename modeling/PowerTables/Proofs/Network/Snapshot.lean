import PowerTables.Proofs.Json.Reading
import PowerTables.Proofs.Network.Identity

/-!
# Snapshots that are accepted

A snapshot is checked for its version, its working variant and the columns of its tables, but not
for its ids and keys.  A text that gives two variants one id, or two rows of a table one key, or
a key of the wrong shape, is accepted like any other, and its network keeps what the text has.

## Main results

* `Network.identified_iff`, `Network.wellFormed_iff` : the rules for ids and keys, and those that a
  snapshot is checked for.
* `Network.identified_of_ofSnapshot_iff` : the texts that are accepted, and those of them that bring
  in ids and keys that are apart.
* `Network.ofSnapshot_repeatedNames` : a text that breaks all rules and is accepted.
-/

namespace PowerTables

namespace Network

theorem identified_iff {n : Network} : n.Identified ↔ n.variantIds.Nodup ∧
    ∀ v ∈ n.variants, ∀ c : Category, (v.tables c).index.Nodup ∧
      ∀ key ∈ (v.tables c).index, key.Suits c :=
  ⟨fun h => ⟨h.ids, fun v hv c => ⟨(h.tables v hv c).nodup, (h.tables v hv c).suits⟩⟩,
    fun h => ⟨h.1, fun v hv c => ⟨(h.2 v hv c).1, (h.2 v hv c).2⟩⟩⟩

/-- A network is well-formed if its working variant is there and every table has the columns of its
category, each as long as the index. -/
theorem wellFormed_iff {n : Network} : n.WellFormed ↔ n.working ∈ n.variantIds ∧
    ∀ v ∈ n.variants, ∀ c : Category,
      (v.tables c).signature = c.signature ∧ (v.tables c).IsRectangular :=
  ⟨fun h => ⟨hasVariant_iff.mp h.working,
      fun v hv c => ⟨(h.tables v hv c).signature, (h.tables v hv c).rectangular⟩⟩,
    fun h => ⟨hasVariant_iff.mpr h.1, fun v hv c => ⟨(h.2 v hv c).1, (h.2 v hv c).2⟩⟩⟩

/-- A text is accepted for its version, its working variant and the columns of its tables, whatever
its ids and keys are.  So it brings in ids and keys that are apart exactly if it describes them so,
or no network that passes these checks. -/
theorem identified_of_ofSnapshot_iff (text : String) :
    (∀ n, ofSnapshot text = .ok n ↔
      (Json.parse? text).bind ofJson? = some (1, n) ∧ n.working ∈ n.variantIds ∧
        ∀ v ∈ n.variants, ∀ c : Category,
          (v.tables c).signature = c.signature ∧ (v.tables c).IsRectangular) ∧
    ((∀ n, ofSnapshot text = .ok n → n.Identified) ↔
      ∀ n, (Json.parse? text).bind ofJson? = some (1, n) → n.WellFormed →
        n.variantIds.Nodup ∧ ∀ v ∈ n.variants, ∀ c : Category,
          (v.tables c).index.Nodup ∧ ∀ key ∈ (v.tables c).index, key.Suits c) := by
  have haccepts (n : Network) : ofSnapshot text = .ok n ↔
      (Json.parse? text).bind ofJson? = some (1, n) ∧ n.WellFormed := ofSnapshot_eq_ok_iff
  refine ⟨fun n => by rw [haccepts, wellFormed_iff], ?_⟩
  simp only [haccepts, ← identified_iff, and_imp]

/-- A snapshot with two variants `A`, of which the first has two rows `G` in a table whose rows
should be numbered. -/
def repeatedNames : String :=
  "\x7b\"format_version\": 1,
    \"metadata\": \x7b\"id\": \"n\", \"name\": \"n\", \"source_format\": \"\",
      \"case_date\": \"1970-01-01T00:00:00Z\", \"forecast_distance\": 0\x7d,
    \"working_variant\": \"A\",
    \"variants\": [
      \x7b\"id\": \"A\", \"tables\": \x7b\"reactive_capability_curve_point\": \x7b
        \"index\": [\x7b\"id\": \"G\"\x7d, \x7b\"id\": \"G\"\x7d],
        \"columns\": [
          \x7b\"name\": \"p\",
            \"data\": \x7b\"type\": \"double\", \"values\": [null, null]\x7d\x7d,
          \x7b\"name\": \"min_q\",
            \"data\": \x7b\"type\": \"double\", \"values\": [null, null]\x7d\x7d,
          \x7b\"name\": \"max_q\",
            \"data\": \x7b\"type\": \"double\", \"values\": [null, null]\x7d\x7d]\x7d\x7d\x7d,
      \x7b\"id\": \"A\", \"tables\": \x7b\x7d\x7d]\x7d"

set_option maxRecDepth 4000 in
theorem ofSnapshot_repeatedNames : ∃ n, ofSnapshot repeatedNames = .ok n ∧
    ¬n.variantIds.Nodup ∧ ∃ v ∈ n.variants,
      ¬(v.tables .reactiveCapabilityCurvePoint).index.Nodup ∧
      ∃ key ∈ (v.tables .reactiveCapabilityCurvePoint).index,
        ¬key.Suits .reactiveCapabilityCurvePoint := by
  have haccepted : (ofSnapshot repeatedNames).toOption.any (fun n => decide
      (¬n.variantIds.Nodup ∧ ∃ v ∈ n.variants,
        ¬(v.tables .reactiveCapabilityCurvePoint).index.Nodup ∧
        ∃ key ∈ (v.tables .reactiveCapabilityCurvePoint).index,
          ¬key.Suits .reactiveCapabilityCurvePoint)) = true := by
    -- the text is read from its characters, which need not be decoded first
    have hchars : repeatedNames = String.ofList _ := rfl
    rw [ofSnapshot, hchars, Json.parse?_ofList]
    decide +kernel
  rw [Option.any_eq_true] at haccepted
  obtain ⟨n, hn, hrules⟩ := haccepted
  exact ⟨n, toOption_eq_some_iff.mp hn, of_decide_eq_true hrules⟩

end Network

end PowerTables
