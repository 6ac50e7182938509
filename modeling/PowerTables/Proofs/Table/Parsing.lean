import PowerTables.Proofs.Number.Reading
import PowerTables.Table.Cell

/-!
# Cells that are read from texts

A text is read as a cell of a given type.  Blanks around it do not count.  What is left is taken as
it is for a text, is one of six words for a truth value, an integer of 64 bits, or a double; any
other text is refused.

## Main definitions

* `Cell.Denoted` : the cells that a text can stand for.

## Main results

* `Cell.parse?_string`, `Cell.parse?_boolean_iff`, `Cell.parse?_int_iff`, `Cell.parse?_double_iff` :
  what is read for each of the types.
* `Cell.parse?_eq_some_iff` : the cell that is read is the one of the type that the text stands for.
-/

namespace PowerTables.Cell

/-- The cells that a text can stand for, which are of different types. -/
inductive Denoted (raw : String) : Cell → Prop
  /-- Every text stands for itself, without the blanks around it. -/
  | string : Denoted raw (.ofString (Text.trim raw))
  | yes (h : Text.lower (Text.trim raw) ∈ ["true", "1", "yes"]) : Denoted raw (.ofBool true)
  | no (h : Text.lower (Text.trim raw) ∈ ["false", "0", "no"]) : Denoted raw (.ofBool false)
  /-- Digits with an optional sign stand for an integer, if it has 64 bits. -/
  | int {sign : List Char} {negative : Bool} {ds : List Digit} {n : Int64}
      (hsign : IsSign sign negative) (hds : ds ≠ [])
      (htext : (Text.trim raw).toList = sign ++ Digits.chars ds)
      (hvalue : n.toInt = signed negative (Digits.toNat ds)) : Denoted raw (.ofInt n)
  | double {x : Float} (h : Double.Denotes (Text.trim raw).toList x) : Denoted raw (.ofDouble x)

variable {raw : String} {type : CellType} {cell : Cell}

theorem parse?_string (raw : String) :
    parse? .string raw = some (.ofString (Text.trim raw)) := rfl

theorem readBool?_eq_some_iff {s : String} {b : Bool} : readBool? s = some b ↔
    Text.lower s ∈ if b then ["true", "1", "yes"] else ["false", "0", "no"] := by
  rw [readBool?]
  constructor
  · intro h
    split at h
    · next htrue =>
      obtain rfl := Option.some.inj h
      simpa using htrue
    split at h
    · next hfalse =>
      obtain rfl := Option.some.inj h
      simpa using hfalse
    · cases h
  · intro h
    cases b with
    | true => exact if_pos (by simpa using h)
    | false =>
      have hfalse : Text.lower s = "false" ∨ Text.lower s = "0" ∨ Text.lower s = "no" := by
        simpa using h
      obtain heq | heq | heq := hfalse <;> simp [heq]

theorem parse?_boolean_iff : parse? .boolean raw = some cell ↔ ∃ b, cell = .ofBool b ∧
    Text.lower (Text.trim raw) ∈ if b then ["true", "1", "yes"] else ["false", "0", "no"] := by
  simp only [← readBool?_eq_some_iff, parse?, readValue?, Option.map_eq_some_iff]
  exact exists_congr fun b => and_comm.trans (and_congr_left fun _ => eq_comm)

theorem parse?_int_iff : parse? .int raw = some cell ↔ ∃ n, cell = .ofInt n ∧
    ∃ sign negative ds, IsSign sign negative ∧ ds ≠ [] ∧
      (Text.trim raw).toList = sign ++ Digits.chars ds ∧
      n.toInt = signed negative (Digits.toNat ds) := by
  simp only [← readInt64?_eq_some_iff, parse?, readValue?, Option.map_eq_some_iff]
  exact exists_congr fun n => and_comm.trans (and_congr_left fun _ => eq_comm)

theorem parse?_double_iff : parse? .double raw = some cell ↔
    ∃ x, cell = .ofDouble x ∧ Double.Denotes (Text.trim raw).toList x := by
  simp only [← Double.read?_eq_some_iff, parse?, readValue?, Option.map_eq_some_iff]
  exact exists_congr fun x => and_comm.trans (and_congr_left fun _ => eq_comm)

/-- The cell that is read from a text is the one of the type that the text stands for. -/
theorem parse?_eq_some_iff : parse? type raw = some cell ↔ cell.type = type ∧ Denoted raw cell := by
  constructor
  · intro h
    cases type with
    | string =>
      obtain rfl := Option.some.inj ((parse?_string raw).symm.trans h)
      exact ⟨rfl, .string⟩
    | double =>
      obtain ⟨x, rfl, hx⟩ := parse?_double_iff.mp h
      exact ⟨rfl, .double hx⟩
    | int =>
      obtain ⟨n, rfl, sign, negative, ds, hsign, hds, htext, hvalue⟩ := parse?_int_iff.mp h
      exact ⟨rfl, .int hsign hds htext hvalue⟩
    | boolean =>
      obtain ⟨b, rfl, hword⟩ := parse?_boolean_iff.mp h
      cases b with
      | true => exact ⟨rfl, .yes hword⟩
      | false => exact ⟨rfl, .no hword⟩
  · rintro ⟨rfl, h⟩
    cases h with
    | string => exact parse?_string raw
    | yes hword => exact parse?_boolean_iff.mpr ⟨true, rfl, hword⟩
    | no hword => exact parse?_boolean_iff.mpr ⟨false, rfl, hword⟩
    | int hsign hds htext hvalue =>
      exact parse?_int_iff.mpr ⟨_, rfl, _, _, _, hsign, hds, htext, hvalue⟩
    | double hx => exact parse?_double_iff.mpr ⟨_, rfl, hx⟩

theorem isSome_parse?_iff :
    (parse? type raw).isSome ↔ ∃ cell : Cell, cell.type = type ∧ Denoted raw cell := by
  simp only [Option.isSome_iff_exists, parse?_eq_some_iff]

end PowerTables.Cell
