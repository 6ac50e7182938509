import Mathlib.Data.List.TakeWhile
import PowerTables.Text.Blank

/-!
# Splitting and trimming texts

A text is split at the first or at the last occurrence of a separator: what stands before the first
one, or after the last one, is free of it.  Trimming leaves the texts alone that neither begin nor
end with a blank.

## Main results

* `Text.splitFirst?_eq_some_iff`, `Text.splitLast?_eq_some_iff` : the parts of a text.
* `Text.splitLast?_eq_none_iff` : the texts that cannot be split.
* `Text.trimChars_eq_self_iff` : the texts without blanks around them.
-/

namespace PowerTables.Text

variable {separator : Char} {cs before after : List Char}

/-! ### Splitting -/

theorem splitFirst?_append_cons (h : separator ∉ before) :
    splitFirst? separator (before ++ separator :: after) = some (before, after) := by
  induction before with
  | nil => exact if_pos rfl
  | cons b before ih =>
    have hb : b ≠ separator := fun heq => h (heq ▸ List.mem_cons_self)
    rw [List.cons_append, splitFirst?, if_neg hb, ih fun hmem => h (List.mem_cons_of_mem b hmem)]
    rfl

/-- The part before the first separator is the one that has none. -/
theorem splitFirst?_eq_some_iff : splitFirst? separator cs = some (before, after) ↔
    cs = before ++ separator :: after ∧ separator ∉ before := by
  refine ⟨fun h => ?_, fun ⟨hcs, hfree⟩ => hcs ▸ splitFirst?_append_cons hfree⟩
  induction cs generalizing before with
  | nil => cases h
  | cons c cs ih =>
    rw [splitFirst?] at h
    split at h
    next hc =>
      obtain ⟨rfl, rfl⟩ := Prod.mk.inj (Option.some.inj h)
      exact ⟨congrArg (· :: cs) hc, List.not_mem_nil⟩
    next hc =>
      obtain ⟨⟨front, rest⟩, hsplit, heq⟩ := Option.map_eq_some_iff.mp h
      obtain ⟨rfl, rfl⟩ := Prod.mk.inj heq
      obtain ⟨rfl, hfree⟩ := ih hsplit
      exact ⟨rfl, List.not_mem_cons_of_ne_of_not_mem (Ne.symm hc) hfree⟩

theorem splitLast?_eq_none_iff : splitLast? separator cs = none ↔ separator ∉ cs := by
  induction cs with
  | nil => simp [splitLast?]
  | cons c cs ih =>
    rw [splitLast?, List.mem_cons, not_or, ← ih]
    cases splitLast? separator cs with
    | none => simp [eq_comm]
    | some parts => simp

theorem splitLast?_append_cons (h : separator ∉ after) :
    splitLast? separator (before ++ separator :: after) = some (before, after) := by
  induction before with
  | nil => simp [splitLast?, splitLast?_eq_none_iff.mpr h]
  | cons b before ih => rw [List.cons_append, splitLast?, ih]

/-- The part after the last separator is the one that has none. -/
theorem splitLast?_eq_some_iff : splitLast? separator cs = some (before, after) ↔
    cs = before ++ separator :: after ∧ separator ∉ after := by
  refine ⟨fun h => ?_, fun ⟨hcs, hfree⟩ => hcs ▸ splitLast?_append_cons hfree⟩
  induction cs generalizing before with
  | nil => cases h
  | cons c cs ih =>
    rw [splitLast?] at h
    cases hrest : splitLast? separator cs with
    | none =>
      -- the separator can only be the first character
      simp only [hrest, Option.ite_none_right_eq_some] at h
      obtain ⟨rfl, h⟩ := h
      obtain ⟨rfl, rfl⟩ := Prod.mk.inj (Option.some.inj h)
      exact ⟨rfl, splitLast?_eq_none_iff.mp hrest⟩
    | some parts =>
      rw [hrest] at h
      obtain ⟨rfl, rfl⟩ := Prod.mk.inj (Option.some.inj h)
      obtain ⟨rfl, hfree⟩ := ih hrest
      exact ⟨rfl, hfree⟩

/-! ### Trimming -/

theorem skipBlanks_eq_self_iff : skipBlanks cs = cs ↔ ∀ c ∈ cs.head?, isBlank c = false := by
  rw [skipBlanks, List.dropWhile_eq_self_iff]
  cases cs <;> simp

/-- A text is left alone if it neither begins nor ends with a blank. -/
theorem trimChars_eq_self_iff : trimChars cs = cs ↔
    (∀ c ∈ cs.head?, isBlank c = false) ∧ ∀ c ∈ cs.getLast?, isBlank c = false := by
  rw [← skipBlanks_eq_self_iff, ← List.head?_reverse, ← skipBlanks_eq_self_iff, trimChars]
  constructor
  · intro h
    -- what is skipped at either end would be missing
    have hlength := congrArg List.length h
    have hfront := (List.dropWhile_suffix isBlank (l := cs)).length_le
    have hback := (List.dropWhile_suffix isBlank (l := (skipBlanks cs).reverse)).length_le
    rw [List.length_reverse] at hlength hback
    have hcs : skipBlanks cs = cs :=
      (List.dropWhile_suffix isBlank).eq_of_length (by
        change (skipBlanks (skipBlanks cs).reverse).length ≤ _ at hback
        change (skipBlanks cs).length ≤ _ at hfront
        change (skipBlanks cs).length = _
        omega)
    rw [hcs] at h
    exact ⟨hcs, by rw [← List.reverse_eq_iff, h]⟩
  · rintro ⟨hfront, hback⟩
    rw [hfront, hback, List.reverse_reverse]

end PowerTables.Text
