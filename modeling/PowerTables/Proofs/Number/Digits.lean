import PowerTables.Number.Digits

/-!
# Digits of a number

The digits of a number denote it again, begin with a zero only if the number is zero, and are read
back from their characters.

## Main results

* `Digits.toNat_ofNat` : the digits of a number denote it.
* `Digits.ofNat_eq_cons` : the first digit of a number.
* `Digits.takeFront_chars` : digits are read up to the first character that is none.
-/

namespace PowerTables

theorem Digit.ofChar?_char (d : Digit) : Digit.ofChar? d.char = some d := by
  revert d
  decide

namespace Digits

theorem prepend_eq_append (n : Nat) (rest : List Digit) : prepend n rest = ofNat n ++ rest := by
  rw [ofNat]
  suffices h : ∀ ds : List Digit, prepend n (ds ++ rest) = prepend n ds ++ rest from h []
  intro ds
  induction n using Nat.strongRecOn generalizing ds with
  | _ n ih =>
    rw [prepend, prepend.eq_def n ds]
    by_cases h : n < 10
    · rw [dif_pos h, dif_pos h, List.cons_append]
    · rw [dif_neg h, dif_neg h, ← List.cons_append, ih (n / 10) (by omega)]

theorem ofNat_of_lt {n : Nat} (h : n < 10) : ofNat n = [⟨n, h⟩] := by
  rw [ofNat, prepend, dif_pos h]

theorem ofNat_of_le {n : Nat} (h : 10 ≤ n) :
    ofNat n = ofNat (n / 10) ++ [⟨n % 10, Nat.mod_lt n (by decide)⟩] := by
  rw [ofNat, prepend, dif_neg (by omega), prepend_eq_append]

theorem toNat_append_singleton (ds : List Digit) (d : Digit) :
    toNat (ds ++ [d]) = 10 * toNat ds + d.val := by
  rw [toNat, List.foldl_append]
  rfl

/-- The digits of a number denote it. -/
theorem toNat_ofNat (n : Nat) : toNat (ofNat n) = n := by
  induction n using Nat.strongRecOn with
  | _ n ih =>
    by_cases h : n < 10
    · rw [ofNat_of_lt h]
      simp [toNat]
    · rw [ofNat_of_le (by omega), toNat_append_singleton, ih (n / 10) (by omega)]
      exact Nat.div_add_mod n 10

/-- A number has a first digit, and one that is not zero has a first digit that is not zero. -/
theorem ofNat_eq_cons (n : Nat) :
    ∃ d ds, ofNat n = d :: ds ∧ (d = Digit.zero → n = 0) := by
  induction n using Nat.strongRecOn with
  | _ n ih =>
    by_cases h : n < 10
    · exact ⟨⟨n, h⟩, [], ofNat_of_lt h, fun hzero => congrArg Fin.val hzero⟩
    · obtain ⟨d, ds, hds, hzero⟩ := ih (n / 10) (by omega)
      refine ⟨d, ds ++ [⟨n % 10, Nat.mod_lt n (by decide)⟩], ?_, fun hd => ?_⟩
      · rw [ofNat_of_le (by omega), hds, List.cons_append]
      · have := hzero hd
        omega

theorem ofNat_ne_nil (n : Nat) : ofNat n ≠ [] := by
  obtain ⟨d, ds, hds, -⟩ := ofNat_eq_cons n
  simp [hds]

/-- Digits are read up to the first character that is none. -/
theorem takeFront_chars (ds : List Digit) {rest : List Char}
    (h : ∀ c ∈ rest.head?, Digit.ofChar? c = none) :
    takeFront (chars ds ++ rest) = (ds, rest) := by
  induction ds with
  | nil =>
    cases rest with
    | nil => rfl
    | cons c cs =>
      change takeFront (c :: cs) = _
      rw [takeFront, h c rfl]
  | cons d ds ih =>
    change takeFront (d.char :: (chars ds ++ rest)) = _
    rw [takeFront, Digit.ofChar?_char]
    dsimp only
    rw [ih]

end Digits

end PowerTables
