import Mathlib.Algebra.Order.Field.Power
import Mathlib.Data.Rat.Cast.Order
import Mathlib.Tactic.NormNum
import Mathlib.Tactic.SplitIfs
import PowerTables.Number.Shortest

/-!
# Digits of a positive double

The shortest decimal of a positive double is positive: where the search finds a point of a grid
it is not zero, and the last grid of the search lies below the double.

## Main results

* `Double.parts_finite` : the range of mantissas and exponents.
* `Double.shortest_ne_zero` : the significand of a positive double is not zero.
-/

namespace PowerTables

theorem Decimal.stripZeros_ne_zero {significand : Nat} (h : significand ≠ 0) (exponent : Int) :
    (stripZeros significand exponent).significand ≠ 0 := by
  induction significand using Nat.strongRecOn generalizing exponent with
  | _ n ih =>
    rw [stripZeros]
    split_ifs with hzero
    · exact ih (n / 10) (by omega) (by omega) (exponent + 1)
    · exact h

namespace Double

/-! ### The parts of a finite double -/

theorem parts_finite {x : Float} {d : Dyadic} (h : parts x = .finite d) :
    d.mantissa < 2 ^ 53 ∧ -1074 ≤ d.exponent ∧ d.exponent ≤ 971 := by
  have hnormal : normalMantissa = 2 ^ 52 := rfl
  rw [parts] at h
  split_ifs at h with hspecial hfraction hzero
  · obtain rfl := Parts.finite.inj h
    have hmod := Nat.mod_lt x.toBits.toNat (show 0 < normalMantissa by decide)
    dsimp only [leastExponent]
    omega
  · obtain rfl := Parts.finite.inj h
    have hmod := Nat.mod_lt x.toBits.toNat (show 0 < normalMantissa by decide)
    have hfield := Nat.mod_lt (x.toBits.toNat / normalMantissa) (show 0 < 2048 by decide)
    dsimp only [Int.ofNat_eq_natCast]
    omega

/-! ### Powers of ten -/

/-- A fraction reaches a power of ten. -/
def Reaches (num den : Nat) (power : Int) : Prop :=
  (scaleTen 1 1 power).1 * den ≤ num * (scaleTen 1 1 power).2

instance (num den : Nat) (power : Int) : Decidable (Reaches num den power) :=
  inferInstanceAs (Decidable (_ ≤ _))

theorem reaches_iff {num den : Nat} {power : Int} :
    Reaches num den power ↔ (10 : ℚ) ^ power * den ≤ num := by
  cases power with
  | ofNat n =>
    have h : Reaches num den (Int.ofNat n) ↔ 10 ^ n * den ≤ num := by
      simp [Reaches, scaleTen]
    rw [h, Int.ofNat_eq_natCast, zpow_natCast]
    exact_mod_cast Iff.rfl
  | negSucc n =>
    have h : Reaches num den (Int.negSucc n) ↔ den ≤ num * 10 ^ (n + 1) := by
      simp [Reaches, scaleTen]
    rw [h, zpow_negSucc, inv_mul_le_iff₀ (by positivity), mul_comm]
    exact_mod_cast Iff.rfl

theorem Reaches.mono {num den : Nat} {power power' : Int} (h : Reaches num den power)
    (hle : power' ≤ power) : Reaches num den power' := by
  rw [reaches_iff] at h ⊢
  refine le_trans ?_ h
  gcongr
  norm_num

theorem exists_scaleTwo {power : Int} (hlow : -1080 ≤ power) (hhigh : power ≤ 1000) :
    ∃ i ≤ 1000, ∃ j ≤ 1080, scaleTwo 1 1 power = (2 ^ i, 2 ^ j) := by
  cases power with
  | ofNat n =>
    refine ⟨n, Int.ofNat_le.mp hhigh, 0, by decide, ?_⟩
    simp [scaleTwo]
  | negSucc n =>
    refine ⟨0, by decide, n + 1, by omega, ?_⟩
    simp [scaleTwo]

theorem scaleTwo_eq (power : Int) :
    ((scaleTwo 1 1 power).1 : ℚ) = 2 ^ power * (scaleTwo 1 1 power).2 ∧
      0 < (scaleTwo 1 1 power).2 := by
  cases power with
  | ofNat n => simp [scaleTwo]
  | negSucc n => simp [scaleTwo, zpow_negSucc]

/-- The estimate of the decimal exponent from the binary one is at most eighteen too large. -/
theorem ten_zpow_le {power : Int} (hlow : -1100 ≤ power) (hhigh : power < 1100) :
    (10 : ℚ) ^ (power * 30103 / 100000 - 18) ≤ 2 ^ power := by
  -- for multiples of fifty it is at most two too large
  have hall : ∀ i : Nat, i < 44 → Reaches (scaleTwo 1 1 (50 * (i : Int) - 1100)).1
      (scaleTwo 1 1 (50 * (i : Int) - 1100)).2 ((50 * (i : Int) - 1100) * 30103 / 100000 - 2) := by
    decide +kernel
  obtain ⟨i, hi⟩ := Int.eq_ofNat_of_zero_le (show 0 ≤ (power + 1100) / 50 by omega)
  have hcase := hall i (by omega)
  obtain ⟨htwo, hpos⟩ := scaleTwo_eq (50 * (i : Int) - 1100)
  rw [reaches_iff, htwo] at hcase
  calc (10 : ℚ) ^ (power * 30103 / 100000 - 18)
      ≤ 10 ^ ((50 * (i : Int) - 1100) * 30103 / 100000 - 2) :=
        zpow_le_zpow_right₀ (by norm_num) (by omega)
    _ ≤ 2 ^ (50 * (i : Int) - 1100) := le_of_mul_le_mul_right hcase (by exact_mod_cast hpos)
    _ ≤ 2 ^ power := zpow_le_zpow_right₀ (by norm_num) (by omega)

/-- The decimal magnitude of a fraction is at most eighteen too large. -/
theorem reaches_decimalMagnitude {num den : Nat} (hnum : num ≠ 0) (hnum' : num.log2 < 1090)
    (hden : den ≠ 0) (hden' : den.log2 < 1090) :
    Reaches num den (decimalMagnitude num den - 18) := by
  rw [decimalMagnitude]
  dsimp only
  split_ifs with hthree htwo hone
  · exact Reaches.mono (of_decide_eq_true hthree) (by omega)
  · exact Reaches.mono (of_decide_eq_true htwo) (by omega)
  · exact Reaches.mono (of_decide_eq_true hone) (by omega)
  · have hestimate : (10 : ℚ) ^ (((num.log2 : Int) - den.log2 - 1) * 30103 / 100000 - 18) ≤
        2 ^ ((num.log2 : Int) - den.log2 - 1) := ten_zpow_le (by omega) (by omega)
    have hpower : (2 : ℚ) ^ ((num.log2 : Int) - den.log2 - 1) * 2 ^ (den.log2 + 1) =
        2 ^ num.log2 := by
      rw [← zpow_natCast, ← zpow_add₀ (by norm_num), ← zpow_natCast]
      congr 1
      omega
    have hbelow : (den : ℚ) ≤ 2 ^ (den.log2 + 1) := by
      exact_mod_cast Nat.lt_log2_self.le
    have habove : (2 : ℚ) ^ num.log2 ≤ num := by
      exact_mod_cast Nat.log2_self_le hnum
    rw [reaches_iff]
    calc (10 : ℚ) ^ (((num.log2 : Int) - den.log2 - 1) * 30103 / 100000 - 18) * den
        ≤ 2 ^ ((num.log2 : Int) - den.log2 - 1) * 2 ^ (den.log2 + 1) := by gcongr
      _ = 2 ^ num.log2 := hpower
      _ ≤ num := habove

/-! ### The search -/

theorem Rounding.onGrid?_ne_zero {r : Rounding} {tie : Tie} {power : Int} {n : Nat}
    (h : r.onGrid? tie power = some n) : n ≠ 0 := by
  rw [onGrid?] at h
  dsimp only at h
  split_ifs at h with hbelow hhigh hboth hnearer hlow hhigh'
  · exact Option.some.inj h ▸ Nat.succ_ne_zero _
  · exact Option.some.inj h ▸ Nat.succ_ne_zero _
  · exact Option.some.inj h ▸ hbelow
  · exact Option.some.inj h ▸ hbelow
  · exact Option.some.inj h ▸ Nat.succ_ne_zero _

/-- A search that ends on a grid that the double reaches finds a point that is not zero. -/
theorem Rounding.search_ne_zero {r : Rounding} (tie : Tie) {power : Int} {steps : Nat}
    (hden : r.den ≠ 0) (h : Reaches (r.value * r.num) r.den (power - steps)) :
    (r.search tie power steps).significand ≠ 0 := by
  induction steps generalizing power with
  | zero =>
    have hten : 0 < (scaleTen 1 1 power).1 := by
      cases power <;> simp [scaleTen]
    rw [Nat.cast_zero, sub_zero, Reaches, mul_comm] at h
    refine Decimal.stripZeros_ne_zero (Nat.div_pos h ?_).ne' power
    exact Nat.mul_pos (Nat.pos_of_ne_zero hden) hten
  | succ steps ih =>
    rw [search]
    cases hgrid : r.onGrid? tie power with
    | some n => exact Decimal.stripZeros_ne_zero (onGrid?_ne_zero hgrid) power
    | none =>
      refine ih ?_
      rwa [show power - 1 - (steps : Int) = power - (steps + 1 : Nat) by omega]

/-- The significand of a positive double is not zero. -/
theorem shortest_ne_zero (tie : Tie) {mantissa : Nat} {exponent : Int} (hpos : mantissa ≠ 0)
    (hmantissa : mantissa < 2 ^ 53) (hlow : -1074 ≤ exponent) (hhigh : exponent ≤ 971) :
    (shortest tie mantissa exponent).significand ≠ 0 := by
  obtain ⟨i, hi, j, hj, htwo⟩ := exists_scaleTwo (show -1080 ≤ exponent - 2 by omega)
    (show exponent - 2 ≤ 1000 by omega)
  have hproduct : 4 * mantissa * 2 ^ i ≠ 0 := Nat.mul_ne_zero (by omega) (by positivity)
  have hbelow : 4 * mantissa * 2 ^ i < 2 ^ (55 + i) := by
    rw [pow_add]
    exact Nat.mul_lt_mul_of_pos_right (by omega) (by positivity)
  rw [shortest, Rounding.of, htwo]
  refine Rounding.search_ne_zero tie (Nat.two_pow_pos j).ne'
    (reaches_decimalMagnitude hproduct ?_ (Nat.two_pow_pos j).ne' ?_)
  · exact ((Nat.log2_lt hproduct).mpr hbelow).trans_le (by omega)
  · rw [Nat.log2_two_pow]
    omega

end Double

end PowerTables
