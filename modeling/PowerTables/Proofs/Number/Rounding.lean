import Mathlib
import PowerTables.Number.Binary

/-!
# Rounding stays in range

Products, quotients and whole numbers are rounded to a mantissa of fifty-three bits.  Rounding
moves the exponent by one at most, so a bound on the exponent says which results are finite.

## Main definitions

* `Double.AtMost` : a number that is zero, or finite with a bounded exponent.
* `Double.IsNormal` : a number with a full mantissa and a bounded exponent.

## Main results

* `Double.atMost_roundWithAccuracy`, `Double.isNormal_roundWithAccuracy` : the exponent of what
  was rounded.
* `Double.atMost_div` : the exponent of a quotient.
* `Double.atMost_unpack_pack`, `Double.isNormal_unpack_pack` : bounds are kept in sixty-four bits.
* `Double.isFinite_product`, `Double.atMost_quotient` : products and quotients of doubles.
* `Double.parts_spec`, `Double.eq_nan_of_isNaN` : the special values.
-/

namespace PowerTables.Double

open Float.Model Float.Model.UnpackedFloat

/-- A number that is zero, or finite with an exponent up to a bound. -/
def AtMost (bound : Int) : UnpackedFloat → Prop
  | .zero _ => True
  | .finite _ _ exponent _ => exponent ≤ bound
  | _ => False

/-- A number with a mantissa of fifty-three bits and an exponent in a range. -/
def IsNormal (low high : Int) : UnpackedFloat → Prop
  | .finite _ mantissa exponent _ => mantissa.log2 = 52 ∧ low ≤ exponent ∧ exponent ≤ high
  | _ => False

instance (low high : Int) (u : UnpackedFloat) : Decidable (IsNormal low high u) :=
  match u with
  | .finite _ m e _ => inferInstanceAs (Decidable (m.log2 = 52 ∧ low ≤ e ∧ e ≤ high))
  | .zero _ => inferInstanceAs (Decidable False)
  | .infinity _ => inferInstanceAs (Decidable False)
  | .notANumber => inferInstanceAs (Decidable False)

theorem AtMost.mono {bound bound' : Int} {u : UnpackedFloat} (h : AtMost bound u)
    (hle : bound ≤ bound') : AtMost bound' u := by
  cases u with
  | zero s => exact h
  | finite s m e hm => exact h.trans hle
  | infinity s => exact h
  | notANumber => exact h

theorem IsNormal.mono {low high low' high' : Int} {u : UnpackedFloat} (h : IsNormal low high u)
    (hlow : low' ≤ low) (hhigh : high ≤ high') : IsNormal low' high' u := by
  cases u with
  | finite s m e hm => exact ⟨h.1, hlow.trans h.2.1, h.2.2.trans hhigh⟩
  | zero s => exact h.elim
  | infinity s => exact h.elim
  | notANumber => exact h.elim

theorem IsNormal.atMost {low high : Int} {u : UnpackedFloat} (h : IsNormal low high u) :
    AtMost high u := by
  cases u with
  | finite s m e hm => exact h.2.2
  | zero s => exact h.elim
  | infinity s => exact h.elim
  | notANumber => exact h.elim

/-! ### Shifting and rounding a mantissa -/

theorem mantissa_shiftRight (em : ExtendedMantissa) (n : Nat) :
    (em >>> n).mantissa = em.mantissa / 2 ^ n := by
  induction n with
  | zero => rw [pow_zero, Nat.div_one]; rfl
  | succ n ih =>
    change ((em >>> n).mantissa) / 2 = _
    rw [ih, Nat.div_div_eq_div_mul, pow_succ]

theorem mantissa_ofMantissaAndAccuracy (m : Nat) (accuracy : Accuracy) :
    (ExtendedMantissa.ofMantissaAndAccuracy m accuracy).mantissa = m := by
  rcases accuracy with _ | (_ | _ | _) <;> rfl

theorem roundedMantissa_bounds (em : ExtendedMantissa) :
    em.mantissa ≤ em.roundedMantissa ∧ em.roundedMantissa ≤ em.mantissa + 1 := by
  obtain ⟨m, roundBit, stickyBit⟩ := em
  cases roundBit <;> cases stickyBit <;>
    simp only [ExtendedMantissa.roundedMantissa, ExtendedMantissa.accuracy,
      Accuracy.roundToNearestEven] <;> omega

/-- The exponent that a mantissa is shifted to. -/
theorem targetExponent_eq (m : Nat) (e : Int) :
    Format.binary64.targetExponent (totalExponent m e) = max (m.log2 - 52 + e) (-1074) := by
  have hbits : Format.binary64.mantissaBits = 53 := rfl
  have hleast : Format.binary64.minExponent = -1074 := by decide
  rw [Format.targetExponent, totalExponent, hbits, hleast]
  omega

/-- A mantissa after it was shifted to its exponent. -/
theorem shiftToTargetExponent_eq (m : Nat) (e : Int) (accuracy : Accuracy) {shift : Nat}
    (hshift : (shift : Int) = max (max (m.log2 - 52 + e) (-1074) - e) 0) :
    (shiftToTargetExponent Format.binary64 m e accuracy).1.mantissa = m / 2 ^ shift ∧
      (shiftToTargetExponent Format.binary64 m e accuracy).2 = e + shift := by
  have hnat : (max ((m.log2 : Int) - 52 + e) (-1074) - e).toNat = shift := by omega
  rw [shiftToTargetExponent, targetExponent_eq, shiftToExponent, hnat]
  dsimp only
  rw [mantissa_shiftRight, mantissa_ofMantissaAndAccuracy]
  exact ⟨rfl, rfl⟩

theorem div_two_pow_lt {m shift : Nat} (h : m.log2 ≤ 52 + shift) : m / 2 ^ shift < 2 ^ 53 := by
  rw [Nat.div_lt_iff_lt_mul (by positivity), ← pow_add]
  calc m < 2 ^ (m.log2 + 1) := Nat.lt_log2_self
    _ ≤ 2 ^ (53 + shift) := Nat.pow_le_pow_right (by decide) (by omega)

theorem two_pow_le_div {m shift : Nat} (hm : m ≠ 0) (h : 52 + shift ≤ m.log2) :
    2 ^ 52 ≤ m / 2 ^ shift := by
  rw [Nat.le_div_iff_mul_le (by positivity), ← pow_add]
  exact (Nat.pow_le_pow_right (by decide) h).trans (Nat.log2_self_le hm)

theorem log2_le_of_le {r : Nat} (h : r ≤ 2 ^ 53) : r.log2 ≤ 53 := by
  rcases eq_or_ne r 0 with rfl | hr
  · decide
  · exact Nat.lt_succ_iff.mp ((Nat.log2_lt hr).mpr (h.trans_lt (by decide)))

theorem log2_mul_two_pow {m : Nat} (hm : m ≠ 0) (shift : Nat) :
    (m * 2 ^ shift).log2 = m.log2 + shift := by
  refine (Nat.log2_eq_iff (by positivity)).mpr ⟨?_, ?_⟩
  · rw [pow_add]
    exact Nat.mul_le_mul_right _ (Nat.log2_self_le hm)
  · rw [Nat.add_right_comm, pow_add]
    exact Nat.mul_lt_mul_of_pos_right Nat.lt_log2_self (by positivity)

theorem log2_shiftLeft_le (m shift : Nat) : (m <<< shift).log2 ≤ m.log2 + shift := by
  rcases eq_or_ne m 0 with rfl | hm
  · rw [Nat.zero_shiftLeft, Nat.log2_zero]
    exact Nat.zero_le _
  · rw [Nat.shiftLeft_eq, log2_mul_two_pow hm]

/-- Rounding shifts a mantissa to fifty-three bits, may raise it by one, and then shifts it once
more if that was one too many. -/
theorem exists_roundWithAccuracy (sign : Sign) (m : Nat) (e : Int) (accuracy : Accuracy) :
    ∃ shift carry r : Nat,
      (shift : Int) = max (max (m.log2 - 52 + e) (-1074) - e) 0 ∧
      m / 2 ^ shift ≤ r ∧ r ≤ m / 2 ^ shift + 1 ∧ r ≤ 2 ^ 53 ∧
      (carry : Int) = max (max (r.log2 - 52 + (e + shift)) (-1074) - (e + shift)) 0 ∧ carry ≤ 1 ∧
      roundWithAccuracy Format.binary64 sign m e accuracy =
        if h : r / 2 ^ carry = 0 then .zero sign
        else .finite sign (r / 2 ^ carry) (e + shift + carry) (Nat.pos_of_ne_zero h) := by
  obtain ⟨shift, hshift⟩ := Int.eq_ofNat_of_zero_le
    (le_max_right (max (m.log2 - 52 + e) (-1074) - e) 0)
  obtain ⟨hm, he⟩ := shiftToTargetExponent_eq m e accuracy hshift.symm
  rcases hfirst : shiftToTargetExponent Format.binary64 m e accuracy with ⟨em, e'⟩
  rw [hfirst] at hm he
  obtain rfl : e' = e + shift := he
  have hround := roundedMantissa_bounds em
  rw [show em.mantissa = m / 2 ^ shift from hm] at hround
  have hle : em.roundedMantissa ≤ 2 ^ 53 := by
    have := div_two_pow_lt (show m.log2 ≤ 52 + shift by omega)
    omega
  have hlog := log2_le_of_le hle
  obtain ⟨carry, hcarry⟩ := Int.eq_ofNat_of_zero_le
    (le_max_right (max (em.roundedMantissa.log2 - 52 + (e + shift)) (-1074) - (e + shift)) 0)
  obtain ⟨hm', he'⟩ :=
    shiftToTargetExponent_eq em.roundedMantissa (e + shift) .exact hcarry.symm
  refine ⟨shift, carry, em.roundedMantissa, hshift.symm, hround.1, hround.2, hle, hcarry.symm,
    by omega, ?_⟩
  simp only [roundWithAccuracy, hfirst, hm', he']

/-- Rounding raises the exponent by one at most, when it is large enough for the mantissa. -/
theorem atMost_roundWithAccuracy (sign : Sign) {m : Nat} {e bound : Int} (accuracy : Accuracy)
    (he : e ≤ bound) (hm : m.log2 - 52 + e ≤ bound) (hbound : -1074 ≤ bound) :
    AtMost (bound + 1) (roundWithAccuracy Format.binary64 sign m e accuracy) := by
  obtain ⟨shift, carry, r, hshift, -, -, -, -, hcarry, hround⟩ :=
    exists_roundWithAccuracy sign m e accuracy
  rw [hround]
  split_ifs with hzero
  · trivial
  · change e + shift + carry ≤ bound + 1
    omega

/-- A mantissa of at least fifty-three bits is rounded to a full one. -/
theorem isNormal_roundWithAccuracy (sign : Sign) {m : Nat} {e : Int} (accuracy : Accuracy)
    (hm : 52 ≤ m.log2) (he : -1074 ≤ m.log2 - 52 + e) :
    IsNormal (m.log2 - 52 + e) (m.log2 - 52 + e + 1)
      (roundWithAccuracy Format.binary64 sign m e accuracy) := by
  obtain ⟨shift, carry, r, hshift, hlow, -, hhigh, hcarry, hone, hround⟩ :=
    exists_roundWithAccuracy sign m e accuracy
  have hlarge : 2 ^ 52 ≤ r := (two_pow_le_div (by rintro rfl; simp at hm) (by omega)).trans hlow
  have hlog : 52 ≤ r.log2 := (Nat.le_log2 (by omega)).mpr hlarge
  have hlog' := log2_le_of_le hhigh
  have hfull : (r / 2 ^ carry).log2 = 52 := by
    rcases Nat.le_one_iff_eq_zero_or_eq_one.mp hone with rfl | rfl
    · rw [pow_zero, Nat.div_one]
      omega
    · have hcarried : 2 ^ 53 ≤ r := (Nat.le_log2 (by omega)).mp (by omega)
      obtain rfl : r = 2 ^ 53 := by omega
      decide
  have hnonzero : r / 2 ^ carry ≠ 0 := by
    rintro hzero
    rw [hzero] at hfull
    simp at hfull
  rw [hround, dif_neg hnonzero]
  exact ⟨hfull, by omega, by omega⟩

/-! ### Quotients and products -/

/-- The mantissa of a quotient by a full mantissa. -/
theorem log2_div_le (shift : Nat) {m n : Nat} (hm : m < 2 ^ 53) (hn : n.log2 = 52) :
    (m <<< shift / n).log2 ≤ shift := by
  have hn' : 2 ^ 52 ≤ n := (Nat.le_log2 (by rintro rfl; simp at hn)).mp hn.ge
  rcases eq_or_ne (m <<< shift / n) 0 with hzero | hq
  · rw [hzero, Nat.log2_zero]
    exact Nat.zero_le _
  · refine Nat.lt_succ_iff.mp ((Nat.log2_lt hq).mpr ?_)
    rw [Nat.div_lt_iff_lt_mul (by omega), Nat.shiftLeft_eq]
    calc m * 2 ^ shift < 2 ^ 53 * 2 ^ shift := Nat.mul_lt_mul_of_pos_right hm (by positivity)
      _ = 2 ^ shift.succ * 2 ^ 52 := by rw [← pow_add, ← pow_add]; congr 1; omega
      _ ≤ 2 ^ shift.succ * n := Nat.mul_le_mul_left _ hn'

/-- The exponent of a quotient by a number with a full mantissa. -/
theorem atMost_div {u v : UnpackedFloat} {high low high' bound : Int} (hu : AtMost high u)
    (hmantissa : ∀ s m e hm, u = .finite s m e hm → m < 2 ^ 53) (hv : IsNormal low high' v)
    (hbound : high - low - 52 ≤ bound) (hleast : -1074 ≤ bound) :
    AtMost (bound + 1) (UnpackedFloat.div Format.binary64 u v) := by
  cases v with
  | zero s => exact hv.elim
  | infinity s => exact hv.elim
  | notANumber => exact hv.elim
  | finite s₂ m₂ e₂ hm₂ =>
    obtain ⟨hlog, hlow, -⟩ := hv
    cases u with
    | infinity s => exact hu.elim
    | notANumber => exact hu.elim
    | zero s => trivial
    | finite s₁ m₁ e₁ hm₁ =>
      have hm₁' : m₁ < 2 ^ 53 := hmantissa _ _ _ _ rfl
      have he₁ : e₁ ≤ high := hu
      have hlog₁ : m₁.log2 ≤ 52 := Nat.lt_succ_iff.mp ((Nat.log2_lt hm₁.ne').mpr hm₁')
      have htarget : Format.binary64.targetExponent
          (totalExponent m₁ e₁ - totalExponent m₂ e₂) =
            max (m₁.log2 + e₁ - e₂ - 105) (-1074) := by
        have hbits : Format.binary64.mantissaBits = 53 := rfl
        have hleast : Format.binary64.minExponent = -1074 := by decide
        rw [Format.targetExponent, totalExponent, totalExponent, hbits, hleast, hlog]
        omega
      have hquotient := log2_div_le
        (e₁ - e₂ - min (e₁ - e₂) (max (m₁.log2 + e₁ - e₂ - 105) (-1074))).toNat hm₁' hlog
      simp only [UnpackedFloat.div, divCore, htarget]
      refine atMost_roundWithAccuracy _ _ ?_ ?_ hleast
      · omega
      · omega

/-- A product of finite numbers is not out of range before it is packed. -/
theorem isFinite_mul {u v : UnpackedFloat} (hu : u.isFinite = true) (hv : v.isFinite = true) :
    (UnpackedFloat.mul Format.binary64 u v).isFinite = true := by
  cases u with
  | infinity s => cases hu
  | notANumber => cases hu
  | zero s =>
    cases v with
    | infinity s => cases hv
    | notANumber => cases hv
    | zero s => rfl
    | finite s m e hm => rfl
  | finite s m e hm =>
    cases v with
    | infinity s => cases hv
    | notANumber => cases hv
    | zero s => rfl
    | finite s' m' e' hm' =>
      obtain ⟨shift, carry, r, -, -, -, -, -, -, hround⟩ :=
        exists_roundWithAccuracy (s * s') (m * m') (e + e') .exact
      rw [UnpackedFloat.mul, hround]
      split_ifs <;> rfl

/-! ### Sixty-four bits -/

theorem toNat_append_lt (v : BitVec 52) :
    2 ^ 52 ≤ (1#1 ++ v).toNat ∧ (1#1 ++ v).toNat < 2 ^ 53 := by
  rw [BitVec.toNat_append]
  have hv := v.isLt
  have hor : (1#1).toNat <<< 52 ||| v.toNat = 2 ^ 52 + v.toNat := by
    rw [← Nat.shiftLeft_add_eq_or_of_lt hv]
    rfl
  rw [hor]
  omega

/-- The exponent of the special values has all its bits set. -/
theorem toNat_specialExponent :
    (-BitVec.ofNat Format.binary64.exponentBits 1).toNat = 2047 := by decide

section Unpack

variable {b : BitVec Format.binary64.numBits}

theorem unpackExponent_eq_iff : unpackExponent b = -1#_ ↔ (unpackExponent b).toNat = 2047 := by
  rw [← BitVec.toNat_inj, toNat_specialExponent]

theorem toNat_unpackExponent_lt (h : unpackExponent b ≠ -1#_) :
    (unpackExponent b).toNat < 2047 := by
  have hlt : (unpackExponent b).toNat < 2048 := (unpackExponent b).isLt
  have hne := mt unpackExponent_eq_iff.mpr h
  omega

theorem toNat_unpackExponent (b : BitVec Format.binary64.numBits) :
    (unpackExponent b).toNat = b.toNat / 2 ^ 52 % 2048 := by
  rw [unpackExponent, BitVec.toNat_cast, BitVec.extractLsb_toNat, Nat.shiftRight_eq_div_pow]
  rfl

theorem toNat_unpackMantissa (b : BitVec Format.binary64.numBits) :
    (unpackMantissa b).toNat = b.toNat % 2 ^ 52 := by
  rw [unpackMantissa, BitVec.toNat_cast, BitVec.extractLsb_toNat, Nat.shiftRight_zero]
  rfl

/-- A number by its sign, exponent and mantissa. -/
theorem unpack_eq (b : BitVec Format.binary64.numBits) :
    unpack Format.binary64 b =
      if unpackExponent b = -1#_ then
        if unpackMantissa b = 0#_ then .infinity (Sign.ofBitVec (unpackSign b)) else .notANumber
      else if unpackExponent b = 0#_ then
        if h : unpackMantissa b = 0#_ then .zero (Sign.ofBitVec (unpackSign b))
        else .finite (Sign.ofBitVec (unpackSign b)) (unpackMantissa b).toNat
          ((unpackExponent b).toNat - 1075 + 1)
          (by simpa [BitVec.toNat_pos, BitVec.pos_iff_ne_zero] using h)
      else .finite (Sign.ofBitVec (unpackSign b)) (1#1 ++ unpackMantissa b).toNat
        ((unpackExponent b).toNat - 1075)
        (by have := (toNat_append_lt (unpackMantissa b)).1; omega) := rfl

theorem mantissa_unpack_lt {s : Sign} {m : Nat} {e : Int}
    {hm : 0 < m} (h : unpack Format.binary64 b = .finite s m e hm) : m < 2 ^ 53 := by
  rw [unpack_eq] at h
  split_ifs at h
  · obtain ⟨-, rfl, -⟩ := finite.inj h
    exact (unpackMantissa b).isLt.trans (by decide)
  · obtain ⟨-, rfl, -⟩ := finite.inj h
    exact (toNat_append_lt _).2

theorem atMost_unpack {bound : Int} (hfinite : unpackExponent b ≠ -1#_)
    (h : ((unpackExponent b).toNat : Int) - 1075 ≤ bound) (hlow : -1074 ≤ bound) :
    AtMost bound (unpack Format.binary64 b) := by
  rw [unpack_eq, if_neg hfinite]
  split_ifs with hzero hmantissa
  · trivial
  · change ((unpackExponent b).toNat : Int) - 1075 + 1 ≤ bound
    rw [hzero]
    exact hlow
  · exact h

theorem isNormal_unpack {low high : Int} (hfinite : unpackExponent b ≠ -1#_)
    (hnormal : unpackExponent b ≠ 0#_)
    (hlow : low ≤ ((unpackExponent b).toNat : Int) - 1075)
    (hhigh : ((unpackExponent b).toNat : Int) - 1075 ≤ high) :
    IsNormal low high (unpack Format.binary64 b) := by
  rw [unpack_eq, if_neg hfinite, if_neg hnormal]
  refine ⟨?_, hlow, hhigh⟩
  obtain ⟨hge, hlt⟩ := toNat_append_lt (unpackMantissa b)
  exact (Nat.log2_eq_iff (by omega)).mpr ⟨hge, hlt⟩

end Unpack

theorem toNat_storedExponent {n : Nat} (h : n < 2047) :
    (BitVec.ofNat Format.binary64.exponentBits n).toNat = n ∧
      BitVec.ofNat Format.binary64.exponentBits n ≠ -1#_ := by
  have hn : (BitVec.ofNat Format.binary64.exponentBits n).toNat = n := by
    rw [BitVec.toNat_ofNat]
    exact Nat.mod_eq_of_lt (by change n < 2048; omega)
  refine ⟨hn, fun heq => ?_⟩
  rw [heq, toNat_specialExponent] at hn
  omega

theorem storedExponent_eq (e : Int) : (e + (Format.binary64.exponentBias : Nat) +
    (Format.binary64.mantissaBitsWithoutImplicit : Nat)).toNat = (e + 1075).toNat := by
  have hbias : Format.binary64.exponentBias = 1023 := rfl
  have hplain : Format.binary64.mantissaBitsWithoutImplicit = 52 := rfl
  rw [hbias, hplain]
  omega

/-- The exponent that is stored with a finite number in range. -/
theorem pack_finite {s : Sign} {m : Nat} {e : Int} (hm : 0 < m) (he : e ≤ 971) :
    ∃ mantissa, pack Format.binary64 (.finite s m e hm) = packComponents Format.binary64 s
      (if m.log2 + 1 = 53 then BitVec.ofNat _ (e + 1075).toNat else 0#_) mantissa := by
  have hstored := storedExponent_eq e
  have hbits : Format.binary64.mantissaBits = 53 := rfl
  rw [UnpackedFloat.pack]
  simp only [hstored, hbits]
  rw [if_neg (by change ¬2048 ≤ _; omega)]
  split_ifs with hfull
  · exact ⟨_, rfl⟩
  · exact ⟨_, rfl⟩

theorem pack_overflow {s : Sign} {m : Nat} {e : Int} (hm : 0 < m) (he : 971 < e) :
    UnpackedFloat.pack Format.binary64 (.finite s m e hm) =
      packedInfinity Format.binary64 s := by
  have hstored := storedExponent_eq e
  rw [UnpackedFloat.pack]
  simp only [hstored]
  rw [if_pos (by change 2048 ≤ _; omega)]

theorem atMost_unpack_pack {u : UnpackedFloat} {bound : Int} (h : AtMost bound u)
    (hlow : -1074 ≤ bound) (hhigh : bound ≤ 971) :
    AtMost bound (unpack Format.binary64 (pack Format.binary64 u)) := by
  cases u with
  | infinity s => exact h.elim
  | notANumber => exact h.elim
  | zero s =>
    change AtMost bound (unpack Format.binary64 (packComponents Format.binary64 s 0 0))
    refine atMost_unpack ?_ ?_ hlow
    · rw [unpackExponent_packComponents]
      decide
    · rw [unpackExponent_packComponents]
      exact le_trans (by decide) hlow
  | finite s m e hm =>
    have he : e ≤ bound := h
    obtain ⟨mantissa, hpack⟩ := pack_finite hm (he.trans hhigh)
    obtain ⟨hstored, hfinite⟩ :=
      toNat_storedExponent (show (e + 1075).toNat < 2047 by omega)
    rw [hpack]
    split_ifs with hfull
    · refine atMost_unpack ?_ ?_ hlow
      · rwa [unpackExponent_packComponents]
      · rw [unpackExponent_packComponents, hstored]
        omega
    · refine atMost_unpack ?_ ?_ hlow
      · rw [unpackExponent_packComponents]
        decide
      · rw [unpackExponent_packComponents]
        exact le_trans (by decide) hlow

theorem isNormal_unpack_pack {u : UnpackedFloat} {low high : Int} (h : IsNormal low high u)
    (hlow : -1074 ≤ low) (hhigh : high ≤ 971) :
    IsNormal low high (unpack Format.binary64 (pack Format.binary64 u)) := by
  cases u with
  | infinity s => exact h.elim
  | notANumber => exact h.elim
  | zero s => exact h.elim
  | finite s m e hm =>
    obtain ⟨hlog, hlow', hhigh'⟩ := h
    obtain ⟨mantissa, hpack⟩ := pack_finite hm (hhigh'.trans hhigh)
    obtain ⟨hstored, hfinite⟩ :=
      toNat_storedExponent (show (e + 1075).toNat < 2047 by omega)
    rw [hpack, if_pos (by omega)]
    refine isNormal_unpack ?_ ?_ ?_ ?_
    · rwa [unpackExponent_packComponents]
    · rw [unpackExponent_packComponents]
      intro hzero
      rw [hzero, BitVec.toNat_zero] at hstored
      omega
    · rw [unpackExponent_packComponents, hstored]
      omega
    · rw [unpackExponent_packComponents, hstored]
      omega

/-- A finite number in range, or one that became infinite, is not missing. -/
theorem isNaN_unpack_pack {u : UnpackedFloat} (h : u.isFinite = true) :
    (unpack Format.binary64 (UnpackedFloat.pack Format.binary64 u)).isNaN = false := by
  have hatMost {bound : Int} {v : UnpackedFloat} (h : AtMost bound v) : v.isNaN = false := by
    cases v with
    | notANumber => exact h.elim
    | _ => rfl
  cases u with
  | infinity s => cases h
  | notANumber => cases h
  | zero s =>
    have hzero : AtMost 0 (.zero s) := trivial
    exact hatMost (atMost_unpack_pack hzero (by decide) (by decide))
  | finite s m e hm =>
    rcases le_or_gt e 971 with he | he
    · have hfinite : AtMost 971 (.finite s m e hm) := he
      exact hatMost (atMost_unpack_pack hfinite (by decide) (by decide))
    · have hexponent : unpackExponent (packedInfinity Format.binary64 s) = -1#_ :=
        unpackExponent_packComponents
      have hmantissa : unpackMantissa (packedInfinity Format.binary64 s) = 0#_ :=
        unpackMantissa_packComponents
      rw [pack_overflow hm he, unpack_eq, if_pos hexponent, if_pos hmantissa]
      rfl

/-! ### Doubles -/

/-- The bits of a double. -/
def bits (x : Float) : BitVec Format.binary64.numBits := x.toModel.toBits.toBitVec

/-- The sign, exponent and mantissa of a double. -/
def unpacked (x : Float) : UnpackedFloat := unpack Format.binary64 (bits x)

theorem isFinite_eq (x : Float) : x.isFinite = (!x.isNaN && !x.isInf) := by
  change (unpacked x).isFinite = (!(unpacked x).isNaN && !(unpacked x).isInf)
  cases unpacked x <;> rfl

theorem isFinite_eq_false_iff {x : Float} :
    x.isFinite = false ↔ x.isNaN = true ∨ x.isInf = true := by
  rw [isFinite_eq]
  cases x.isNaN <;> cases x.isInf <;> decide

/-- There is one missing value. -/
theorem eq_nan_of_isNaN {x : Float} (h : x.isNaN = true) : x = nan := by
  have hnan : (unpack Format.binary64 (bits x)).isNaN = true := h
  rw [unpack_eq] at hnan
  have hexponent : unpackExponent (bits x) = -1#_ := by
    by_contra hne
    rw [if_neg hne] at hnan
    split_ifs at hnan <;> cases hnan
  have hmantissa : unpackMantissa (bits x) ≠ 0#_ := by
    intro hzero
    rw [if_pos hexponent, if_pos hzero] at hnan
    cases hnan
  have hbits : bits x = packedNaN Format.binary64 :=
    x.toModel.valid.eq_packedNaN hexponent hmantissa
  have hbits' : bits nan = packedNaN Format.binary64 := by decide +kernel
  have hsame : x.toModel.toBits = nan.toModel.toBits :=
    UInt64.toBitVec_inj.mp (hbits.trans hbits'.symm)
  generalize nan = y at hsame ⊢
  obtain ⟨⟨b, hb⟩⟩ := x
  obtain ⟨⟨b', hb'⟩⟩ := y
  obtain rfl : b = b' := hsame
  rfl

theorem atMost_of_isFinite {x : Float} (h : x.isFinite = true) : AtMost 971 (unpacked x) := by
  have hfinite : unpackExponent (bits x) ≠ -1#_ := by
    intro heq
    have hunpacked : (unpack Format.binary64 (bits x)).isFinite = true := h
    rw [unpack_eq, if_pos heq] at hunpacked
    split_ifs at hunpacked
    · cases hunpacked
    · cases hunpacked
  have hrange := toNat_unpackExponent_lt hfinite
  exact atMost_unpack hfinite (by omega) (by decide)

theorem isFinite_of_atMost {x : Float} {bound : Int} (h : AtMost bound (unpacked x)) :
    x.isFinite = true := by
  change (unpacked x).isFinite = true
  cases hx : unpacked x with
  | zero s => rfl
  | finite s m e hm => rfl
  | infinity s => exact (hx ▸ h : AtMost bound (.infinity s)).elim
  | notANumber => exact (hx ▸ h : AtMost bound .notANumber).elim

/-- A product of finite doubles is finite, unless it is infinite. -/
theorem isFinite_product {x y : Float} (hx : x.isFinite = true) (hy : y.isFinite = true)
    (h : (x * y).isInf = false) : (x * y).isFinite = true := by
  have hnan : (x * y).isNaN = false := isNaN_unpack_pack (isFinite_mul hx hy)
  rw [isFinite_eq, hnan, h]
  rfl

/-- The quotient of doubles of which the second one is at least one. -/
theorem atMost_quotient {x y : Float} {high low high' bound : Int} (hx : AtMost high (unpacked x))
    (hy : IsNormal low high' (unpacked y)) (hbound : high - low - 52 ≤ bound)
    (hleast : -1074 ≤ bound) (hgreatest : bound < 971) :
    AtMost (bound + 1) (unpacked (x / y)) :=
  atMost_unpack_pack (atMost_div hx (fun _ _ _ _ h => mantissa_unpack_lt h) hy hbound hleast)
    (by omega) (by omega)

theorem isFinite_neg {x : Float} (hx : x.isFinite = true) : (-x).isFinite = true := by
  have h : AtMost 971 (UnpackedFloat.neg (unpacked x)) := by
    have hatMost := atMost_of_isFinite hx
    cases hu : unpacked x with
    | zero s => trivial
    | finite s m e hm => exact (hu ▸ hatMost : AtMost 971 (.finite s m e hm))
    | infinity s => exact (hu ▸ hatMost : AtMost 971 (.infinity s)).elim
    | notANumber => exact (hu ▸ hatMost : AtMost 971 .notANumber).elim
  exact isFinite_of_atMost (atMost_unpack_pack h (by decide) (by decide))

/-- A whole number of sixty-four bits as a double. -/
theorem atMost_toFloat (n : UInt64) : AtMost 12 (unpacked n.toFloat) := by
  refine atMost_unpack_pack ?_ (by decide) (by decide)
  have hround (s : Sign) {m : Nat} (hm : m < 2 ^ 64) :
      AtMost 12 (UnpackedFloat.round Format.binary64 s m 0) := by
    have hlog : m.log2 ≤ 63 := by
      rcases eq_or_ne m 0 with rfl | hpos
      · decide
      · exact Nat.lt_succ_iff.mp ((Nat.log2_lt hpos).mpr hm)
    rw [UnpackedFloat.round, targetExponent_eq, decreaseExponent]
    set shift := (0 - max ((m.log2 : Int) - 52 + 0) (-1074)).toNat with hshift
    have hlog' := log2_shiftLeft_le m shift
    have hresult : AtMost (11 + 1)
        (roundWithAccuracy Format.binary64 s (m <<< shift) (0 - shift) .exact) :=
      atMost_roundWithAccuracy s .exact (by omega) (by omega) (by decide)
    exact hresult
  change AtMost 12 (UnpackedFloat.normalize Format.binary64 (n.toNat : Int) 0 .positive)
  have hn := n.toNat_lt
  rw [UnpackedFloat.normalize]
  split
  · exact hround _ (by omega)
  · trivial
  · exact hround _ (by omega)

/-- The special values, told by the parts of a double. -/
theorem parts_spec (x : Float) : match parts x with
    | .nan => x.isNaN = true
    | .infinite _ => x.isInf = true
    | .finite _ => x.isFinite = true := by
  have hspecial : unpackExponent (bits x) = -1#_ ↔
      x.toBits.toNat / normalMantissa % 2048 = 2047 :=
    unpackExponent_eq_iff.trans (by rw [toNat_unpackExponent]; rfl)
  have hzero : unpackMantissa (bits x) = 0#_ ↔ x.toBits.toNat % normalMantissa = 0 := by
    rw [← BitVec.toNat_inj, toNat_unpackMantissa, BitVec.toNat_zero]
    rfl
  have hunpacked := unpack_eq (bits x)
  have hfinite (h : x.toBits.toNat / normalMantissa % 2048 ≠ 2047) : x.isFinite = true := by
    change (unpack Format.binary64 (bits x)).isFinite = true
    rw [hunpacked, if_neg fun heq => h (hspecial.mp heq)]
    split_ifs <;> rfl
  rw [parts]
  split_ifs with hfield hfraction hfirst
  · rw [if_pos (hspecial.mpr hfield), if_pos (hzero.mpr hfraction)] at hunpacked
    exact congrArg UnpackedFloat.isInf hunpacked
  · rw [if_pos (hspecial.mpr hfield), if_neg fun h => hfraction (hzero.mp h)] at hunpacked
    exact congrArg UnpackedFloat.isNaN hunpacked
  · exact hfinite hfield
  · exact hfinite hfield

end PowerTables.Double
