import PowerTables.Json.Decode
import PowerTables.Proofs.Json.Reading
import PowerTables.Proofs.Number.Reading
import PowerTables.Proofs.Number.Rounding
import PowerTables.Proofs.Number.Shortest

/-!
# Numbers that were written

An integer of sixty-four bits is read back as it was.  The digits of a double make a number of the
grammar, and a number that is read as a double is finite, so a double that is read back is missing
if it was missing or infinite, and finite if it was finite.  It need not be the same double.

## Main results

* `Json.int64?_ofInt` : integers are read back.
* `Json.ofDouble_cases` : the value of a double is one of the grammar.
* `Json.Number.isFinite_double?` : a number that is read as a double is finite.
* `Json.doubleOrMissing?_ofDouble` : which doubles are read back as finite ones.
* `Json.doubleOrMissing?_self_iff` : which doubles are read back as they were.
-/

namespace PowerTables.Json

/-! ### Integers -/

theorem regular_ofInt (n : Int) : (ofInt n).Regular := by
  refine .number ⟨?_, by rintro _ ⟨⟩⟩
  by_cases hn : n.natAbs < 10
  · exact ⟨⟨n.natAbs, hn⟩, [], Digits.ofNat_of_lt hn, fun _ => rfl⟩
  · obtain ⟨d, ds, hds, hzero⟩ := Digits.ofNat_eq_cons n.natAbs
    exact ⟨d, ds, hds, fun h => absurd (hzero h) (by omega)⟩

theorem Number.int?_ofInt (n : Int) : (Number.ofInt n).int? = some n := by
  have hmagnitude : Digits.toNat (Digits.ofNat n.natAbs) = n.natAbs := Digits.toNat_ofNat _
  rw [int?, ofInt]
  simp only [List.isEmpty_nil, Option.isNone_none, Bool.and_self, if_true, hmagnitude]
  split_ifs with hnegative hzero
  · have := of_decide_eq_true hnegative
    omega
  · have := of_decide_eq_true hnegative
    exact congrArg some (by omega)
  · have : ¬n < 0 := of_decide_eq_false (Bool.eq_false_iff.mpr hnegative)
    exact congrArg some (by omega)

/-- An integer of sixty-four bits is read back. -/
theorem int64?_ofInt (n : Int64) : (ofInt n.toInt).int64? = some n := by
  change (Number.ofInt n.toInt).int64? = some n
  rw [Number.int64?, Number.int?_ofInt, Option.bind_some]
  exact ofInt_fitsInt64_iff.mpr rfl

/-! ### Digits of doubles -/

theorem Number.regular_ofDigits (negative : Bool) {ds : List Digit} (point : Int)
    (hds : ∃ d es, ds = d :: es ∧ d ≠ Digit.zero) :
    (Number.ofDigits negative ds point).Regular := by
  obtain ⟨d, es, rfl, hd⟩ := hds
  rw [ofDigits]
  dsimp only
  by_cases hplain : positionalExponents.1 ≤ point - 1 ∧ point - 1 ≤ positionalExponents.2
  · rw [if_pos hplain]
    split_ifs with hpoint hlength
    · exact ⟨⟨Digit.zero, [], rfl, fun _ => rfl⟩, by rintro _ ⟨⟩⟩
    · exact ⟨⟨d, _, rfl, fun h => absurd h hd⟩, by rintro _ ⟨⟩⟩
    · obtain ⟨places, hplaces⟩ : ∃ places, point.toNat = places + 1 := ⟨point.toNat - 1, by omega⟩
      rw [hplaces]
      exact ⟨⟨d, _, rfl, fun h => absurd h hd⟩, by rintro _ ⟨⟩⟩
  · rw [if_neg hplain]
    refine ⟨⟨d, [], rfl, fun _ => rfl⟩, ?_⟩
    rintro _ ⟨⟩
    exact Digits.ofNat_ne_nil _

/-- A double that is not finite has no number, and the number of a finite one is of the grammar. -/
theorem ofDouble_cases (x : Float) : (ofDouble x = .null ∧ x.isFinite = false) ∨
    ∃ n : Number, ofDouble x = .number n ∧ n.Regular ∧ x.isFinite = true := by
  have hspec := Double.parts_spec x
  rw [ofDouble]
  cases hparts : Double.parts x with
  | nan =>
    rw [hparts] at hspec
    exact .inl ⟨rfl, Double.isFinite_eq_false_iff.mpr (.inl hspec)⟩
  | infinite negative =>
    rw [hparts] at hspec
    exact .inl ⟨rfl, Double.isFinite_eq_false_iff.mpr (.inr hspec)⟩
  | finite d =>
    rw [hparts] at hspec
    refine .inr ⟨_, rfl, ?_, hspec⟩
    rw [Number.ofDyadic]
    split_ifs with hzero
    · exact ⟨⟨Digit.zero, [], rfl, fun _ => rfl⟩, by rintro _ ⟨⟩⟩
    · obtain ⟨hmantissa, hlow, hhigh⟩ := Double.parts_finite hparts
      have hpositive := Double.shortest_ne_zero .even hzero hmantissa hlow hhigh
      obtain ⟨e, es, hds, hfirst⟩ :=
        Digits.ofNat_eq_cons (Double.shortest .even d.mantissa d.exponent).significand
      exact Number.regular_ofDigits _ _ ⟨e, es, hds, fun h => hpositive (hfirst h)⟩

theorem regular_ofDouble (x : Float) : (ofDouble x).Regular := by
  rcases ofDouble_cases x with ⟨hnull, -⟩ | ⟨n, hnumber, hn, -⟩
  · exact hnull ▸ .null
  · exact hnumber ▸ .number hn

/-! ### Reading doubles -/

open Float.Model Float.Model.UnpackedFloat in
/-- A power of ten that has no entry in the table is rounded from its digits. -/
theorem unpacked_tenTo {n : Nat} (hlow : 22 < n) (hhigh : n < greatestPower) :
    Double.unpacked (tenTo n) = unpack Format.binary64 (pack Format.binary64
      (roundWithAccuracy Format.binary64 (.positive * .positive) (2 ^ 53 * 10 ^ n) (-53)
        .exact)) := by
  have hbits : 2 ^ Format.binary64.exponentBits = (2048 : Int) := by decide
  have hlog : Nat.log2 1 = 0 := by decide
  have hrange : (n : Int) < 308 := by exact_mod_cast hhigh
  have hscientific : UnpackedFloat.ofScientific Format.binary64 1 (n : Int) =
      roundWithAccuracy Format.binary64 (.positive * .positive) (2 ^ 53 * 10 ^ n) (-53)
        .exact := by
    rw [UnpackedFloat.ofScientific, dif_neg Nat.one_ne_zero, hbits, hlog, if_neg (by omega),
      if_neg (by omega), if_pos (Int.natCast_nonneg n)]
    rfl
  rw [tenTo, Float.ofScientific, dif_neg (by omega), ← hscientific]
  rfl

/-- The greatest power of ten that is computed with. -/
theorem isNormal_greatestPower {n : Nat} (h : n = greatestPower) :
    Double.IsNormal 900 971 (Double.unpacked (tenTo n)) := by
  -- stated of a variable, so that no proof that uses it evaluates the power
  subst h
  decide +kernel

/-- The powers of ten that are computed with are at least one, and finite. -/
theorem isNormal_tenTo {n : Nat} (h : n ≤ greatestPower) :
    Double.IsNormal (-52) 971 (Double.unpacked (tenTo n)) := by
  have htable : ∀ n ≤ 22, Double.IsNormal (-52) 971 (Double.unpacked (tenTo n)) := by
    decide +kernel
  rcases Nat.lt_or_ge 22 n with hlarge | hsmall
  · rcases Nat.lt_or_eq_of_le h with hless | hgreatest
    · have hpositive : 10 ^ n ≠ 0 := (Nat.pow_pos (by decide)).ne'
      have hlog : (2 ^ 53 * 10 ^ n).log2 = (10 ^ n).log2 + 53 := by
        rw [Nat.mul_comm, Double.log2_mul_two_pow hpositive]
      have hlog' : (10 ^ n).log2 < 1023 := by
        rw [Nat.log2_lt hpositive]
        exact (Nat.pow_le_pow_right (by decide) (Nat.le_pred_of_lt hless)).trans_lt
          (by decide +kernel)
      rw [unpacked_tenTo hlarge hless]
      exact Double.isNormal_unpack_pack
        ((Double.isNormal_roundWithAccuracy _ .exact (by omega) (by omega)).mono
          (by omega) (by omega)) (by decide) (by decide)
    · exact (isNormal_greatestPower hgreatest).mono (by decide) le_rfl
  · exact htable n hsmall

/-- Dividing by a power of ten stays in range. -/
theorem isFinite_divideTen (x : Float) (n : Nat) (h : Double.AtMost 12 (Double.unpacked x)) :
    (divideTen x n).isFinite = true := by
  -- a quotient by the greatest power is below the bound again, and the last one is below one more
  fun_induction divideTen x n with
  | case1 x n hgreat hzero => exact Double.isFinite_of_atMost h
  | case2 x n hgreat hzero ih =>
    have hbound : (12 : Int) - 900 - 52 ≤ -940 := by decide
    generalize hgreatest : greatestPower = greatest at ih ⊢
    have hpower := isNormal_greatestPower hgreatest.symm
    have hquotient := Double.atMost_quotient h hpower hbound (by decide) (by decide)
    exact ih (hquotient.mono (by decide))
  | case3 x n hgreat =>
    have hquotient : Double.AtMost (12 + 1) (Double.unpacked (x / tenTo n)) :=
      Double.atMost_quotient h (isNormal_tenTo (Nat.not_lt.mp hgreat)) (by decide) (by decide)
        (by decide)
    exact Double.isFinite_of_atMost hquotient

/-- Multiplying with a power of ten is refused where it leaves the range. -/
theorem isFinite_multiplyTen? {x y : Float} {n : Nat} (hx : x.isFinite = true)
    (h : multiplyTen? x n = some y) : y.isFinite = true := by
  rw [multiplyTen?] at h
  split_ifs at h with hgreat hzero
  · exact Option.some.inj h ▸ hx
  · dsimp only at h
    split_ifs at h with hinfinite
    have hten := Double.isFinite_of_atMost (isNormal_tenTo (Nat.not_lt.mp hgreat)).atMost
    exact Option.some.inj h ▸ Double.isFinite_product hx hten (Bool.eq_false_iff.mpr hinfinite)

theorem isFinite_scale? {significand : Nat} {exponent : Int} {x : Float}
    (h : scale? significand exponent = some x) : x.isFinite = true := by
  have hsignificand := Double.atMost_toFloat significand.toUInt64
  cases exponent with
  | ofNat n => exact isFinite_multiplyTen? (Double.isFinite_of_atMost hsignificand) h
  | negSucc n =>
    obtain rfl : divideTen significand.toUInt64.toFloat (n + 1) = x := Option.some.inj h
    exact isFinite_divideTen _ _ hsignificand

/-- A number that is read as a double is finite. -/
theorem Number.isFinite_double? {n : Number} {x : Float} (h : n.double? = some x) :
    x.isFinite = true := by
  obtain ⟨magnitude, hmagnitude, rfl⟩ := Option.map_eq_some_iff.mp h
  have hfinite : magnitude.isFinite = true := by
    rw [magnitude?] at hmagnitude
    dsimp only at hmagnitude
    cases hexponent : n.exponent with
    | none =>
      rw [hexponent] at hmagnitude
      exact isFinite_scale? hmagnitude
    | some e =>
      rw [hexponent] at hmagnitude
      dsimp only at hmagnitude
      split_ifs at hmagnitude
      · exact Option.some.inj hmagnitude ▸ (by decide)
      · exact isFinite_scale? hmagnitude
      · exact isFinite_scale? hmagnitude
  rw [Double.withSign]
  split_ifs
  · exact Double.isFinite_neg hfinite
  · exact hfinite

/-- A double that is read back is missing if it was missing or infinite, and finite if it was
finite. -/
theorem doubleOrMissing?_ofDouble {x y : Float} (h : (ofDouble x).doubleOrMissing? = some y) :
    (y.isNaN = true ↔ x.isNaN = true ∨ x.isInf = true) ∧
      (y.isFinite = true ↔ x.isFinite = true) := by
  rw [← Double.isFinite_eq_false_iff]
  rcases ofDouble_cases x with ⟨hnull, hx⟩ | ⟨n, hnumber, -, hx⟩
  · rw [hnull] at h
    obtain rfl : Double.nan = y := Option.some.inj h
    rw [hx]
    decide
  · rw [hnumber] at h
    have hy := Number.isFinite_double? h
    have hmissing : y.isNaN ≠ true := fun hnan =>
      Bool.false_ne_true ((Double.isFinite_eq_false_iff.mpr (.inl hnan)).symm.trans hy)
    exact ⟨⟨fun hnan => absurd hnan hmissing,
      fun hnot => absurd (hnot.symm.trans hx) Bool.false_ne_true⟩, fun _ => hx, fun _ => hy⟩

/-- The doubles that come back as they were: the missing one, and the finite ones that the reader
finds in their digits again.  An infinite one does not. -/
theorem doubleOrMissing?_self_iff {x : Float} : (ofDouble x).doubleOrMissing? = some x ↔
    x.isInf = false ∧ (x.isFinite = true → (ofDouble x).double? = some x) := by
  rcases ofDouble_cases x with ⟨hnull, hx⟩ | ⟨n, hnumber, -, hx⟩
  · rw [hnull, hx]
    constructor
    · intro h
      obtain rfl : Double.nan = x := Option.some.inj h
      decide
    · rintro ⟨hfinite, -⟩
      rcases Double.isFinite_eq_false_iff.mp hx with hnan | hinfinite
      · exact congrArg some (Double.eq_nan_of_isNaN hnan).symm
      · exact absurd (hfinite.symm.trans hinfinite) Bool.false_ne_true
  · have hinfinite : x.isInf = false := by
      rw [Double.isFinite_eq, Bool.and_eq_true] at hx
      simpa using hx.2
    rw [hnumber, hx, hinfinite]
    exact ⟨fun h => ⟨rfl, fun _ => h⟩, fun h => h.2 rfl⟩

end PowerTables.Json
