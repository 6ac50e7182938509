import PowerTables.Number.Reading
import PowerTables.Proofs.Number.Digits

/-!
# Reading numbers

Which texts are read as numbers, and as which ones.  An integer is read from digits with an optional
sign, if its value fits 64 bits; a double from digits with an optional point, an optional sign and
an optional exponent, or from a word for one of the special values.  An integer is printed with its
decimal digits, after a minus if it is negative, and so it is read back from its printed form.

## Main definitions

* `IsSign` : the signs that a number may have, and none.
* `Double.IsFraction`, `Double.IsExponent` : the parts of a decimal number that may be absent.
* `Double.IsNumeral` : the decimal numbers without sign.

## Main results

* `readInt64?_eq_some_iff`, `Double.read?_eq_some_iff` : the texts that are read.
* `Digits.chars_ofNat` : the digits of a number are its printed form.
* `readInt64?_toString` : an integer is read back from its printed form.
* `notMem_toString` : the characters of a printed integer.
-/

namespace PowerTables

/-! ### Digits -/

namespace Digit

theorem char_eq (d : Digit) : d.char = Nat.digitChar d.val := by
  revert d
  decide

theorem ofChar?_eq_some_iff {c : Char} {d : Digit} : ofChar? c = some d ↔ c = d.char := by
  constructor
  · intro h
    rw [ofChar?] at h
    split at h
    · next hc =>
      obtain rfl := Option.some.inj h
      have hvalue : 48 + (c.toNat - 48) = c.toNat := by omega
      rw [char, hvalue, Char.ofNat_toNat]
    · cases h
  · rintro rfl
    exact ofChar?_char d

theorem char_ne {c : Char} (h : ofChar? c = none) (d : Digit) : d.char ≠ c := by
  rintro rfl
  rw [ofChar?_char] at h
  cases h

theorem char_ne_sign (d : Digit) : d.char ≠ '+' ∧ d.char ≠ '-' :=
  ⟨d.char_ne (by decide), d.char_ne (by decide)⟩

end Digit

namespace Digits

variable {cs rest : List Char} {ds : List Digit}

theorem chars_append (ds ds' : List Digit) : chars (ds ++ ds') = chars ds ++ chars ds' :=
  List.map_append

theorem chars_ofNat (n : Nat) : chars (ofNat n) = Nat.toDigits 10 n := by
  induction n using Nat.strongRecOn with
  | _ n ih =>
    by_cases h : n < 10
    · rw [ofNat_of_lt h, Nat.toDigits_of_lt_base h]
      exact congrArg (· :: []) (Digit.char_eq ⟨n, h⟩)
    · rw [ofNat_of_le (by omega), Nat.toDigits_of_base_le (by decide) (by omega), chars_append,
        ih (n / 10) (by omega)]
      exact congrArg (Nat.toDigits 10 (n / 10) ++ [·]) (Digit.char_eq _)

/-- The digits in front of a text are followed by no other digit. -/
theorem takeFront_eq_iff : takeFront cs = (ds, rest) ↔
    cs = chars ds ++ rest ∧ ∀ c ∈ rest.head?, Digit.ofChar? c = none := by
  refine ⟨fun h => ?_, fun ⟨hcs, hrest⟩ => hcs ▸ takeFront_chars ds hrest⟩
  induction cs generalizing ds with
  | nil =>
    obtain ⟨rfl, rfl⟩ := Prod.mk.inj h
    exact ⟨rfl, nofun⟩
  | cons c cs ih =>
    rw [takeFront] at h
    cases hc : Digit.ofChar? c with
    | none =>
      simp only [hc] at h
      obtain ⟨rfl, rfl⟩ := Prod.mk.inj h
      exact ⟨rfl, fun c' hc' => Option.some.inj hc' ▸ hc⟩
    | some d =>
      simp only [hc] at h
      obtain ⟨rfl, rfl⟩ := Prod.mk.inj h
      obtain ⟨hcs, hrest⟩ := ih rfl
      refine ⟨?_, hrest⟩
      rw [Digit.ofChar?_eq_some_iff.mp hc]
      exact congrArg (d.char :: ·) hcs

/-- The texts that are read as digits are those of digits, with at least one. -/
theorem read?_eq_some_iff : read? cs = some ds ↔ cs = chars ds ∧ ds ≠ [] := by
  have hfront : read? cs = some ds ↔ takeFront cs = (ds, []) ∧ ds ≠ [] := by
    rw [read?]
    obtain ⟨es, rest⟩ := takeFront cs
    cases es with
    | nil => simp +contextual [eq_comm]
    | cons e es => cases rest <;> simp +contextual [eq_comm]
  rw [hfront, takeFront_eq_iff, List.append_nil]
  simp

end Digits

/-! ### Signs -/

/-- The characters of a sign, or none, and whether it is a minus. -/
inductive IsSign : List Char → Bool → Prop
  | absent : IsSign [] false
  | plus : IsSign ['+'] false
  | minus : IsSign ['-'] true

/-- A number with the sign that was in front of it. -/
def signed (negative : Bool) (n : Nat) : Int := if negative then -n else n

theorem takeSign_of_head {cs : List Char} (h : ∀ c ∈ cs.head?, c ≠ '+' ∧ c ≠ '-') :
    takeSign cs = (false, cs) := by
  cases cs with
  | nil => rfl
  | cons c cs =>
    obtain ⟨hplus, hminus⟩ := h c rfl
    rw [takeSign]
    · exact fun cs' heq => hplus (List.cons.inj heq).1
    · exact fun cs' heq => hminus (List.cons.inj heq).1

theorem IsSign.takeSign_append {sign rest : List Char} {negative : Bool}
    (hsign : IsSign sign negative) (h : ∀ c ∈ rest.head?, c ≠ '+' ∧ c ≠ '-') :
    takeSign (sign ++ rest) = (negative, rest) := by
  cases hsign with
  | absent => exact takeSign_of_head h
  | plus => rfl
  | minus => rfl

theorem exists_isSign {cs rest : List Char} {negative : Bool}
    (h : takeSign cs = (negative, rest)) : ∃ sign, IsSign sign negative ∧ cs = sign ++ rest := by
  rw [takeSign.eq_def] at h
  split at h
  · obtain ⟨rfl, rfl⟩ := Prod.mk.inj h
    exact ⟨_, .plus, rfl⟩
  · obtain ⟨rfl, rfl⟩ := Prod.mk.inj h
    exact ⟨_, .minus, rfl⟩
  · obtain ⟨rfl, rfl⟩ := Prod.mk.inj h
    exact ⟨_, .absent, rfl⟩

theorem head_chars {ds : List Digit} (h : ds ≠ []) :
    ∀ c ∈ (Digits.chars ds).head?, c ≠ '+' ∧ c ≠ '-' := by
  obtain ⟨d, es, rfl⟩ := List.exists_cons_of_ne_nil h
  rintro _ ⟨⟩
  exact d.char_ne_sign

/-! ### Integers -/

/-- An integer fits 64 bits if it is the value of one of 64 bits. -/
theorem ofInt_fitsInt64_iff {i : Int} {n : Int64} :
    (if fitsInt64 i then some (Int64.ofInt i) else none) = some n ↔ n.toInt = i := by
  rw [Option.ite_none_right_eq_some, fitsInt64, Bool.and_eq_true, decide_eq_true_eq,
    decide_eq_true_eq]
  constructor
  · rintro ⟨⟨hlow, hhigh⟩, heq⟩
    rw [Int64.toInt_minValue] at hlow
    rw [Int64.toInt_maxValue] at hhigh
    rw [← Option.some.inj heq]
    exact Int64.toInt_ofInt_of_le hlow (by omega)
  · rintro rfl
    exact ⟨⟨n.minValue_le_toInt, n.toInt_le⟩, by rw [Int64.ofInt_toInt]⟩

/-- The texts that are read as an integer are digits with an optional sign, with its value. -/
theorem readInt64?_eq_some_iff {s : String} {n : Int64} : readInt64? s = some n ↔
    ∃ sign negative ds, IsSign sign negative ∧ ds ≠ [] ∧ s.toList = sign ++ Digits.chars ds ∧
      n.toInt = signed negative (Digits.toNat ds) := by
  rw [readInt64?]
  cases htake : takeSign s.toList with
  | mk negative rest =>
    simp only [Option.bind_eq_some_iff, Digits.read?_eq_some_iff, ofInt_fitsInt64_iff]
    constructor
    · rintro ⟨ds, ⟨rfl, hds⟩, hvalue⟩
      obtain ⟨sign, hsign, hs⟩ := exists_isSign htake
      exact ⟨sign, negative, ds, hsign, hds, hs, hvalue⟩
    · rintro ⟨sign, negative', ds, hsign, hds, hs, hvalue⟩
      rw [hs, hsign.takeSign_append (head_chars hds)] at htake
      obtain ⟨rfl, rfl⟩ := Prod.mk.inj htake
      exact ⟨ds, ⟨rfl, hds⟩, hvalue⟩

/-- The printed form of an integer. -/
theorem toList_toString (n : Int) : (toString n).toList =
    (if n < 0 then ['-'] else []) ++ Digits.chars (Digits.ofNat n.natAbs) := by
  rw [Int.toString_eq_repr, Int.repr_eq_if]
  split
  next h =>
    rw [if_neg (by omega), Nat.toList_repr, Digits.chars_ofNat, List.nil_append]
    congr 1
    omega
  next h =>
    rw [if_pos (by omega), String.toList_append, Nat.toList_repr, Digits.chars_ofNat]
    congr 2
    omega

/-- A printed integer has no characters but digits and a minus. -/
theorem notMem_toString (n : Int) {c : Char} (hminus : c ≠ '-') (hdigit : Digit.ofChar? c = none) :
    c ∉ (toString n).toList := by
  rw [toList_toString, List.mem_append, not_or]
  constructor
  · split
    · simpa using hminus
    · exact List.not_mem_nil
  · intro h
    obtain ⟨d, -, hd⟩ := List.mem_map.mp h
    exact d.char_ne hdigit hd

/-- An integer is read back from its printed form. -/
theorem readInt64?_toString (n : Int64) : readInt64? (toString n.toInt) = some n := by
  refine readInt64?_eq_some_iff.mpr ?_
  have hvalue := Digits.toNat_ofNat n.toInt.natAbs
  by_cases h : n.toInt < 0
  · refine ⟨['-'], true, _, .minus, Digits.ofNat_ne_nil n.toInt.natAbs, ?_, ?_⟩
    · rw [toList_toString, if_pos h]
    · rw [signed, if_pos rfl, hvalue]
      omega
  · refine ⟨[], false, _, .absent, Digits.ofNat_ne_nil n.toInt.natAbs, ?_, ?_⟩
    · rw [toList_toString, if_neg h]
    · rw [signed, if_neg Bool.false_ne_true, hvalue]
      omega

/-! ### Doubles -/

namespace Double

/-- The characters of the digits after the point, with the point, or neither. -/
inductive IsFraction : List Char → List Digit → Prop
  | absent : IsFraction [] []
  | point (ds : List Digit) : IsFraction ('.' :: Digits.chars ds) ds

/-- The characters of an exponent with its value, or none. -/
inductive IsExponent : List Char → Int → Prop
  | absent : IsExponent [] 0
  | written {marker : Char} {sign : List Char} {negative : Bool} {ds : List Digit}
      (hmarker : marker = 'e' ∨ marker = 'E') (hsign : IsSign sign negative) (hds : ds ≠ []) :
      IsExponent (marker :: (sign ++ Digits.chars ds)) (signed negative (Digits.toNat ds))

/-- The characters of a decimal number without sign, which is `significand * 10 ^ exponent`: digits
with an optional point, at least one, and an optional exponent. -/
inductive IsNumeral : List Char → Nat → Int → Prop
  | mk {whole fraction : List Digit} {point exponent : List Char} {e : Int}
      (hdigits : whole ++ fraction ≠ []) (hpoint : IsFraction point fraction)
      (hexponent : IsExponent exponent e) :
      IsNumeral (Digits.chars whole ++ (point ++ exponent)) (Digits.toNat (whole ++ fraction))
        (e - fraction.length)

theorem readExponent?_eq_some_iff {cs : List Char} {e : Int} :
    readExponent? cs = some e ↔ IsExponent cs e := by
  constructor
  · intro h
    cases cs with
    | nil =>
      obtain rfl := Option.some.inj h
      exact .absent
    | cons c cs =>
      rw [readExponent?] at h
      split at h
      · next hmarker =>
        cases htake : takeSign cs with
        | mk negative rest =>
          rw [htake] at h
          obtain ⟨ds, hread, rfl⟩ := Option.map_eq_some_iff.mp h
          obtain ⟨rfl, hds⟩ := Digits.read?_eq_some_iff.mp hread
          obtain ⟨sign, hsign, rfl⟩ := exists_isSign htake
          exact .written hmarker hsign hds
      · cases h
  · intro h
    cases h with
    | absent => rfl
    | written hmarker hsign hds =>
      rw [readExponent?, if_pos hmarker, hsign.takeSign_append (head_chars hds)]
      simp only [Digits.read?_eq_some_iff.mpr ⟨rfl, hds⟩]
      rfl

/-- No exponent begins with a digit or with a point. -/
theorem IsExponent.head {cs : List Char} {e : Int} (h : IsExponent cs e) :
    ∀ c ∈ cs.head?, Digit.ofChar? c = none ∧ c ≠ '.' := by
  cases h with
  | absent => nofun
  | written hmarker _ _ =>
    rintro _ ⟨⟩
    obtain rfl | rfl := hmarker <;> decide

/-- Digits with an optional point are read up to where no other one can follow. -/
theorem readMagnitude?_append {whole fraction : List Digit} {point rest : List Char}
    (hpoint : IsFraction point fraction) (hrest : ∀ c ∈ rest.head?, Digit.ofChar? c = none)
    (habsent : point = [] → ∀ c ∈ rest.head?, c ≠ '.') :
    readMagnitude? (Digits.chars whole ++ (point ++ rest)) =
      if whole.length + fraction.length = 0 then none
      else (readExponent? rest).map fun e =>
        ofDecimal (Digits.toNat (whole ++ fraction)) (e - fraction.length) := by
  rw [readMagnitude?]
  cases hpoint with
  | absent =>
    rw [List.nil_append, Digits.takeFront_chars whole hrest]
    cases rest with
    | nil => rfl
    | cons c cs =>
      have hc := habsent rfl c rfl
      dsimp only
      split
      · next heq => exact absurd (List.cons.inj heq).1 hc
      · rfl
  | point =>
    rw [Digits.takeFront_chars whole (by rintro _ ⟨⟩; decide)]
    simp only [List.cons_append, Digits.takeFront_chars fraction hrest]

/-- Every text has digits with an optional point in front, of which there may be none. -/
theorem exists_isFraction (cs : List Char) : ∃ whole fraction point rest,
    cs = Digits.chars whole ++ (point ++ rest) ∧ IsFraction point fraction ∧
      (∀ c ∈ rest.head?, Digit.ofChar? c = none) ∧
      (point = [] → ∀ c ∈ rest.head?, c ≠ '.') := by
  cases hwhole : Digits.takeFront cs with
  | mk whole rest =>
    obtain ⟨rfl, hrest⟩ := Digits.takeFront_eq_iff.mp hwhole
    by_cases hpoint : ∃ cs, rest = '.' :: cs
    · obtain ⟨cs, rfl⟩ := hpoint
      cases hfraction : Digits.takeFront cs with
      | mk fraction rest =>
        obtain ⟨rfl, hend⟩ := Digits.takeFront_eq_iff.mp hfraction
        exact ⟨whole, fraction, _, rest, rfl, .point fraction, hend, nofun⟩
    · refine ⟨whole, [], [], rest, rfl, .absent, hrest, fun _ c hc heq => hpoint ?_⟩
      obtain ⟨cs, rfl⟩ := List.head?_eq_some_iff.mp hc
      exact ⟨cs, heq ▸ rfl⟩

theorem readMagnitude?_eq_some_iff {cs : List Char} {x : Float} : readMagnitude? cs = some x ↔
    ∃ significand exponent, IsNumeral cs significand exponent ∧
      x = ofDecimal significand exponent := by
  constructor
  · intro h
    obtain ⟨whole, fraction, point, rest, rfl, hpoint, hrest, habsent⟩ := exists_isFraction cs
    rw [readMagnitude?_append hpoint hrest habsent, Option.ite_none_left_eq_some] at h
    obtain ⟨hdigits, h⟩ := h
    obtain ⟨e, he, rfl⟩ := Option.map_eq_some_iff.mp h
    refine ⟨_, _, .mk ?_ hpoint (readExponent?_eq_some_iff.mp he), rfl⟩
    rwa [← List.length_append, List.length_eq_zero_iff] at hdigits
  · rintro ⟨_, _, @⟨whole, fraction, point, rest, e, hdigits, hpoint, hexponent⟩, rfl⟩
    have hlength : ¬whole.length + fraction.length = 0 := by
      rwa [← List.length_append, List.length_eq_zero_iff]
    rw [readMagnitude?_append hpoint (fun c hc => (hexponent.head c hc).1)
      fun _ c hc => (hexponent.head c hc).2, readExponent?_eq_some_iff.mpr hexponent,
      if_neg hlength]
    rfl

/-- The characters of a double: a decimal number with an optional sign, or a word for infinity or
for the missing value in letters of any size. -/
inductive Denotes : List Char → Float → Prop
  | numeral {sign digits : List Char} {negative : Bool} {significand : Nat} {exponent : Int}
      (hsign : IsSign sign negative) (hdigits : IsNumeral digits significand exponent) :
      Denotes (sign ++ digits) (withSign negative (ofDecimal significand exponent))
  | infinity {sign word : List Char} {negative : Bool} (hsign : IsSign sign negative)
      (hword : String.ofList (word.map Char.toLower) ∈ ["inf", "infinity"]) :
      Denotes (sign ++ word) (withSign negative Double.infinity)
  | nan {sign word : List Char} {negative : Bool} (hsign : IsSign sign negative)
      (hword : String.ofList (word.map Char.toLower) = "nan") :
      Denotes (sign ++ word) Double.nan

/-- A decimal number begins with a digit or with a point. -/
theorem IsNumeral.exists_cons {cs : List Char} {significand : Nat} {exponent : Int}
    (h : IsNumeral cs significand exponent) :
    ∃ c rest, cs = c :: rest ∧ (c = '.' ∨ ∃ d : Digit, c = d.char) := by
  obtain @⟨whole, fraction, point, rest, e, hdigits, hpoint, -⟩ := h
  cases whole with
  | cons d ds => exact ⟨_, _, rfl, .inr ⟨d, rfl⟩⟩
  | nil =>
    cases hpoint with
    | absent => exact absurd rfl hdigits
    | point => exact ⟨_, _, rfl, .inl rfl⟩

theorem IsNumeral.head {cs : List Char} {significand : Nat} {exponent : Int}
    (h : IsNumeral cs significand exponent) : ∀ c ∈ cs.head?, c ≠ '+' ∧ c ≠ '-' := by
  obtain ⟨c, rest, rfl, rfl | ⟨d, rfl⟩⟩ := h.exists_cons
  · rintro _ ⟨⟩
    decide
  · rintro _ ⟨⟩
    exact d.char_ne_sign

/-- A decimal number is none of the words. -/
theorem IsNumeral.lower_ne {cs : List Char} {significand : Nat} {exponent : Int}
    (h : IsNumeral cs significand exponent) :
    ∀ word ∈ ["inf", "infinity", "nan"], String.ofList (cs.map Char.toLower) ≠ word := by
  have hdigit : ∀ d : Digit, d.char.toLower ≠ 'i' ∧ d.char.toLower ≠ 'n' := by decide
  obtain ⟨c, rest, rfl, hc⟩ := h.exists_cons
  have hletter : c.toLower ≠ 'i' ∧ c.toLower ≠ 'n' := by
    obtain rfl | ⟨d, rfl⟩ := hc
    · decide
    · exact hdigit d
  intro word hword heq
  have hhead := congrArg (·.toList.head?) heq
  simp only [List.map_cons, String.toList_ofList, List.head?_cons] at hhead
  simp only [List.mem_cons, List.not_mem_nil, or_false] at hword
  obtain rfl | rfl | rfl := hword
  · exact hletter.1 (Option.some.inj hhead)
  · exact hletter.1 (Option.some.inj hhead)
  · exact hletter.2 (Option.some.inj hhead)

/-- None of the words begins with a sign. -/
theorem head_of_lower {cs : List Char}
    (h : String.ofList (cs.map Char.toLower) ∈ ["inf", "infinity", "nan"]) :
    ∀ c ∈ cs.head?, c ≠ '+' ∧ c ≠ '-' := by
  intro c hc
  obtain ⟨rest, rfl⟩ := List.head?_eq_some_iff.mp hc
  have hword : ∀ word ∈ ["inf", "infinity", "nan"],
      word.toList.head? ≠ some '+' ∧ word.toList.head? ≠ some '-' := by decide
  obtain ⟨hplus, hminus⟩ := hword _ h
  rw [String.toList_ofList] at hplus hminus
  constructor
  · rintro rfl
    exact hplus rfl
  · rintro rfl
    exact hminus rfl

/-- The texts that are read as a double. -/
theorem read?_eq_some_iff {s : String} {x : Float} : read? s = some x ↔ Denotes s.toList x := by
  rw [read?]
  generalize s.toList = cs
  constructor
  · intro h
    cases htake : takeSign cs with
    | mk negative rest =>
      obtain ⟨sign, hsign, rfl⟩ := exists_isSign htake
      simp only [htake] at h
      split at h
      · next hword =>
        obtain rfl := Option.some.inj h
        exact .infinity hsign (by simpa using hword)
      split at h
      · next hword =>
        obtain rfl := Option.some.inj h
        exact .nan hsign hword
      · obtain ⟨y, hy, rfl⟩ := Option.map_eq_some_iff.mp h
        obtain ⟨significand, exponent, hdigits, rfl⟩ := readMagnitude?_eq_some_iff.mp hy
        exact .numeral hsign hdigits
  · intro h
    cases h with
    | numeral hsign hdigits =>
      have hne := hdigits.lower_ne
      rw [hsign.takeSign_append hdigits.head]
      dsimp only
      rw [if_neg (not_or.mpr ⟨hne _ (by decide), hne _ (by decide)⟩), if_neg (hne _ (by decide)),
        readMagnitude?_eq_some_iff.mpr ⟨_, _, hdigits, rfl⟩]
      rfl
    | infinity hsign hword =>
      rw [hsign.takeSign_append (head_of_lower (List.mem_append_left ["nan"] hword))]
      exact if_pos (by simpa using hword)
    | nan hsign hword =>
      rw [hsign.takeSign_append (head_of_lower (by rw [hword]; decide))]
      dsimp only
      rw [hword]
      rfl

end Double

end PowerTables
