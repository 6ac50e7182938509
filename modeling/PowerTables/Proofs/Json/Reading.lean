import Mathlib.Tactic.SplitIfs
import PowerTables.Json.Reader
import PowerTables.Json.Writer
import PowerTables.Proofs.Number.Digits

/-!
# Reading what was written

A value that is spread over lines is read back as it was, if its numbers have digits where the
grammar asks for them and its strings are texts.  A number ends where no character can go on with
it, so the reader is told what follows a value.

## Main definitions

* `Json.Number.Regular`, `Json.Regular` : the numbers and the values that the grammar allows.

## Main results

* `Json.readNumber?_text`, `Json.readString?_quote` : numbers and strings are read back.
* `Json.parse?_pretty` : a value is read back.
-/

namespace PowerTables.Json

/-! ### Numbers -/

/-- No character goes on with a number. -/
def EndsNumber (rest : List Char) : Prop :=
  ∀ c ∈ rest.head?, Digit.ofChar? c = none ∧ c ≠ '.' ∧ c ≠ 'e' ∧ c ≠ 'E'

theorem endsNumber_cons {c : Char} {cs : List Char}
    (h : Digit.ofChar? c = none ∧ c ≠ '.' ∧ c ≠ 'e' ∧ c ≠ 'E') : EndsNumber (c :: cs) := by
  rintro _ ⟨⟩
  exact h

/-- A number of the grammar: it has a digit before the point, no zero in front of another digit,
and a digit in its exponent when it has one. -/
structure Number.Regular (n : Number) : Prop where
  whole : ∃ d ds, n.whole = d :: ds ∧ (d = Digit.zero → ds = [])
  exponent : ∀ e ∈ n.exponent, e.digits ≠ []

namespace Number

theorem readWhole?_chars {ds : List Digit} {rest : List Char}
    (hds : ∃ d es, ds = d :: es ∧ (d = Digit.zero → es = []))
    (hrest : ∀ c ∈ rest.head?, Digit.ofChar? c = none) :
    readWhole? (Digits.chars ds ++ rest) = some (ds, rest) := by
  obtain ⟨d, es, rfl, hzero⟩ := hds
  rw [readWhole?, Digits.takeFront_chars _ hrest]
  dsimp only
  rw [if_neg]
  rintro h
  obtain ⟨hd, hes⟩ := Bool.and_eq_true_iff.mp h
  simp [hzero (by simpa using hd)] at hes

/-- The characters of the digits after the point, with the point if there are any. -/
def fractionChars (ds : List Digit) : List Char :=
  if ds.isEmpty then [] else '.' :: Digits.chars ds

theorem readFraction?_chars {ds : List Digit} {rest : List Char}
    (hrest : ∀ c ∈ rest.head?, Digit.ofChar? c = none ∧ c ≠ '.') :
    readFraction? (fractionChars ds ++ rest) = some (ds, rest) := by
  cases ds with
  | nil =>
    cases rest with
    | nil => rfl
    | cons c cs =>
      change readFraction? (c :: cs) = _
      rw [readFraction?]
      intro cs' h
      exact (hrest c rfl).2 (List.cons.inj h).1
  | cons d ds =>
    change readFraction? ('.' :: (Digits.chars (d :: ds) ++ rest)) = _
    rw [readFraction?, Digits.takeFront_chars _ fun c hc => (hrest c hc).1]

/-- The characters of the sign of an exponent. -/
def signChars : ExponentSign → List Char
  | .absent => []
  | .plus => ['+']
  | .minus => ['-']

theorem toList_exponentText (e : Exponent) :
    e.text.toList = 'e' :: (signChars e.sign ++ Digits.chars e.digits) := by
  rw [Exponent.text]
  cases e.sign <;> simp [Digits.text, signChars]

/-- The characters of an exponent, if there is one. -/
def exponentChars : Option Exponent → List Char
  | none => []
  | some e => e.text.toList

theorem readExponentSign_chars (sign : ExponentSign) {ds : List Digit} (hds : ds ≠ [])
    (rest : List Char) :
    readExponentSign (signChars sign ++ (Digits.chars ds ++ rest)) =
      (sign, Digits.chars ds ++ rest) := by
  cases sign with
  | absent =>
    obtain ⟨d, es, rfl⟩ := List.exists_cons_of_ne_nil hds
    have hdigit : ∀ d : Digit, d.char ≠ '+' ∧ d.char ≠ '-' := by decide
    change readExponentSign (d.char :: (Digits.chars es ++ rest)) = _
    unfold readExponentSign
    split
    · next heq => exact absurd (List.cons.inj heq).1 (hdigit d).1
    · next heq => exact absurd (List.cons.inj heq).1 (hdigit d).2
    · rfl
  | plus => rfl
  | minus => rfl

theorem readExponent?_chars {e : Option Exponent} {rest : List Char}
    (he : ∀ x ∈ e, x.digits ≠ []) (hrest : EndsNumber rest) :
    readExponent? (exponentChars e ++ rest) = some (e, rest) := by
  cases e with
  | none =>
    cases rest with
    | nil => rfl
    | cons c cs =>
      obtain ⟨-, -, hlower, hupper⟩ := hrest c rfl
      change readExponent? (c :: cs) = _
      rw [readExponent?, if_neg (by simp [hlower, hupper])]
  | some e =>
    obtain ⟨d, ds, hds⟩ := List.exists_cons_of_ne_nil (he e rfl)
    rw [exponentChars, toList_exponentText, List.cons_append, readExponent?, if_pos (.inl rfl),
      List.append_assoc, readExponentSign_chars e.sign (he e rfl)]
    dsimp only
    rw [Digits.takeFront_chars e.digits fun c hc => (hrest c hc).1, hds]
    dsimp only
    rw [← hds]

theorem toList_text (n : Number) : n.text.toList =
    (if n.negative then ['-'] else []) ++
      (Digits.chars n.whole ++ (fractionChars n.fraction ++ exponentChars n.exponent)) := by
  rw [text, fractionChars]
  cases n.negative <;> cases n.fraction.isEmpty <;> cases n.exponent <;>
    simp [Digits.text, exponentChars]

theorem head?_exponentChars (e : Option Exponent) {rest : List Char} (hrest : EndsNumber rest) :
    ∀ c ∈ (exponentChars e ++ rest).head?, Digit.ofChar? c = none ∧ c ≠ '.' := by
  cases e with
  | none => exact fun c hc => ⟨(hrest c hc).1, (hrest c hc).2.1⟩
  | some e =>
    rw [exponentChars, toList_exponentText]
    rintro _ ⟨⟩
    decide

theorem head?_fractionChars (ds : List Digit) {rest : List Char}
    (hrest : ∀ c ∈ rest.head?, Digit.ofChar? c = none) :
    ∀ c ∈ (fractionChars ds ++ rest).head?, Digit.ofChar? c = none := by
  cases ds with
  | nil => exact hrest
  | cons d ds =>
    rintro _ ⟨⟩
    decide

/-- A number is read back from its text. -/
theorem readNumber?_text {n : Number} (hn : n.Regular) {rest : List Char}
    (hrest : EndsNumber rest) : readNumber? (n.text.toList ++ rest) = some (n, rest) := by
  obtain ⟨negative, whole, fraction, exponent⟩ := n
  have hexponent : readExponent? (exponentChars exponent ++ rest) = some (exponent, rest) :=
    readExponent?_chars hn.exponent hrest
  have hfraction : readFraction? (fractionChars fraction ++ (exponentChars exponent ++ rest)) =
      some (fraction, exponentChars exponent ++ rest) :=
    readFraction?_chars (head?_exponentChars exponent hrest)
  have hwhole : readWhole? (Digits.chars whole ++ (fractionChars fraction ++
      (exponentChars exponent ++ rest))) =
        some (whole, fractionChars fraction ++ (exponentChars exponent ++ rest)) :=
    readWhole?_chars hn.whole
      (head?_fractionChars fraction fun c hc => (head?_exponentChars exponent hrest c hc).1)
  rw [toList_text, List.append_assoc, List.append_assoc, List.append_assoc]
  dsimp only
  cases negative with
  | true =>
    rw [if_pos rfl, List.singleton_append, readNumber?]
    simp only [hwhole, hfraction, hexponent, Option.bind_eq_bind, Option.bind_some]
    rfl
  | false =>
    obtain ⟨d, es, hd, -⟩ := hn.whole
    have hsign : ∀ d : Digit, d.char ≠ '-' := by decide
    rw [if_neg Bool.false_ne_true, List.nil_append, readNumber?]
    · simp only [hwhole, hfraction, hexponent, Option.bind_eq_bind, Option.bind_some]
      rfl
    · intro cs heq
      dsimp only at hd
      rw [hd] at heq
      exact hsign d (List.cons.inj heq).1

end Number

/-! ### Strings -/

theorem readPieces?_shortEscape {e c : Char} (h : shortEscape? e = some c) (hu : e ≠ 'u')
    (cs : List Char) :
    readPieces? ('\\' :: e :: cs) = (readPieces? cs).map fun r => (.char c :: r.1, r.2) := by
  rw [readPieces?]
  · rw [h, Option.bind_eq_bind, Option.bind_some]
    cases readPieces? cs <;> rfl
  · intro a b c d cs' he
    exact absurd he hu

/-- A control character is written by its number in two hexadecimal digits. -/
theorem hexUnit?_hexChar :
    ∀ n < 0x20, hexUnit? '0' '0' (hexChar (n / 16)) (hexChar (n % 16)) = some n := by
  decide

theorem charsOf?_unit {n : Nat} (h : n < 0x20) (pieces : List Piece) :
    charsOf? (.unit n :: pieces) = (charsOf? pieces).map (Char.ofNat n :: ·) := by
  have hhigh : isHighHalf n = false := by
    rw [isHighHalf, decide_eq_false (by omega), Bool.false_and]
  have hlow : isLowHalf n = false := by
    rw [isLowHalf, decide_eq_false (by omega), Bool.false_and]
  cases pieces with
  | nil => simp [charsOf?, hhigh, hlow]
  | cons piece pieces =>
    cases piece with
    | char c => simp [charsOf?, hhigh, hlow]
    | unit m => simp [charsOf?, hhigh, hlow]

/-- Reading an escaped character gives a piece that stands for the character. -/
theorem exists_piece (c : Char) : ∃ piece,
    (∀ cs, readPieces? (escape c ++ cs) =
      (readPieces? cs).map fun r => (piece :: r.1, r.2)) ∧
    ∀ pieces, charsOf? (piece :: pieces) = (charsOf? pieces).map (c :: ·) := by
  have hchar (d : Char) : ∀ pieces, charsOf? (.char d :: pieces) =
      (charsOf? pieces).map (d :: ·) := fun pieces => by rw [charsOf?]
  rw [escape]
  split_ifs with hquote hslash hback hfeed hline hreturn htab hcontrol
  · exact ⟨.char c, readPieces?_shortEscape (by rw [hquote]; rfl) (by decide), hchar c⟩
  · exact ⟨.char c, readPieces?_shortEscape (by rw [hslash]; rfl) (by decide), hchar c⟩
  · exact ⟨.char c, readPieces?_shortEscape (by rw [hback]; rfl) (by decide), hchar c⟩
  · exact ⟨.char c, readPieces?_shortEscape (by rw [hfeed]; rfl) (by decide), hchar c⟩
  · exact ⟨.char c, readPieces?_shortEscape (by rw [hline]; rfl) (by decide), hchar c⟩
  · exact ⟨.char c, readPieces?_shortEscape (by rw [hreturn]; rfl) (by decide), hchar c⟩
  · exact ⟨.char c, readPieces?_shortEscape (by rw [htab]; rfl) (by decide), hchar c⟩
  · refine ⟨.unit c.toNat, fun cs => ?_, fun pieces => ?_⟩
    · change readPieces? ('\\' :: 'u' :: '0' :: '0' :: hexChar _ :: hexChar _ :: cs) = _
      rw [readPieces?, hexUnit?_hexChar _ hcontrol, Option.bind_eq_bind, Option.bind_some]
      cases readPieces? cs <;> rfl
    · rw [charsOf?_unit hcontrol, Char.ofNat_toNat]
  · refine ⟨.char c, fun cs => ?_, hchar c⟩
    change readPieces? (c :: cs) = _
    rw [readPieces?, if_neg hcontrol]
    · cases readPieces? cs <;> rfl
    · exact hquote
    · intro _ _ _ _ _ hc
      exact absurd hc hslash
    · intro _ _ hc
      exact absurd hc hslash

/-- The pieces of a quoted text stand for it. -/
theorem readPieces?_escape (cs rest : List Char) : ∃ pieces,
    readPieces? (cs.flatMap escape ++ '"' :: rest) = some (pieces, rest) ∧
      charsOf? pieces = some cs := by
  induction cs with
  | nil => exact ⟨[], rfl, rfl⟩
  | cons c cs ih =>
    obtain ⟨pieces, hread, hchars⟩ := ih
    obtain ⟨piece, hpiece, hpieces⟩ := exists_piece c
    refine ⟨piece :: pieces, ?_, ?_⟩
    · rw [List.flatMap_cons, List.append_assoc, hpiece, hread]
      rfl
    · rw [hpieces, hchars]
      rfl

/-- A text is read back from between its quotes. -/
theorem readString?_quote (s : String) (rest : List Char) :
    ∃ cs, (quote s).toList = '"' :: cs ∧ readString? (cs ++ rest) = some (some s, rest) := by
  refine ⟨s.toList.flatMap escape ++ ['"'], ?_, ?_⟩
  · rw [quote, String.toList_ofList]
  · obtain ⟨pieces, hread, hchars⟩ := readPieces?_escape s.toList rest
    rw [List.append_assoc, List.singleton_append, readString?, hread, Option.map_some]
    dsimp only
    rw [hchars, Option.map_some, String.ofList_toList]

/-! ### Blanks -/

theorem skip_blanks {blanks : List Char} (h : ∀ c ∈ blanks, isBlank c = true) (cs : List Char) :
    skip (blanks ++ cs) = skip cs := by
  rw [skip, skip, List.dropWhile_append_of_pos h]

theorem skip_cons {c : Char} (h : isBlank c = false) (cs : List Char) :
    skip (c :: cs) = c :: cs := by
  rw [skip, List.dropWhile_cons_of_neg (by simp [h])]

theorem readValue?_blanks {blanks : List Char} (h : ∀ c ∈ blanks, isBlank c = true)
    (depth : Nat) (cs : List Char) :
    readValue? depth (blanks ++ cs) = readValue? depth cs := by
  cases depth with
  | zero => rw [readValue?, readValue?]
  | succ depth => rw [readValue?, readValue?, skip_blanks h]

theorem readValue?_space (depth : Nat) (cs : List Char) :
    readValue? depth (' ' :: cs) = readValue? depth cs :=
  readValue?_blanks (List.forall_mem_singleton.mpr (by decide)) depth cs

theorem readItems?_blanks {blanks : List Char} (h : ∀ c ∈ blanks, isBlank c = true)
    (depth : Nat) (cs : List Char) :
    readItems? depth (blanks ++ cs) = readItems? depth cs := by
  cases depth with
  | zero => rw [readItems?, readItems?]
  | succ depth => rw [readItems?, readItems?, readValue?_blanks h]

theorem readFields?_blanks {blanks : List Char} (h : ∀ c ∈ blanks, isBlank c = true)
    (depth : Nat) (cs : List Char) :
    readFields? depth (blanks ++ cs) = readFields? depth cs := by
  cases depth with
  | zero => rw [readFields?, readFields?]
  | succ depth => rw [readFields?, readFields?, skip_blanks h]

/-- The characters at the start of a line. -/
def lineChars (level : Nat) : List Char := '\n' :: List.replicate (2 * level) ' '

theorem toList_lineStart (level : Nat) : (lineStart level).toList = lineChars level := by
  simp [lineStart, lineChars]

theorem isBlank_lineChars (level : Nat) : ∀ c ∈ lineChars level, isBlank c = true := by
  intro c hc
  rcases List.mem_cons.mp hc with rfl | hspace
  · rfl
  · rw [List.eq_of_mem_replicate hspace]
    rfl

theorem endsNumber_lineChars (level : Nat) (rest : List Char) :
    EndsNumber (lineChars level ++ rest) := endsNumber_cons (by decide)

/-! ### Values -/

/-- The values of the grammar: their numbers are regular and their strings are texts. -/
inductive Regular : Json → Prop
  | null : Regular .null
  | bool (b : Bool) : Regular (.bool b)
  | number {n : Number} : n.Regular → Regular (.number n)
  | text (s : String) : Regular (ofText s)
  | array {items : List Json} : (∀ item ∈ items, Regular item) → Regular (.array items)
  | record {fields : List (String × Json)} :
    (∀ field ∈ fields, Regular field.2) → Regular (record fields)

/-- A value that was written at some level is read back, with what follows it. -/
def Reads (value : Json) : Prop :=
  ∀ level depth rest, EndsNumber rest → (value.prettyAt level).toList.length < depth →
    readValue? depth ((value.prettyAt level).toList ++ rest) = some (value, rest)

theorem toList_prettyAt_array (level : Nat) (item : Json) (items : List Json) :
    (prettyAt level (.array (item :: items))).toList = '[' :: (lineChars (level + 1) ++
      ((item.prettyAt (level + 1)).toList ++ ((prettyItems (level + 1) items).toList ++
        (lineChars level ++ [']'])))) := by
  rw [prettyAt]
  simp [toList_lineStart]

theorem toList_prettyAt_record (level : Nat) (field : String × Json)
    (fields : List (String × Json)) :
    (prettyAt level (record (field :: fields))).toList = '\x7b' :: (lineChars (level + 1) ++
      ((quote field.1).toList ++ (':' :: ' ' :: ((field.2.prettyAt (level + 1)).toList ++
        ((prettyFields (level + 1) (fields.map fun f => (some f.1, f.2))).toList ++
          (lineChars level ++ ['\x7d'])))))) := by
  rw [record, List.map_cons, prettyAt, quoteText]
  simp [toList_lineStart]

theorem toList_prettyItems_cons (level : Nat) (item : Json) (items : List Json) :
    (prettyItems level (item :: items)).toList = ',' :: (lineChars level ++
      ((item.prettyAt level).toList ++ (prettyItems level items).toList)) := by
  rw [prettyItems]
  simp [toList_lineStart]

theorem toList_prettyFields_cons (level : Nat) (name : String) (value : Json)
    (fields : List (Text × Json)) :
    (prettyFields level ((some name, value) :: fields)).toList = ',' :: (lineChars level ++
      ((quote name).toList ++ (':' :: ' ' ::
        ((value.prettyAt level).toList ++ (prettyFields level fields).toList)))) := by
  rw [prettyFields, quoteText]
  simp [toList_lineStart]

/-- A number starts with a minus or with a digit. -/
theorem Number.Regular.exists_head {n : Number} (h : n.Regular) :
    ∃ c cs, n.text.toList = c :: cs ∧ (c = '-' ∨ ∃ d : Digit, c = d.char) := by
  obtain ⟨d, ds, hwhole, -⟩ := h.whole
  rw [Number.toList_text, hwhole]
  cases n.negative with
  | true => exact ⟨'-', _, rfl, .inl rfl⟩
  | false => exact ⟨d.char, _, rfl, .inr ⟨d, rfl⟩⟩

/-- The first character of a value is neither a blank nor a closing bracket. -/
theorem Regular.exists_head {value : Json} (h : value.Regular) (level : Nat) :
    ∃ c cs, (value.prettyAt level).toList = c :: cs ∧ isBlank c = false ∧ c ≠ ']' := by
  cases h with
  | null => exact ⟨'n', _, by rw [prettyAt]; rfl, by decide⟩
  | bool b =>
    cases b with
    | true => exact ⟨'t', _, by rw [prettyAt]; rfl, by decide⟩
    | false => exact ⟨'f', _, by rw [prettyAt]; rfl, by decide⟩
  | number hn =>
    obtain ⟨c, cs, htext, hc⟩ := hn.exists_head
    refine ⟨c, cs, by rw [prettyAt, htext], ?_⟩
    have hdigit : ∀ d : Digit, isBlank d.char = false ∧ d.char ≠ ']' := by decide
    rcases hc with rfl | ⟨d, rfl⟩
    · decide
    · exact hdigit d
  | text s =>
    refine ⟨'"', s.toList.flatMap escape ++ ['"'], ?_, by decide⟩
    rw [ofText, prettyAt, quoteText, quote, String.toList_ofList]
  | @array items _ =>
    cases items with
    | nil => exact ⟨'[', _, by rw [prettyAt]; rfl, by decide⟩
    | cons item items => exact ⟨'[', _, toList_prettyAt_array level item items, by decide⟩
  | @record fields _ =>
    cases fields with
    | nil => exact ⟨'\x7b', _, by rw [Json.record, List.map_nil, prettyAt]; rfl, by decide⟩
    | cons field fields => exact ⟨'\x7b', _, toList_prettyAt_record level field fields, by decide⟩

section Steps

variable {depth : Nat} {cs rest rest' : List Char} {value : Json}

theorem readItems?_comma (hvalue : readValue? depth cs = some (value, rest))
    (hskip : skip rest = ',' :: rest') :
    readItems? (depth + 1) cs = (readItems? depth rest').map fun r => (value :: r.1, r.2) := by
  rw [readItems?]
  simp only [hvalue, Option.bind_eq_bind, Option.bind_some, hskip]
  cases readItems? depth rest' <;> rfl

theorem readItems?_close (hvalue : readValue? depth cs = some (value, rest))
    (hskip : skip rest = ']' :: rest') :
    readItems? (depth + 1) cs = some ([value], rest') := by
  rw [readItems?]
  simp only [hvalue, Option.bind_eq_bind, Option.bind_some, hskip]
  rfl

variable {name : Text} {cs' cs'' : List Char}

theorem skip_colon : skip (':' :: cs) = ':' :: cs := skip_cons (by decide) cs

theorem readFields?_comma (hquote : skip cs = '"' :: cs')
    (hname : readString? cs' = some (name, ':' :: cs''))
    (hvalue : readValue? depth cs'' = some (value, rest)) (hskip : skip rest = ',' :: rest') :
    readFields? (depth + 1) cs =
      (readFields? depth rest').map fun r => ((name, value) :: r.1, r.2) := by
  rw [readFields?, hquote]
  simp only [hname, Option.bind_eq_bind, Option.bind_some, skip_colon, hvalue, hskip]
  cases readFields? depth rest' <;> rfl

theorem readFields?_close (hquote : skip cs = '"' :: cs')
    (hname : readString? cs' = some (name, ':' :: cs''))
    (hvalue : readValue? depth cs'' = some (value, rest)) (hskip : skip rest = '\x7d' :: rest') :
    readFields? (depth + 1) cs = some ([(name, value)], rest') := by
  rw [readFields?, hquote]
  simp only [hname, Option.bind_eq_bind, Option.bind_some, skip_colon, hvalue, hskip]
  rfl

end Steps

/-- The items of an array are read back up to its closing bracket. -/
theorem readItems?_pretty (item : Json) (items : List Json) (hitem : Reads item)
    (hitems : ∀ i ∈ items, Reads i) (level closing depth : Nat) (rest : List Char)
    (hdepth : (item.prettyAt level).toList.length + (prettyItems level items).toList.length + 1 <
      depth) :
    readItems? depth ((item.prettyAt level).toList ++
      ((prettyItems level items).toList ++ (lineChars closing ++ ']' :: rest))) =
        some (item :: items, rest) := by
  induction items generalizing item depth with
  | nil =>
    obtain ⟨depth, rfl⟩ : ∃ d, depth = d + 1 := ⟨depth - 1, by omega⟩
    rw [prettyItems, String.toList_empty, List.nil_append]
    refine readItems?_close
      (hitem level depth _ (endsNumber_lineChars closing _) (by omega)) ?_
    rw [skip_blanks (isBlank_lineChars closing), skip_cons (by decide)]
  | cons next items ih =>
    obtain ⟨depth, rfl⟩ : ∃ d, depth = d + 1 := ⟨depth - 1, by omega⟩
    simp only [toList_prettyItems_cons, List.length_cons, List.length_append] at hdepth
    have hrest := ih next (hitems next List.mem_cons_self)
      (fun i hi => hitems i (List.mem_cons_of_mem _ hi)) depth (by omega)
    simp only [toList_prettyItems_cons, List.cons_append, List.append_assoc]
    rw [readItems?_comma
      (hitem level depth _ (endsNumber_cons (by decide)) (by omega)) (skip_cons (by decide) _),
      readItems?_blanks (isBlank_lineChars level), hrest]
    rfl

/-- The fields of a record are read back up to its closing bracket. -/
theorem readFields?_pretty (name : String) (value : Json) (fields : List (String × Json))
    (hvalue : Reads value) (hfields : ∀ f ∈ fields, Reads f.2) (level closing depth : Nat)
    (rest : List Char)
    (hdepth : (value.prettyAt level).toList.length +
      (prettyFields level (fields.map fun f => (some f.1, f.2))).toList.length + 1 <
        depth) :
    readFields? depth ((quote name).toList ++ (':' :: ' ' :: ((value.prettyAt level).toList ++
        ((prettyFields level (fields.map fun f => (some f.1, f.2))).toList ++
          (lineChars closing ++ '\x7d' :: rest))))) =
      some ((some name, value) :: fields.map fun f => (some f.1, f.2), rest) := by
  induction fields generalizing name value depth with
  | nil =>
    obtain ⟨depth, rfl⟩ : ∃ d, depth = d + 1 := ⟨depth - 1, by omega⟩
    rw [List.map_nil, prettyFields, String.toList_empty, List.nil_append]
    obtain ⟨cs, hquote, hname⟩ := readString?_quote name (':' :: ' ' ::
      ((value.prettyAt level).toList ++ (lineChars closing ++ '\x7d' :: rest)))
    have hread := hvalue level depth _ (endsNumber_lineChars closing ('\x7d' :: rest)) (by omega)
    rw [← readValue?_space] at hread
    rw [hquote, List.cons_append]
    refine readFields?_close (skip_cons (by decide) _) hname hread ?_
    rw [skip_blanks (isBlank_lineChars closing), skip_cons (by decide)]
  | cons next fields ih =>
    obtain ⟨nextName, nextValue⟩ := next
    obtain ⟨depth, rfl⟩ : ∃ d, depth = d + 1 := ⟨depth - 1, by omega⟩
    simp only [List.map_cons, toList_prettyFields_cons, List.length_cons, List.length_append]
      at hdepth
    have hrest := ih nextName nextValue (hfields _ List.mem_cons_self)
      (fun f hf => hfields f (List.mem_cons_of_mem _ hf)) depth (by omega)
    simp only [List.map_cons, toList_prettyFields_cons, List.cons_append, List.append_assoc]
    generalize (quote nextName).toList ++ (':' :: ' ' :: _) = more at hrest ⊢
    obtain ⟨cs, hquote, hname⟩ := readString?_quote name (':' :: ' ' ::
      ((value.prettyAt level).toList ++ (',' :: (lineChars level ++ more))))
    have hread := hvalue level depth (',' :: (lineChars level ++ more))
      (endsNumber_cons (by decide)) (by omega)
    rw [← readValue?_space] at hread
    rw [hquote, List.cons_append,
      readFields?_comma (skip_cons (by decide) _) hname hread (skip_cons (by decide) _),
      readFields?_blanks (isBlank_lineChars level), hrest]
    rfl

/-- What starts like no other value is read as a number. -/
theorem readValue?_number {c : Char} (hc : c = '-' ∨ ∃ d : Digit, c = d.char) (depth : Nat)
    (cs : List Char) :
    readValue? (depth + 1) (c :: cs) =
      (readNumber? (c :: cs)).map fun r => (.number r.1, r.2) := by
  have hdigit : ∀ d : Digit,
      isBlank d.char = false ∧ d.char ∉ ['n', 't', 'f', '"', '[', '\x7b'] := by
    decide
  obtain ⟨hblank, hother⟩ : isBlank c = false ∧ c ∉ ['n', 't', 'f', '"', '[', '\x7b'] := by
    rcases hc with rfl | ⟨d, rfl⟩
    · decide
    · exact hdigit d
  rw [readValue?, skip_cons hblank]
  split
  all_goals first
    | rfl
    | next heq => exact absurd (by rw [(List.cons.inj heq).1]; decide) hother

theorem readValue?_quote (depth : Nat) (cs : List Char) :
    readValue? (depth + 1) ('"' :: cs) = (readString? cs).map fun r => (.string r.1, r.2) := by
  rw [readValue?, skip_cons (by decide)]
  rfl

theorem readValue?_array {cs cs' : List Char} {c : Char} (h : skip cs = c :: cs') (hc : c ≠ ']')
    (depth : Nat) :
    readValue? (depth + 1) ('[' :: cs) =
      (readItems? depth (c :: cs')).map fun r => (.array r.1, r.2) := by
  rw [readValue?, skip_cons (by decide)]
  simp only [h]
  split
  · next heq => exact absurd (List.cons.inj heq).1 hc
  · rfl

theorem readValue?_object {cs cs' : List Char} (h : skip cs = '"' :: cs') (depth : Nat) :
    readValue? (depth + 1) ('\x7b' :: cs) =
      (readFields? depth ('"' :: cs')).map fun r => (.object r.1, r.2) := by
  rw [readValue?, skip_cons (by decide)]
  simp only [h]
  rfl

theorem reads_of_forall {value : Json}
    (h : ∀ level depth rest, EndsNumber rest → (value.prettyAt level).toList.length < depth + 1 →
      readValue? (depth + 1) ((value.prettyAt level).toList ++ rest) = some (value, rest)) :
    value.Reads := by
  rintro level (_ | depth) rest hrest hdepth
  · omega
  · exact h level depth rest hrest hdepth

/-- A value is read back, with what follows it. -/
theorem Regular.reads {value : Json} (h : value.Regular) : value.Reads := by
  induction h with
  | null =>
    refine reads_of_forall fun level depth rest _ _ => ?_
    rw [prettyAt, readValue?]
    rfl
  | bool b =>
    refine reads_of_forall fun level depth rest _ _ => ?_
    cases b with
    | true =>
      rw [prettyAt, readValue?]
      rfl
    | false =>
      rw [prettyAt, readValue?]
      rfl
  | number hn =>
    refine reads_of_forall fun level depth rest hrest _ => ?_
    obtain ⟨c, cs, htext, hc⟩ := hn.exists_head
    have hread := Number.readNumber?_text hn hrest
    rw [prettyAt, htext, List.cons_append, readValue?_number hc, ← List.cons_append, ← htext, hread]
    rfl
  | text s =>
    refine reads_of_forall fun level depth rest _ _ => ?_
    obtain ⟨cs, hquote, hread⟩ := readString?_quote s rest
    rw [ofText, prettyAt, quoteText, hquote, List.cons_append, readValue?_quote, hread]
    rfl
  | @array items hitems ih =>
    refine reads_of_forall fun level depth rest _ hdepth => ?_
    cases items with
    | nil =>
      rw [prettyAt, readValue?]
      rfl
    | cons item items =>
      obtain ⟨c, cs, htext, hblank, hclose⟩ :=
        (hitems item List.mem_cons_self).exists_head (level + 1)
      rw [toList_prettyAt_array] at hdepth ⊢
      simp only [List.length_cons, List.length_append] at hdepth
      have hread := readItems?_pretty item items (ih item List.mem_cons_self)
        (fun i hi => ih i (List.mem_cons_of_mem _ hi)) (level + 1) level depth rest
        (by simp only [lineChars, List.length_cons] at hdepth; omega)
      simp only [List.cons_append, List.append_assoc, htext, List.nil_append] at hread ⊢
      rw [readValue?_array _ hclose, hread]
      · rfl
      · rw [skip_blanks (isBlank_lineChars _), skip_cons hblank]
  | @record fields hfields ih =>
    refine reads_of_forall fun level depth rest _ hdepth => ?_
    cases fields with
    | nil =>
      rw [Json.record, List.map_nil, prettyAt, readValue?]
      rfl
    | cons field fields =>
      obtain ⟨cs, hquote, -⟩ := readString?_quote field.1 []
      rw [toList_prettyAt_record] at hdepth ⊢
      simp only [List.length_cons, List.length_append] at hdepth
      have hread := readFields?_pretty field.1 field.2 fields (ih field List.mem_cons_self)
        (fun f hf => ih f (List.mem_cons_of_mem _ hf)) (level + 1) level depth rest (by omega)
      simp only [List.cons_append, List.append_assoc, hquote, List.nil_append] at hread ⊢
      rw [readValue?_object, hread]
      · rfl
      · rw [skip_blanks (isBlank_lineChars _), skip_cons (by decide)]

/-- A value is read back from its text. -/
theorem parse?_pretty {value : Json} (h : value.Regular) : parse? value.pretty = some value := by
  have hread := h.reads 0 ((value.prettyAt 0).toList.length + 1) [] (by rintro _ ⟨⟩) (by omega)
  rw [List.append_nil] at hread
  rw [parse?, pretty, hread]
  rfl

/-- A text that is given by its characters is read from them. -/
theorem parse?_ofList (chars : List Char) : parse? (String.ofList chars) =
    (readValue? (chars.length + 1) chars).bind fun (value, rest) =>
      if (skip rest).isEmpty then some value else none := by
  rw [parse?, String.toList_ofList]
  cases readValue? (chars.length + 1) chars <;> rfl

end PowerTables.Json
