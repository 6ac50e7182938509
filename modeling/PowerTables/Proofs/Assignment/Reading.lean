import PowerTables.Assignment
import PowerTables.Proofs.Number.Reading
import PowerTables.Proofs.Text.Splitting

/-!
# Reading printed assignments

An assignment is printed as its key, a point, its column, an equals sign and its value.  The first
equals sign and the last point before it are the printed ones as long as the column has neither and
the id has no equals sign; and the last bracket of a key that is printed with a number is the one in
front of the number.  So an assignment is read back from its printed form, whatever points and
brackets are in the id and whatever stands in the value.  The one thing to keep apart is an id that
looks like a key with a number.

## Main definitions

* `Assignment.text`, `Assignment.target` : the printed form, and the cell that is assigned.
* `RowKey.Typable`, `Assignment.Typable` : what can be told from its printed form.

## Main results

* `RowKey.Typable.parse_eq` : a key is read back from its printed form.
* `Assignment.parse_text` : so is an assignment, and its target with it.
-/

namespace PowerTables

/-! ### Keys -/

/-- A key that ends in a bracket is split at the last opening one. -/
theorem splitBracket?_append_singleton (cs : List Char) :
    splitBracket? (cs ++ [']']) = Text.splitLast? '[' cs := by
  simp [splitBracket?]

theorem splitBracket?_eq_none {cs : List Char}
    (h : ∀ front inside, cs ≠ front ++ '[' :: inside ++ [']']) : splitBracket? cs = none := by
  rw [splitBracket?]
  split
  next hlast =>
    obtain ⟨rest, rfl⟩ := List.getLast?_eq_some_iff.mp hlast
    rw [List.dropLast_concat, Text.splitLast?_eq_none_iff]
    intro hmem
    obtain ⟨front, inside, rfl⟩ := List.append_of_mem hmem
    exact h front inside rfl
  next => rfl

namespace RowKey

/-- A key that can be told from its printed form.  The id has no equals sign and does not begin with
a blank, and where there is no number, it is not empty and does not look as if there were one. -/
structure Typable (key : RowKey) : Prop where
  noEquals : '=' ∉ key.id.toList
  front : ∀ c ∈ key.id.toList.head?, Text.isBlank c = false
  plain : key.number = none →
    key.id ≠ "" ∧ ¬∃ front inside : String, key.id = front ++ "[" ++ inside ++ "]"

variable {key : RowKey}

theorem toList_text_numbered (id : String) (n : Int64) :
    (numbered id n).text.toList =
      (id.toList ++ '[' :: (toString n.toInt).toList) ++ [']'] := by
  simp [numbered, text]

theorem Typable.text_ne (h : key.Typable) : key.text.toList ≠ [] := by
  obtain ⟨id, _ | n⟩ := key
  · exact fun hnil => (h.plain rfl).1 (String.toList_eq_nil_iff.mp hnil)
  · rw [← numbered, toList_text_numbered]
    simp

theorem Typable.notMem_text (h : key.Typable) : '=' ∉ key.text.toList := by
  obtain ⟨id, _ | n⟩ := key
  · exact h.noEquals
  · rw [← numbered, toList_text_numbered]
    have hnumber := notMem_toString n.toInt (c := '=') (by decide) (by decide)
    simp only [List.mem_append, List.mem_cons, not_or]
    exact ⟨⟨h.noEquals, by decide, hnumber⟩, by decide, List.not_mem_nil⟩

/-- The printed form of a key does not begin with a blank. -/
theorem Typable.front_text (h : key.Typable) :
    ∀ c ∈ key.text.toList.head?, Text.isBlank c = false := by
  obtain ⟨id, _ | n⟩ := key
  · exact h.front
  · rw [← numbered, toList_text_numbered]
    have hfront := h.front
    cases hid : id.toList with
    | nil => simp [Text.isBlank]
    | cons c cs =>
      rw [hid] at hfront
      simpa using hfront

/-- A key is read back from its printed form. -/
theorem Typable.parse_eq (h : key.Typable) : parse key.text.toList = .ok key := by
  obtain ⟨id, _ | n⟩ := key
  · have hbracket : splitBracket? id.toList = none :=
      splitBracket?_eq_none fun front inside hid => (h.plain rfl).2
        ⟨String.ofList front, String.ofList inside, String.toList_inj.mp (by simpa using hid)⟩
    change parse id.toList = _
    rw [parse, hbracket]
    simp [RowKey.plain]
  · have hbracket : splitBracket? (numbered id n).text.toList =
        some (id.toList, (toString n.toInt).toList) := by
      rw [toList_text_numbered, splitBracket?_append_singleton, Text.splitLast?_eq_some_iff]
      exact ⟨rfl, notMem_toString n.toInt (by decide) (by decide)⟩
    change parse (numbered id n).text.toList = _
    rw [parse, hbracket]
    simp only [String.ofList_toList, readInt64?_toString]
    rfl

end RowKey

/-! ### Assignments -/

namespace Assignment

/-- The printed form of an assignment. -/
def text (a : Assignment) : String := a.key.text ++ "." ++ a.column ++ "=" ++ a.raw

/-- The cell that is assigned: its key and its column. -/
def target (a : Assignment) : RowKey × String := (a.key, a.column)

/-- An assignment that can be told from its printed form.  The column is not empty, has neither
points nor equals signs, and has no blanks around it. -/
structure Typable (a : Assignment) : Prop where
  key : a.key.Typable
  column : a.column ≠ ""
  noPoint : '.' ∉ a.column.toList
  noEquals : '=' ∉ a.column.toList
  trimmed : Text.trim a.column = a.column

variable {a : Assignment}

/-- What stands before the equals sign has no blanks around it. -/
theorem Typable.trimChars_target (h : a.Typable) :
    Text.trimChars (a.key.text.toList ++ '.' :: a.column.toList) =
      a.key.text.toList ++ '.' :: a.column.toList := by
  have hcolumn : Text.trimChars a.column.toList = a.column.toList := by
    rw [← String.ofList_inj, String.ofList_toList]
    exact h.trimmed
  have hne : a.column.toList ≠ [] := fun hnil => h.column (String.toList_eq_nil_iff.mp hnil)
  rw [Text.trimChars_eq_self_iff] at hcolumn ⊢
  constructor
  · have hfront := h.key.front_text
    cases hkey : a.key.text.toList with
    | nil => exact absurd hkey h.key.text_ne
    | cons c cs =>
      rw [hkey] at hfront
      simpa using hfront
  · rw [List.getLast?_append, List.getLast?_cons_of_ne_nil hne,
      List.getLast?_eq_some_getLast hne, Option.some_or, ← List.getLast?_eq_some_getLast hne]
    exact hcolumn.2

/-- An assignment is read back from its printed form. -/
theorem Typable.parse_eq (h : a.Typable) : parse a.text = .ok a := by
  have htarget : '=' ∉ a.key.text.toList ++ '.' :: a.column.toList := by
    simp [h.key.notMem_text, h.noEquals]
  have hequals : Text.splitFirst? '=' a.text.toList =
      some (a.key.text.toList ++ '.' :: a.column.toList, a.raw.toList) :=
    Text.splitFirst?_eq_some_iff.mpr ⟨by simp [text], htarget⟩
  have hpoint : Text.splitLast? '.' (a.key.text.toList ++ '.' :: a.column.toList) =
      some (a.key.text.toList, a.column.toList) :=
    Text.splitLast?_eq_some_iff.mpr ⟨rfl, h.noPoint⟩
  have hne : a.column.toList ≠ [] := fun hnil => h.column (String.toList_eq_nil_iff.mp hnil)
  rw [parse, hequals]
  simp only [h.trimChars_target, hpoint, h.key.parse_eq]
  simp [h.key.text_ne, hne, Except.map]

/-- An assignment is read back from its printed form, whatever its value is.  So two assignments
that are read as ones to the same cell have the same key and the same column. -/
theorem parse_text (h : a.Typable) :
    parse a.text = .ok a ∧
      ∀ b : Assignment, b.Typable → (parse b.text).map target = (parse a.text).map target →
        b.key = a.key ∧ b.column = a.column := by
  refine ⟨h.parse_eq, fun b hb hsame => ?_⟩
  rw [h.parse_eq, hb.parse_eq] at hsame
  exact Prod.mk.inj (Except.ok.inj hsame)

/-- The step of a transformer whose id has points and brackets, with a value that looks like an
assignment. -/
def bracketedStep : Assignment := ⟨.numbered "T[1].x" (-3), "rho", "1=[2].5"⟩

/-- A load whose id has a number in the middle. -/
def bracketedLoad : Assignment := ⟨.plain "L.1[2]B", "p0", " 12.5 "⟩

theorem typable_bracketedStep : bracketedStep.Typable where
  key :=
    { noEquals := by decide
      front := fun c hc => by
        obtain rfl : 'T' = c := Option.some.inj hc
        decide
      plain := nofun }
  column := by decide
  noPoint := by decide
  noEquals := by decide
  trimmed := by decide

theorem typable_bracketedLoad : bracketedLoad.Typable where
  key :=
    { noEquals := by decide
      front := fun c hc => by
        obtain rfl : 'L' = c := Option.some.inj hc
        decide
      plain := fun _ => by
        refine ⟨by decide, ?_⟩
        rintro ⟨front, inside, hid⟩
        have hlast : bracketedLoad.key.id.toList.getLast? = some ']' := by
          rw [hid, String.toList_append]
          exact List.getLast?_concat
        exact absurd hlast (by decide) }
  column := by decide
  noPoint := by decide
  noEquals := by decide
  trimmed := by decide

/-- Only the last bracket and the last point of the target count. -/
theorem parse_bracketedStep :
    bracketedStep.text = "T[1].x[-3].rho=1=[2].5" ∧ parse bracketedStep.text = .ok bracketedStep ∧
      (parse bracketedLoad.text).map target ≠ (parse bracketedStep.text).map target := by
  refine ⟨by decide, (parse_text typable_bracketedStep).1, fun hsame => ?_⟩
  have hcolumn := ((parse_text typable_bracketedStep).2 _ typable_bracketedLoad hsame).2
  exact absurd hcolumn (by decide)

end Assignment

end PowerTables
