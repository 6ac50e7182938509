/-!
# Decimal digits

A natural number and the list of its decimal digits, the most significant first.

## Main definitions

* `Digit` : the numbers zero to nine, with their characters.
* `Digits.ofNat`, `Digits.toNat` : the digits of a number and the number of a list of digits.
-/

namespace PowerTables

/-- A decimal digit. -/
abbrev Digit := Fin 10

namespace Digit

/-- The digit zero. -/
def zero : Digit := ⟨0, by decide⟩

/-- The character of a digit. -/
def char (d : Digit) : Char := Char.ofNat (48 + d.val)

/-- The digit a character stands for, if it is one of `0` to `9`. -/
def ofChar? (c : Char) : Option Digit :=
  if h : 48 ≤ c.toNat ∧ c.toNat < 58 then some ⟨c.toNat - 48, by omega⟩ else none

end Digit

namespace Digits

/-- Puts the digits of `n` in front of `rest`. -/
def prepend (n : Nat) (rest : List Digit) : List Digit :=
  if h : n < 10 then ⟨n, h⟩ :: rest
  else prepend (n / 10) (⟨n % 10, Nat.mod_lt n (by decide)⟩ :: rest)
termination_by n

/-- The decimal digits of a number, without leading zeros; zero has the one digit zero. -/
def ofNat (n : Nat) : List Digit := prepend n []

/-- The number that a list of digits denotes; leading zeros do not count. -/
def toNat (ds : List Digit) : Nat := ds.foldl (fun n d => 10 * n + d.val) 0

/-- The characters of a list of digits. -/
def chars (ds : List Digit) : List Char := ds.map Digit.char

/-- The text of a list of digits. -/
def text (ds : List Digit) : String := String.ofList (chars ds)

/-- The longest run of digits at the front, and what follows it. -/
def takeFront : List Char → List Digit × List Char
  | [] => ([], [])
  | c :: cs =>
    match Digit.ofChar? c with
    | none => ([], c :: cs)
    | some d => let (ds, rest) := takeFront cs; (d :: ds, rest)

/-- The digits of a text made of digits only, with at least one. -/
def read? (cs : List Char) : Option (List Digit) :=
  match takeFront cs with
  | (d :: ds, []) => some (d :: ds)
  | _ => none

/-- The digits of `n`, with zeros in front to fill `width` places. -/
def padded (width n : Nat) : List Digit :=
  let ds := ofNat n
  List.replicate (width - ds.length) Digit.zero ++ ds

end Digits

/-- The number as decimal text, with zeros in front to fill `width` places. -/
def paddedText (width n : Nat) : String := Digits.text (Digits.padded width n)

end PowerTables
