import PowerTables.Json.Value

/-!
# Reading JSON

The reader accepts exactly the texts of the JSON grammar: one value, with spaces, tabs and line
ends around and between its parts.

## Main definitions

* `Json.readNumber?`, `Json.readString?`, `Json.readValue?` : read from the front of a list of
  characters and give the rest.
* `Json.parse?` : reads a whole text.
-/

namespace PowerTables.Json

/-- The blanks of JSON: space, tab, line feed and carriage return. -/
def isBlank (c : Char) : Bool := c = ' ' || c = '\t' || c = '\n' || c = '\r'

/-- The characters after the blanks in front. -/
def skip (cs : List Char) : List Char := cs.dropWhile isBlank

/-! ### Numbers -/

/-- Reads the digits in front of the point: a zero alone, or digits that start with another
one. -/
def readWhole? (cs : List Char) : Option (List Digit × List Char) :=
  match Digits.takeFront cs with
  | ([], _) => none
  | (d :: ds, rest) => if d == Digit.zero && !ds.isEmpty then none else some (d :: ds, rest)

/-- Reads a point with at least one digit after it, or nothing. -/
def readFraction? : List Char → Option (List Digit × List Char)
  | '.' :: cs =>
    match Digits.takeFront cs with
    | ([], _) => none
    | (ds, rest) => some (ds, rest)
  | cs => some ([], cs)

/-- Reads the sign of an exponent. -/
def readExponentSign : List Char → ExponentSign × List Char
  | '+' :: cs => (.plus, cs)
  | '-' :: cs => (.minus, cs)
  | cs => (.absent, cs)

/-- Reads an exponent with at least one digit, or nothing. -/
def readExponent? : List Char → Option (Option Exponent × List Char)
  | [] => some (none, [])
  | c :: cs =>
    if c = 'e' ∨ c = 'E' then
      let (sign, rest) := readExponentSign cs
      match Digits.takeFront rest with
      | ([], _) => none
      | (ds, rest) => some (some ⟨sign, ds⟩, rest)
    else some (none, c :: cs)

/-- Reads a number. -/
def readNumber? (cs : List Char) : Option (Number × List Char) := do
  let (negative, rest) := match cs with
    | '-' :: rest => (true, rest)
    | rest => (false, rest)
  let (whole, rest) ← readWhole? rest
  let (fraction, rest) ← readFraction? rest
  let (exponent, rest) ← readExponent? rest
  return (⟨negative, whole, fraction, exponent⟩, rest)

/-! ### Strings -/

/-- One element of a string: a character, or a unit of sixteen bits from an escape. -/
inductive Piece
  | char (c : Char)
  | unit (n : Nat)
  deriving DecidableEq, Repr

/-- The value of a hexadecimal digit. -/
def hexDigit? (c : Char) : Option Nat :=
  if '0' ≤ c ∧ c ≤ '9' then some (c.toNat - '0'.toNat)
  else if 'a' ≤ c ∧ c ≤ 'f' then some (c.toNat - 'a'.toNat + 10)
  else if 'A' ≤ c ∧ c ≤ 'F' then some (c.toNat - 'A'.toNat + 10)
  else none

/-- The value of four hexadecimal digits. -/
def hexUnit? (a b c d : Char) : Option Nat := do
  return (((← hexDigit? a) * 16 + (← hexDigit? b)) * 16 + (← hexDigit? c)) * 16 + (← hexDigit? d)

/-- The character of a short escape. -/
def shortEscape? (c : Char) : Option Char :=
  if c = '"' then some '"'
  else if c = '\\' then some '\\'
  else if c = '/' then some '/'
  else if c = 'b' then some '\x08'
  else if c = 'f' then some '\x0c'
  else if c = 'n' then some '\n'
  else if c = 'r' then some '\r'
  else if c = 't' then some '\t'
  else none

/-- Reads the elements of a string up to its closing quote.  Control characters have to be
escaped. -/
def readPieces? : List Char → Option (List Piece × List Char)
  | [] => none
  | '"' :: cs => some ([], cs)
  | '\\' :: 'u' :: a :: b :: c :: d :: cs => do
    let unit ← hexUnit? a b c d
    let (pieces, rest) ← readPieces? cs
    return (.unit unit :: pieces, rest)
  | '\\' :: e :: cs => do
    let c ← shortEscape? e
    let (pieces, rest) ← readPieces? cs
    return (.char c :: pieces, rest)
  | c :: cs =>
    if c.toNat < 0x20 then none
    else do
      let (pieces, rest) ← readPieces? cs
      return (.char c :: pieces, rest)

/-- Whether a unit is the first half of a surrogate pair. -/
def isHighHalf (n : Nat) : Bool := 0xD800 ≤ n && n < 0xDC00

/-- Whether a unit is the second half of a surrogate pair. -/
def isLowHalf (n : Nat) : Bool := 0xDC00 ≤ n && n < 0xE000

/-- The characters of a string, when every half of a surrogate pair has its partner. -/
def charsOf? : List Piece → Option (List Char)
  | [] => some []
  | .char c :: pieces => (charsOf? pieces).map (c :: ·)
  | .unit n :: .unit m :: pieces =>
    if isHighHalf n then
      if isLowHalf m then
        (charsOf? pieces).map (Char.ofNat (0x10000 + (n - 0xD800) * 0x400 + (m - 0xDC00)) :: ·)
      else none
    else if isLowHalf n then none
    else (charsOf? (.unit m :: pieces)).map (Char.ofNat n :: ·)
  | .unit n :: pieces =>
    if isHighHalf n || isLowHalf n then none
    else (charsOf? pieces).map (Char.ofNat n :: ·)

/-- Reads a string after its opening quote. -/
def readString? (cs : List Char) : Option (Text × List Char) :=
  (readPieces? cs).map fun (pieces, rest) => ((charsOf? pieces).map String.ofList, rest)

/-! ### Values -/

mutual

/-- Reads a value at the front.  The first argument bounds the nesting. -/
def readValue? : Nat → List Char → Option (Json × List Char)
  | 0, _ => none
  | depth + 1, cs =>
    match skip cs with
    | 'n' :: 'u' :: 'l' :: 'l' :: rest => some (.null, rest)
    | 't' :: 'r' :: 'u' :: 'e' :: rest => some (.bool true, rest)
    | 'f' :: 'a' :: 'l' :: 's' :: 'e' :: rest => some (.bool false, rest)
    | '"' :: rest => (readString? rest).map fun (s, rest) => (.string s, rest)
    | '[' :: rest =>
      match skip rest with
      | ']' :: rest => some (.array [], rest)
      | rest => (readItems? depth rest).map fun (items, rest) => (.array items, rest)
    | '\x7b' :: rest =>
      match skip rest with
      | '\x7d' :: rest => some (.object [], rest)
      | rest => (readFields? depth rest).map fun (fields, rest) => (.object fields, rest)
    | rest => (readNumber? rest).map fun (n, rest) => (.number n, rest)

/-- Reads the items of an array up to its closing bracket. -/
def readItems? : Nat → List Char → Option (List Json × List Char)
  | 0, _ => none
  | depth + 1, cs => do
    let (item, rest) ← readValue? depth cs
    match skip rest with
    | ',' :: rest =>
      let (items, rest) ← readItems? depth rest
      return (item :: items, rest)
    | ']' :: rest => return ([item], rest)
    | _ => none

/-- Reads the fields of an object up to its closing bracket. -/
def readFields? : Nat → List Char → Option (List (Text × Json) × List Char)
  | 0, _ => none
  | depth + 1, cs =>
    match skip cs with
    | '"' :: rest => do
      let (name, rest) ← readString? rest
      match skip rest with
      | ':' :: rest =>
        let (value, rest) ← readValue? depth rest
        match skip rest with
        | ',' :: rest =>
          let (fields, rest) ← readFields? depth rest
          return ((name, value) :: fields, rest)
        | '\x7d' :: rest => return ([(name, value)], rest)
        | _ => none
      | _ => none
    | _ => none

end

/-- Reads a text that holds one value and nothing else. -/
def parse? (s : String) : Option Json :=
  let cs := s.toList
  match readValue? (cs.length + 1) cs with
  | some (value, rest) => if (skip rest).isEmpty then some value else none
  | none => none

end PowerTables.Json
