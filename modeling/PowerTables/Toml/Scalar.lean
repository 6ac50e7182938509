import PowerTables.Number.Reading
import PowerTables.Toml.Value

/-!
# Scalars of TOML

Strings, numbers, truth values, dates and times.  Every reader takes the longest value at the
front of a text, and gives it with what follows.

## Main definitions

* `Toml.readString?` : the four kinds of strings.
* `Toml.readNumber?` : integers, floats, dates and times.
* `Toml.readWord?` : `true`, `false`, `inf` and `nan`.
-/

namespace PowerTables.Toml

/-- What a reader gives: a value and the characters after it. -/
abbrev Reader (α : Type) := List Char → Option (α × List Char)

/-! ### Blanks and line ends -/

/-- Whether a character is a space or a tab. -/
def isSpace (c : Char) : Bool := c = ' ' || c = '\t'

/-- The characters after spaces and tabs. -/
def skipSpaces (cs : List Char) : List Char := cs.dropWhile isSpace

/-- Whether a character may stand in a comment: no control character but the tab. -/
def isPrintable (c : Char) : Bool := c = '\t' || (0x20 ≤ c.toNat && c.toNat ≠ 0x7F)

/-- The characters after a line end, which is a line feed with or without a carriage return. -/
def afterNewline? : List Char → Option (List Char)
  | '\n' :: rest => some rest
  | '\r' :: '\n' :: rest => some rest
  | _ => none

/-- The characters after a comment, if there is one. -/
def skipComment : List Char → List Char
  | '#' :: rest => rest.dropWhile isPrintable
  | cs => cs

/-- The characters after a word that a text starts with. -/
def afterWord? : List Char → List Char → Option (List Char)
  | [], rest => some rest
  | w :: word, c :: cs => if w = c then afterWord? word cs else none
  | _ :: _, [] => none

/-! ### Strings -/

/-- The digit of a hexadecimal number. -/
def hexDigit? (c : Char) : Option Nat :=
  if '0' ≤ c ∧ c ≤ '9' then some (c.toNat - '0'.toNat)
  else if 'a' ≤ c ∧ c ≤ 'f' then some (c.toNat - 'a'.toNat + 10)
  else if 'A' ≤ c ∧ c ≤ 'F' then some (c.toNat - 'A'.toNat + 10)
  else none

/-- The number of hexadecimal digits. -/
def hexNumber? (digits : List Char) : Option Nat :=
  digits.foldlM (fun n c => (hexDigit? c).map (16 * n + ·)) 0

/-- The character of a number, unless it is half of a surrogate pair or too large. -/
def charOf? (n : Nat) : Option Char := if n.isValidChar then some (Char.ofNat n) else none

/-- The character of a given number of hexadecimal digits. -/
def readCode? (width : Nat) : Reader Char := fun cs =>
  if (cs.take width).length = width then
    ((hexNumber? (cs.take width)).bind charOf?).map fun c => (c, cs.drop width)
  else none

/-- The character of an escape, after its backslash. -/
def readEscape? : Reader Char
  | 'b' :: rest => some ('\x08', rest)
  | 't' :: rest => some ('\t', rest)
  | 'n' :: rest => some ('\n', rest)
  | 'f' :: rest => some ('\x0c', rest)
  | 'r' :: rest => some ('\r', rest)
  | '"' :: rest => some ('"', rest)
  | '\\' :: rest => some ('\\', rest)
  | 'u' :: rest => readCode? 4 rest
  | 'U' :: rest => readCode? 8 rest
  | _ => none

/-- The characters of a string on one line, up to its closing quote.  Only a string in double
quotes has escapes.  The first argument bounds the number of steps. -/
def readLineString? (quote : Char) (escapes : Bool) : Nat → Reader (List Char)
  | 0, _ => none
  | _ + 1, [] => none
  | steps + 1, c :: cs =>
    if c = quote then some ([], cs)
    else if escapes && c = '\\' then do
      let (c, rest) ← readEscape? cs
      let (text, rest) ← readLineString? quote escapes steps rest
      return (c :: text, rest)
    else if isPrintable c then
      (readLineString? quote escapes steps cs).map fun (text, rest) => (c :: text, rest)
    else none

/-- The characters after the blanks and line ends that follow a backslash at the end of a line;
there is at least one line end. -/
def afterJoin? (cs : List Char) : Option (List Char) :=
  (afterNewline? (skipSpaces cs)).map skipJoined
where
  /-- The characters after spaces, tabs and line ends. -/
  skipJoined : List Char → List Char
    | '\r' :: '\n' :: rest => skipJoined rest
    | c :: rest => if isSpace c || c = '\n' then skipJoined rest else c :: rest
    | [] => []

/-- The characters of a string on several lines, up to its three closing quotes; one or two
more quotes in front of these belong to the string.  The first argument bounds the number of
steps. -/
def readBlockString? (quote : Char) (escapes : Bool) : Nat → Reader (List Char)
  | 0, _ => none
  | steps + 1, cs =>
    match cs.takeWhile (· = quote) with
    | [] =>
      match cs with
      | [] => none
      | c :: rest =>
        if escapes && c = '\\' then
          match afterJoin? rest with
          | some rest => readBlockString? quote escapes steps rest
          | none => do
            let (c, rest) ← readEscape? rest
            let (text, rest) ← readBlockString? quote escapes steps rest
            return (c :: text, rest)
        else match afterNewline? cs with
          | some rest =>
            (readBlockString? quote escapes steps rest).map fun (text, rest) =>
              ('\n' :: text, rest)
          | none =>
            if isPrintable c then
              (readBlockString? quote escapes steps rest).map fun (text, rest) =>
                (c :: text, rest)
            else none
    | quotes =>
      let rest := cs.drop quotes.length
      if quotes.length < 3 then
        (readBlockString? quote escapes steps rest).map fun (text, rest) =>
          (quotes ++ text, rest)
      else if quotes.length < 6 then some (quotes.drop 3, rest)
      else some (quotes.take 2, cs.drop 5)

/-- Reads a string in one kind of quotes: three quotes open a string on several lines, whose
first line end does not count. -/
def readQuoted? (quote : Char) (escapes : Bool) : Reader String := fun cs =>
  let steps := cs.length + 1
  let result := match cs with
    | a :: b :: c :: rest =>
      if a = quote ∧ b = quote ∧ c = quote then
        readBlockString? quote escapes steps ((afterNewline? rest).getD rest)
      else readLineString? quote escapes steps (b :: c :: rest)
    | _ :: rest => readLineString? quote escapes steps rest
    | [] => none
  result.map fun (text, rest) => (String.ofList text, rest)

/-- Reads a string on one line. -/
def readLine? (quote : Char) (escapes : Bool) : Reader String := fun cs =>
  (readLineString? quote escapes (cs.length + 1) (cs.drop 1)).map fun (text, rest) =>
    (String.ofList text, rest)

/-- Reads a string of any kind. -/
def readString? : Reader String
  | '"' :: rest => readQuoted? '"' true ('"' :: rest)
  | '\'' :: rest => readQuoted? '\'' false ('\'' :: rest)
  | _ => none

/-! ### Numbers -/

/-- Reads digits of some kind with single underscores between them. -/
def readGrouped? (isDigit : Char → Bool) : Reader (List Char)
  | [] => none
  | c :: cs => if isDigit c then some (go c cs) else none
where
  /-- The digits that follow a digit. -/
  go (digit : Char) : List Char → List Char × List Char
    | [] => ([digit], [])
    | c :: cs =>
      if c = '_' then
        match cs with
        | next :: rest =>
          if isDigit next then
            let (digits, rest) := go next rest
            (digit :: digits, rest)
          else ([digit], c :: cs)
        | [] => ([digit], [c])
      else if isDigit c then
        let (digits, rest) := go c cs
        (digit :: digits, rest)
      else ([digit], c :: cs)

/-- Reads an optional sign. -/
def readSign : List Char → Bool × List Char
  | '+' :: rest => (false, rest)
  | '-' :: rest => (true, rest)
  | cs => (false, cs)

/-- Reads decimal digits without a leading zero, or a single zero. -/
def readWhole? : Reader (List Char)
  | '0' :: rest => some (['0'], rest)
  | cs => readGrouped? Char.isDigit cs

/-- The number of decimal digits. -/
def decimalNumber (digits : List Char) : Nat :=
  Digits.toNat (digits.filterMap Digit.ofChar?)

/-- Reads the exponent of a float. -/
def readExponent? : Reader Int
  | c :: rest =>
    if c = 'e' ∨ c = 'E' then
      let (negative, rest) := readSign rest
      (readGrouped? Char.isDigit rest).map fun (digits, rest) =>
        let n : Int := decimalNumber digits
        (if negative then -n else n, rest)
    else none
  | [] => none

/-- Reads the digits after the point of a float. -/
def readFraction? : Reader (List Char)
  | '.' :: rest => readGrouped? Char.isDigit rest
  | _ => none

/-- Reads a float: digits with a fraction, an exponent or both.  A positive one that is too
large is refused. -/
def readFloat? : Reader Toml := fun cs => do
  let (negative, rest) := readSign cs
  let (whole, rest) ← readWhole? rest
  let (fraction, exponent, rest) ← match readFraction? rest with
    | some (fraction, rest) =>
      match readExponent? rest with
      | some (exponent, rest) => some (fraction, exponent, rest)
      | none => some (fraction, 0, rest)
    | none => (readExponent? rest).map fun (exponent, rest) => ([], exponent, rest)
  let magnitude :=
    Double.ofDecimal (decimalNumber (whole ++ fraction)) (exponent - fraction.length)
  if magnitude.isInf && !negative then none
  else return (.float (Double.withSign negative magnitude), rest)

/-- Reads an infinite float or one that is not a number. -/
def readSpecial? : Reader Toml := fun cs =>
  let (negative, rest) := readSign cs
  match afterWord? "inf".toList rest with
  | some rest => some (.float (Double.withSign negative Double.infinity), rest)
  | none => (afterWord? "nan".toList rest).map fun rest => (.float Double.nan, rest)

/-- The integer, if it fits 64 bits. -/
def integer? (n : Int) : Option Toml := if fitsInt64 n then some (.integer n) else none

/-- Whether a character is a digit of a base up to sixteen. -/
def isDigitOf (base : Nat) (c : Char) : Bool := (hexDigit? c).any (· < base)

/-- Reads the digits of an integer in another base. -/
def readBased? (base : Nat) : Reader Toml := fun cs => do
  let (digits, rest) ← readGrouped? (isDigitOf base) cs
  let n := digits.foldl (fun n c => base * n + (hexDigit? c).getD 0) 0
  return (← integer? n, rest)

/-- Reads an integer: decimal with an optional sign, or in base sixteen, eight or two. -/
def readInteger? : Reader Toml
  | '0' :: 'x' :: rest => readBased? 16 rest
  | '0' :: 'o' :: rest => readBased? 8 rest
  | '0' :: 'b' :: rest => readBased? 2 rest
  | cs => do
    let (negative, rest) := readSign cs
    let (digits, rest) ← readWhole? rest
    let n : Int := decimalNumber digits
    return (← integer? (if negative then -n else n), rest)

/-! ### Dates and times -/

/-- Reads a number of a given width between two bounds. -/
def readBounded? (width least greatest : Nat) : Reader Nat := fun cs =>
  let digits := (cs.take width).takeWhile Char.isDigit
  let n := decimalNumber digits
  if digits.length = width ∧ least ≤ n ∧ n ≤ greatest then some (n, cs.drop width) else none

/-- The number of days of a month. -/
def daysOfMonth (year month : Nat) : Nat :=
  if month = 2 then
    if year % 4 = 0 ∧ (year % 100 ≠ 0 ∨ year % 400 = 0) then 29 else 28
  else if month = 4 ∨ month = 6 ∨ month = 9 ∨ month = 11 then 30 else 31

/-- The characters after a date. -/
def afterDate? (cs : List Char) : Option (List Char) := do
  let (year, rest) ← readBounded? 4 0 9999 cs
  let (month, rest) ← readBounded? 2 1 12 (← afterWord? ['-'] rest)
  let (_, rest) ← readBounded? 2 1 (daysOfMonth year month) (← afterWord? ['-'] rest)
  return rest

/-- The characters after the fraction of a second, if there is one. -/
def skipFraction : List Char → List Char
  | '.' :: c :: rest => if c.isDigit then rest.dropWhile Char.isDigit else '.' :: c :: rest
  | cs => cs

/-- The characters after a time.  A second may be the sixtieth. -/
def afterTime? (cs : List Char) : Option (List Char) := do
  let (_, rest) ← readBounded? 2 0 23 cs
  let (_, rest) ← readBounded? 2 0 59 (← afterWord? [':'] rest)
  let (_, rest) ← readBounded? 2 0 60 (← afterWord? [':'] rest)
  return skipFraction rest

/-- The characters after an offset from universal time, if there is one. -/
def skipOffset : List Char → List Char
  | c :: rest =>
    if c = 'Z' ∨ c = 'z' then rest
    else if c = '+' ∨ c = '-' then
      let after := do
        let (_, rest) ← readBounded? 2 0 23 rest
        let (_, rest) ← readBounded? 2 0 59 (← afterWord? [':'] rest)
        return rest
      after.getD (c :: rest)
    else c :: rest
  | [] => []

/-- Whether a character stands between a date and a time. -/
def isTimeMark (c : Char) : Bool := c = 'T' || c = 't' || c = ' '

/-- Reads a date, a time, or both with an optional offset. -/
def readMoment? : Reader Toml := fun cs =>
  match afterDate? cs with
  | none => (afterTime? cs).map (.moment, ·)
  | some rest =>
    match rest with
    | c :: time =>
      if isTimeMark c then some (.moment, ((afterTime? time).map skipOffset).getD rest)
      else some (.moment, rest)
    | [] => some (.moment, [])

/-- Reads a date, a time or a number. -/
def readNumber? : Reader Toml := fun cs =>
  readMoment? cs <|> readFloat? cs <|> readSpecial? cs <|> readInteger? cs

/-- Reads a truth value, or a float that is a word. -/
def readWord? : Reader Toml := fun cs =>
  ((afterWord? "true".toList cs).map (.boolean true, ·)) <|>
    ((afterWord? "false".toList cs).map (.boolean false, ·)) <|> readSpecial? cs

end PowerTables.Toml
