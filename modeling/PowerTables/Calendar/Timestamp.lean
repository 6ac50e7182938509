import PowerTables.Calendar.Instant
import PowerTables.Text.Blank

/-!
# Reading timestamps

A timestamp has a date, a time of day and an offset from universal time, as in
`2018-01-01T11:00:00+01:00`.  The reader is lenient about blanks between the parts and about
missing leading zeros.

## Main definitions

* `Instant.parse?` : the instant of a timestamp.
-/

namespace PowerTables.Instant

/-- Reads at least one digit and at most `width` of them; blanks in front do not count. -/
def readField? (width : Nat) (cs : List Char) : Option (Nat × List Char) :=
  let cs := Text.skipBlanks cs
  match Digits.takeFront (cs.take width) with
  | ([], _) => none
  | (ds, rest) => some (Digits.toNat ds, rest ++ cs.drop width)

/-- Reads a year: up to four digits, or any number of them after a sign. -/
def readYear? (cs : List Char) : Option (Int × List Char) :=
  match Text.skipBlanks cs with
  | '-' :: rest =>
    match Digits.takeFront rest with
    | ([], _) => none
    | (ds, rest) => some (-(Digits.toNat ds : Int), rest)
  | '+' :: rest =>
    match Digits.takeFront rest with
    | ([], _) => none
    | (ds, rest) => some ((Digits.toNat ds : Int), rest)
  | cs => (readField? 4 cs).map fun (year, rest) => ((year : Int), rest)

/-- Reads a separator; blanks in front do not count. -/
def readSeparator? (separator : Char) (cs : List Char) : Option (List Char) :=
  match Text.skipBlanks cs with
  | c :: rest => if c = separator then some rest else none
  | [] => none

/-- Reads the letter or the blank between date and time. -/
def readTimeMark? : List Char → Option (List Char)
  | c :: rest => if c = 't' ∨ c = 'T' ∨ c = ' ' then some rest else none
  | [] => none

/-- Reads a fraction of a second in nanoseconds, or nothing; digits after the ninth are
skipped. -/
def readNanos? : List Char → Option (Nat × List Char)
  | '.' :: cs =>
    match Digits.takeFront cs with
    | ([], _) => none
    | (ds, rest) =>
      let kept := ds.take 9
      some (Digits.toNat kept * Nat.pow 10 (9 - kept.length), rest)
  | cs => some (0, cs)

/-- Reads two digits. -/
def readTwo? : List Char → Option (Nat × List Char)
  | a :: b :: rest => do
    return ((← Digit.ofChar? a).val * 10 + (← Digit.ofChar? b).val, rest)
  | _ => none

/-- Reads hours and minutes of an offset, in seconds; colons and blanks between them do not
count. -/
def readOffsetSize? (cs : List Char) : Option (Nat × List Char) := do
  let (hours, rest) ← readTwo? cs
  let (minutes, rest) ← readTwo? (rest.dropWhile fun c => c = ':' || Text.isBlank c)
  let seconds := hours * 3600 + minutes * 60
  if minutes < 60 ∧ seconds < secondsPerDay then return (seconds, rest) else none

/-- Reads an offset from universal time, in seconds: `Z`, `UTC`, or a sign with hours and
minutes. -/
def readOffset? (cs : List Char) : Option (Int × List Char) :=
  if Text.lower (String.ofList (cs.take 3)) = "utc" then some (0, cs.drop 3)
  else match cs with
    | c :: rest =>
      if c = 'z' ∨ c = 'Z' then some (0, rest)
      else if c = '+' then
        (readOffsetSize? rest).map fun (size, rest) => ((size : Int), rest)
      else if c = '-' ∨ c = '−' then
        (readOffsetSize? rest).map fun (size, rest) => (-(size : Int), rest)
      else none
    | [] => none

/-- The instant of a local date and time at an offset.  The second 60 is a leap second. -/
def ofLocal? (date : CivilDate) (hour minute second nanos : Nat) (offset : Int) :
    Option Instant :=
  if date.isValid ∧ hour < 24 ∧ minute < 60 ∧ second ≤ 60 then
    let leap := second / 60
    let t := shiftBack
      { day := date.dayNumber
        second := hour * 3600 + minute * 60 + (second - leap)
        nanosecond := nanos + leap * nanosPerSecond } offset
    if t.isValid then some t else none
  else none

/-- The instant of a timestamp. -/
def parse? (s : String) : Option Instant := do
  let (year, rest) ← readYear? s.toList
  let (month, rest) ← readField? 2 (← readSeparator? '-' rest)
  let (day, rest) ← readField? 2 (← readSeparator? '-' rest)
  let (hour, rest) ← readField? 2 (← readTimeMark? rest)
  let (minute, rest) ← readField? 2 (← readSeparator? ':' rest)
  let (second, rest) ← readField? 2 (← readSeparator? ':' rest)
  let (nanos, rest) ← readNanos? rest
  let (offset, rest) ← readOffset? (Text.skipBlanks rest)
  if (Text.skipBlanks rest).isEmpty then
    ofLocal? ⟨year, month, day⟩ hour minute second nanos offset
  else none

end PowerTables.Instant
