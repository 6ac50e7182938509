import PowerTables.Number.Digits

/-!
# Instants

A point in time, to the nanosecond, in universal time and in the Gregorian calendar, which is
taken to hold for all years.

## Main definitions

* `CivilDate` : year, month and day.
* `CivilDate.dayNumber`, `CivilDate.ofDayNumber` : dates as days since the start of 1970.
* `Instant` : a day with a time of day.
* `Instant.text` : the printed form `2018-01-01T11:00:00Z`.
-/

namespace PowerTables

/-- A date of the Gregorian calendar. -/
structure CivilDate where
  year : Int
  month : Nat
  day : Nat
  deriving DecidableEq, Repr

namespace CivilDate

/-- Whether a year has a leap day. -/
def isLeapYear (year : Int) : Bool :=
  year % 4 == 0 && (year % 100 != 0 || year % 400 == 0)

/-- The number of days of a month. -/
def daysInMonth (year : Int) (month : Nat) : Nat :=
  if month = 2 then (if isLeapYear year then 29 else 28)
  else if month = 4 ∨ month = 6 ∨ month = 9 ∨ month = 11 then 30
  else 31

/-- The least and the greatest year of a date. -/
def yearRange : Int × Int := (-262143, 262142)

/-- Whether there is such a day, in a year that can be represented. -/
def isValid (d : CivilDate) : Bool :=
  yearRange.1 ≤ d.year && d.year ≤ yearRange.2 && 1 ≤ d.month && d.month ≤ 12 &&
    1 ≤ d.day && d.day ≤ daysInMonth d.year d.month

/-- The days from the start of 1970 to a date.  Years are counted from March on, so that a leap
day is the last of its year, and the calendar repeats after 400 years. -/
def dayNumber (d : CivilDate) : Int :=
  let year := if d.month ≤ 2 then d.year - 1 else d.year
  let era := year / 400
  let yearOfEra := year - era * 400
  let month : Int := (d.month + 9) % 12
  let dayOfYear := (153 * month + 2) / 5 + d.day - 1
  let dayOfEra := yearOfEra * 365 + yearOfEra / 4 - yearOfEra / 100 + dayOfYear
  era * 146097 + dayOfEra - 719468

/-- The date that many days after the start of 1970. -/
def ofDayNumber (days : Int) : CivilDate :=
  let shifted := days + 719468
  let era := shifted / 146097
  let dayOfEra := shifted - era * 146097
  let yearOfEra := (dayOfEra - dayOfEra / 1460 + dayOfEra / 36524 - dayOfEra / 146096) / 365
  let dayOfYear := dayOfEra - (365 * yearOfEra + yearOfEra / 4 - yearOfEra / 100)
  let month := (5 * dayOfYear + 2) / 153
  let day := dayOfYear - (153 * month + 2) / 5 + 1
  let civilMonth := if month < 10 then month + 3 else month - 9
  let year := yearOfEra + era * 400
  { year := if civilMonth ≤ 2 then year + 1 else year
    month := civilMonth.toNat
    day := day.toNat }

/-- The printed form of a year: four digits, and a sign when it has more or is negative. -/
def yearText (year : Int) : String :=
  if 0 ≤ year ∧ year ≤ 9999 then paddedText 4 year.toNat
  else (if year < 0 then "-" else "+") ++ paddedText 4 year.natAbs

/-- The printed form `2018-01-01`. -/
def text (d : CivilDate) : String :=
  s!"{yearText d.year}-{paddedText 2 d.month}-{paddedText 2 d.day}"

end CivilDate

/-- A point in time.  A nanosecond from one thousand million on lies in a leap second after the
given second. -/
structure Instant where
  /-- The days since the start of 1970. -/
  day : Int
  /-- The second of the day. -/
  second : Nat
  nanosecond : Nat := 0
  deriving DecidableEq, Repr

namespace Instant

/-- The seconds of a day. -/
def secondsPerDay : Nat := 86400

/-- The nanoseconds of a second. -/
def nanosPerSecond : Nat := 1000000000

/-- The start of 1970. -/
def epoch : Instant := ⟨0, 0, 0⟩

/-- The start of an hour of a day. -/
def ofDateHour (date : CivilDate) (hour : Nat) : Instant := ⟨date.dayNumber, hour * 3600, 0⟩

/-- The date of an instant. -/
def date (t : Instant) : CivilDate := .ofDayNumber t.day

/-- The fraction of a second in groups of three digits, as many as are needed. -/
def fractionText (nanos : Nat) : String :=
  if nanos = 0 then ""
  else if nanos % 1000000 = 0 then "." ++ paddedText 3 (nanos / 1000000)
  else if nanos % 1000 = 0 then "." ++ paddedText 6 (nanos / 1000)
  else "." ++ paddedText 9 nanos

/-- The printed form `11:00`. -/
def hourMinuteText (t : Instant) : String :=
  s!"{paddedText 2 (t.second / 3600)}:{paddedText 2 (t.second / 60 % 60)}"

/-- The printed form `2018-01-01T11:00:00Z`; a leap second is the second 60. -/
def text (t : Instant) : String :=
  let leap := t.nanosecond / nanosPerSecond
  let second := paddedText 2 (t.second % 60 + leap)
  let fraction := fractionText (t.nanosecond % nanosPerSecond)
  s!"{t.date.text}T{t.hourMinuteText}:{second}{fraction}Z"

/-- The printed form `2018-01-01 11:00`. -/
def minuteText (t : Instant) : String := s!"{t.date.text} {t.hourMinuteText}"

/-- The instant some seconds earlier, for an instant given as day, second and nanosecond. -/
def shiftBack (t : Instant) (seconds : Int) : Instant :=
  let total := (t.second : Int) - seconds
  { day := t.day + total / secondsPerDay
    second := (total % secondsPerDay).toNat
    nanosecond := t.nanosecond }

/-- Whether the date of an instant can be represented. -/
def isValid (t : Instant) : Bool := t.date.isValid

end Instant

end PowerTables
