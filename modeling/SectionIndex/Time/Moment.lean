import SectionIndex.Text.Basic

/-!
# Moments

A clock reading with its distance from universal time, and the two ways it is written: in blocks
with whole milliseconds, in answers with microseconds if there are any.

## Main definitions

* `Moment` — a clock reading.
* `Moment.utc?` — the same instant in universal time, if its year has four digits.
* `Moment.blockStamp`, `Moment.answerStamp` — the two written forms.
-/

namespace SectionIndex

/-- **A clock reading:** a date of the Gregorian calendar, a time of day, and how many microseconds
the clock is ahead of universal time. -/
structure Moment where
  year : Nat
  month : Nat
  day : Nat
  hour : Nat := 0
  minute : Nat := 0
  second : Nat := 0
  microsecond : Nat := 0
  offset : Int := 0
  deriving DecidableEq, Repr

namespace Moment

/-- Years of 366 days. -/
def isLeap (year : Nat) : Bool :=
  year % 4 == 0 && (year % 100 != 0 || year % 400 == 0)

/-- The lengths of the months of a year. -/
def monthLengths (year : Nat) : List Nat :=
  [31, if isLeap year then 29 else 28, 31, 30, 31, 30, 31, 31, 30, 31, 30, 31]

/-- The days before a year, counted from 1 January of year 1. -/
def daysBeforeYear (year : Nat) : Nat :=
  let y := year - 1
  365 * y + y / 4 - y / 100 + y / 400

/-- The number of a date, with 1 January of year 1 as day 0. -/
def dayNumber (year month day : Nat) : Nat :=
  daysBeforeYear year + ((monthLengths year).take (month - 1)).foldl (· + ·) 0 + (day - 1)

/-- The month and the day of a year, given the lengths of the months that are left, the number of
the first of them and the number of days that are left. -/
def monthAndDay : (lengths : List Nat) → (month days : Nat) → Nat × Nat
  | [], month, days => (month, days + 1)
  | length :: lengths, month, days =>
    if days < length then (month, days + 1) else monthAndDay lengths (month + 1) (days - length)

/-- The year of a day number: cycles of 400, 100, 4 and 1 years are taken off in turn, and the
last day of a leap cycle belongs to its last year. -/
def yearOfDay (n : Nat) : Nat :=
  -- the fourth century of a cycle and the fourth year of four are longer by a day
  let r₄₀₀ := n % 146097
  let c := min (r₄₀₀ / 36524) 3
  let r₁₀₀ := r₄₀₀ - 36524 * c
  let r₄ := r₁₀₀ % 1461
  let y := min (r₄ / 365) 3
  400 * (n / 146097) + 100 * c + 4 * (r₁₀₀ / 1461) + y + 1

/-- The microseconds since the start of year 1, in universal time. -/
def instant (m : Moment) : Int :=
  let seconds := ((dayNumber m.year m.month m.day * 24 + m.hour) * 60 + m.minute) * 60 + m.second
  (seconds * 1000000 + m.microsecond : Nat) - m.offset

/-- The number of microseconds in the years 1 to 9999. -/
def calendarEnd : Nat :=
  daysBeforeYear 10000 * 86400000000

/-- The reading in universal time of an instant. -/
def ofInstant (n : Nat) : Moment :=
  let day := n / 86400000000
  let time := n % 86400000000
  let year := yearOfDay day
  let (month, dayOfMonth) := monthAndDay (monthLengths year) 1 (day - daysBeforeYear year)
  { year := year
    month := month
    day := dayOfMonth
    hour := time / 3600000000
    minute := time / 60000000 % 60
    second := time / 1000000 % 60
    microsecond := time % 1000000 }

/-- **The same instant in universal time**, unless that leaves the years 1 to 9999. -/
def utc? (m : Moment) : Option Moment :=
  -- a clock that shows universal time shows no other year than it is
  if m.offset = 0 then some m
  else if 0 ≤ m.instant ∧ m.instant < calendarEnd then some (ofInstant m.instant.toNat)
  else none

/-- Date and time to the second, in the order that sorts by time. -/
def toSeconds (m : Moment) : Text :=
  Text.ofNatPadded 4 m.year ++ '-' :: Text.ofNatPadded 2 m.month ++ '-' ::
    Text.ofNatPadded 2 m.day ++ 'T' :: Text.ofNatPadded 2 m.hour ++ ':' ::
    Text.ofNatPadded 2 m.minute ++ ':' :: Text.ofNatPadded 2 m.second

/-- **The stamp of a block:** the reading with its whole milliseconds. -/
def stamp (m : Moment) : Text :=
  m.toSeconds ++ '.' :: Text.ofNatPadded 3 (m.microsecond / 1000) ++ ['Z']

/-- The stamp in answers: six digits of the second, or none if there would be only zeros. -/
def fineStamp (m : Moment) : Text :=
  if m.microsecond = 0 then m.toSeconds ++ ['Z']
  else m.toSeconds ++ '.' :: Text.ofNatPadded 6 m.microsecond ++ ['Z']

/-- The stamp of a block, written at any clock: none if the year is out of range. -/
def blockStamp (m : Moment) : Option Text :=
  m.utc?.map stamp

/-- The stamp of an answer, written at any clock. -/
def answerStamp (m : Moment) : Option Text :=
  m.utc?.map fineStamp

end Moment

end SectionIndex
