import TabFormat.Text.Basic

/-!
# Civil time

Seconds since the start of 1970 in universal time are split into a date of the Gregorian calendar,
continued in both directions, and a time of day; leap seconds are not counted. Three ways of writing
such a time are given: the date line of mail and web headers, the plain date and time, and the stamp
of a log.
-/

namespace TabFormat

/-- A date of the Gregorian calendar. -/
structure CivilDate where
  /-- The year; the one before year 1 is year 0. -/
  year : Int
  /-- The month, from 1 on. -/
  month : Nat
  /-- The day of the month, from 1 on. -/
  day : Nat
deriving DecidableEq, Repr

/-- The date that lies a number of days after the first of January 1970.

Years are taken to start in March, so that the leap day is the last of its year, and are counted
in cycles of 400 years with 146097 days. -/
def CivilDate.ofDays (days : Int) : CivilDate :=
  let shifted := days + 719468
  let cycle := shifted / 146097
  let dayOfCycle := (shifted % 146097).toNat
  let yearOfCycle :=
    (dayOfCycle - dayOfCycle / 1460 + dayOfCycle / 36524 - dayOfCycle / 146096) / 365
  let dayOfYear := dayOfCycle - (365 * yearOfCycle + yearOfCycle / 4 - yearOfCycle / 100)
  let monthFromMarch := (5 * dayOfYear + 2) / 153
  let month := if monthFromMarch < 10 then monthFromMarch + 3 else monthFromMarch - 9
  { year := yearOfCycle + cycle * 400 + (if month ≤ 2 then 1 else 0)
    month
    day := dayOfYear - (153 * monthFromMarch + 2) / 5 + 1 }

example : CivilDate.ofDays 0 = ⟨1970, 1, 1⟩ ∧ CivilDate.ofDays 11016 = ⟨2000, 2, 29⟩ ∧
    CivilDate.ofDays (-1) = ⟨1969, 12, 31⟩ := by decide

/-- A moment in universal time. -/
structure CivilTime where
  /-- The date. -/
  date : CivilDate
  /-- The days since Sunday. -/
  weekday : Nat
  /-- The hour of the day. -/
  hour : Nat
  /-- The minute of the hour. -/
  minute : Nat
  /-- The second of the minute. -/
  second : Nat
deriving DecidableEq, Repr

namespace CivilTime

/-- The moment that lies a number of seconds after the start of 1970. -/
def ofSeconds (seconds : Int) : CivilTime :=
  let days := seconds / 86400
  let ofDay := (seconds % 86400).toNat
  { date := .ofDays days
    weekday := ((days + 4) % 7).toNat
    hour := ofDay / 3600
    minute := ofDay / 60 % 60
    second := ofDay % 60 }

/-- A number with leading zeros up to a width. -/
def padded (width n : Nat) : Text :=
  (Text.ofNat n).leftpad width '0'

/-- A year has at least four digits, and a sign if it is negative or has more than four. -/
def yearText (year : Int) : Text :=
  if year < 0 then '-' :: padded 4 year.natAbs
  else if 9999 < year then '+' :: padded 4 year.natAbs
  else padded 4 year.natAbs

/-- The names of the days of the week. -/
def weekdays : List String := ["Sun", "Mon", "Tue", "Wed", "Thu", "Fri", "Sat"]

/-- The names of the months. -/
def months : List String :=
  ["Jan", "Feb", "Mar", "Apr", "May", "Jun", "Jul", "Aug", "Sep", "Oct", "Nov", "Dec"]

/-- The time of day, as hours, minutes and seconds. -/
def clock (t : CivilTime) : Text :=
  Text.join [':'] [padded 2 t.hour, padded 2 t.minute, padded 2 t.second]

/-- The date line of a header, as in `Tue, 05 Mar 2024 07:08:09 GMT`. -/
def header (t : CivilTime) : Text :=
  ((weekdays.getD t.weekday "").toList ++ [',']) ++ ' ' ::
    Text.join [' '] [padded 2 t.date.day, (months.getD (t.date.month - 1) "").toList,
      yearText t.date.year, t.clock, "GMT".toList]

/-- The date and the time, as in `2024-03-05 07:08:09`. -/
def plain (t : CivilTime) : Text :=
  Text.join ['-'] [yearText t.date.year, padded 2 t.date.month, padded 2 t.date.day] ++
    ' ' :: t.clock

/-- The date and the time without spaces, as in `2024-03-05T07:08:09Z`. -/
def stamp (t : CivilTime) : Text :=
  Text.join ['-'] [yearText t.date.year, padded 2 t.date.month, padded 2 t.date.day] ++
    'T' :: t.clock ++ ['Z']

end CivilTime

end TabFormat
