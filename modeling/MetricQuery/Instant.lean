import MetricQuery.Decimal.Layout

/-!
# Instants

An instant is a number of seconds since the start of the year 1970 in universal
time, and nanoseconds after that second. The nanoseconds may run to two seconds
at the end of a minute, which is how a leap second is told.

The calendar is the Gregorian one in both directions. Days are counted from the
first of March, so that the day added in a leap year comes last, and in eras of
400 years, which all have the same number of days.
-/

namespace MetricQuery

/-- A moment in universal time. -/
structure Instant where
  /-- The seconds since the start of 1970. -/
  seconds : Int
  /-- The nanoseconds after that second. -/
  nanos : Nat := 0
  deriving DecidableEq, Repr

/-- A day of the calendar. -/
structure Day where
  year : Int
  month : Nat
  day : Nat
  deriving DecidableEq, Repr

/-- The day that lies a number of days after the first of January 1970. -/
def Day.ofNumber (number : Int) : Day :=
  let fromMarch := number + 719468
  let era := Int.fdiv fromMarch 146097
  let dayOfEra : Nat := (fromMarch - era * 146097).toNat
  let yearOfEra : Nat :=
    (dayOfEra - dayOfEra / 1460 + dayOfEra / 36524 - dayOfEra / 146096) / 365
  let dayOfYear : Nat := dayOfEra - (365 * yearOfEra + yearOfEra / 4 - yearOfEra / 100)
  let monthFromMarch : Nat := (5 * dayOfYear + 2) / 153
  let day : Nat := dayOfYear - (153 * monthFromMarch + 2) / 5 + 1
  let month : Nat := if monthFromMarch < 10 then monthFromMarch + 3 else monthFromMarch - 9
  let year : Int := yearOfEra + era * 400 + (if month ≤ 2 then 1 else 0)
  ⟨year, month, day⟩

/-- A number in at least the given count of digits. -/
def padded (count n : Nat) : List Char :=
  let digits := Decimal.digitsOf n
  Decimal.zeros (count - digits.length) ++ digits

/-- A year in four digits; a year that needs more or lies before the year zero has a sign. -/
def yearText (year : Int) : List Char :=
  if 0 ≤ year ∧ year ≤ 9999 then padded 4 year.toNat
  else if year < 0 then '-' :: padded 4 year.natAbs
  else '+' :: padded 4 year.natAbs

namespace Instant

/-- The milliseconds since the start of 1970, rounded down. -/
def milliseconds (instant : Instant) : Int :=
  instant.seconds * 1000 + ((instant.nanos / 1000000 : Nat) : Int)

/-- An instant as text: the day, the time of day with milliseconds, and the sign
of universal time. -/
def text (instant : Instant) : String :=
  let dayNumber := Int.fdiv instant.seconds 86400
  let secondOfDay : Nat := (instant.seconds - dayNumber * 86400).toNat
  let day := Day.ofNumber dayNumber
  let leap := instant.nanos / 1000000000
  let second := secondOfDay % 60 + leap
  let milli := instant.nanos % 1000000000 / 1000000
  String.ofList <|
    yearText day.year ++ '-' :: padded 2 day.month ++ '-' :: padded 2 day.day ++
      'T' :: padded 2 (secondOfDay / 3600) ++ ':' :: padded 2 (secondOfDay / 60 % 60) ++
      ':' :: padded 2 second ++ '.' :: padded 3 milli ++ ['Z']

end Instant

end MetricQuery
