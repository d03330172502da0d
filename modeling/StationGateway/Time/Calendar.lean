/-!
# The Gregorian calendar

Dates of the proleptic Gregorian calendar and their day numbers, counted from 1970-01-01. Years are
counted from March, so that the leap day is the last day of its year.
-/

namespace StationGateway.Time

/-- A date of the proleptic Gregorian calendar. -/
structure Date where
  /-- The year, with a year zero. -/
  year : Int
  /-- The month from 1 to 12. -/
  month : Nat
  /-- The day of the month from 1. -/
  day : Nat
  deriving DecidableEq, Repr, Inhabited

/-- Whether a year has 366 days. -/
def isLeapYear (year : Int) : Bool :=
  year % 4 = 0 && (year % 100 ≠ 0 || year % 400 = 0)

/-- The number of days of a month. -/
def daysInMonth (year : Int) (month : Nat) : Nat :=
  match month with
  | 2 => if isLeapYear year then 29 else 28
  | 4 => 30
  | 6 => 30
  | 9 => 30
  | 11 => 30
  | _ => 31

/-- Whether the calendar has such a date. -/
def Date.isValid (date : Date) : Bool :=
  1 ≤ date.month && date.month ≤ 12 && 1 ≤ date.day && date.day ≤ daysInMonth date.year date.month

/-- The days from 1970-01-01 to a date. -/
def Date.dayNumber (date : Date) : Int :=
  let year := if date.month ≤ 2 then date.year - 1 else date.year
  let monthFromMarch : Nat := (date.month + 9) % 12
  let dayOfYear : Nat := (153 * monthFromMarch + 2) / 5 + date.day - 1
  year * 365 + year / 4 - year / 100 + year / 400 + dayOfYear - 719468

/-- The date that many days after 1970-01-01. -/
def Date.ofDayNumber (number : Int) : Date :=
  let shifted := number + 719468
  let era := shifted / 146097
  let dayOfEra := (shifted % 146097).toNat
  let yearOfEra := (dayOfEra - dayOfEra / 1460 + dayOfEra / 36524 - dayOfEra / 146096) / 365
  let dayOfYear := dayOfEra - (365 * yearOfEra + yearOfEra / 4 - yearOfEra / 100)
  let monthFromMarch := (5 * dayOfYear + 2) / 153
  let month := if monthFromMarch < 10 then monthFromMarch + 3 else monthFromMarch - 9
  let year := era * 400 + yearOfEra
  { year := if month ≤ 2 then year + 1 else year
    month := month
    day := dayOfYear - (153 * monthFromMarch + 2) / 5 + 1 }

end StationGateway.Time
