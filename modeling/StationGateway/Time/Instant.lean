import StationGateway.Time.Calendar

/-!
# Instants

Points in time, in milliseconds since 1970-01-01 00:00 UTC, with their calendar date and their
written form.
-/

namespace StationGateway.Time

/-- The milliseconds of a day. -/
def millisPerDay : Int := 86400000

/-- A point in time. -/
structure Instant where
  /-- Milliseconds since 1970-01-01 00:00 UTC. -/
  millis : Int
  deriving DecidableEq, Repr, Inhabited

namespace Instant

/-- The number of the UTC day that an instant falls on. -/
def dayNumber (instant : Instant) : Int :=
  instant.millis / millisPerDay

/-- The UTC date of an instant. -/
def date (instant : Instant) : Date :=
  Date.ofDayNumber instant.dayNumber

/-- Microseconds since 1970-01-01 00:00 UTC. -/
def micros (instant : Instant) : Int :=
  instant.millis * 1000

end Instant

/-- A number with zeros in front up to a width. -/
def padded (width : Nat) (number : Nat) : String :=
  let digits := Nat.toDigits 10 number
  String.ofList (List.replicate (width - digits.length) '0' ++ digits)

/-- A year with four digits; outside 0 to 9999 with its sign. -/
def yearText (year : Int) : String :=
  if year < 0 then "-" ++ padded 4 year.natAbs
  else if year > 9999 then "+" ++ padded 4 year.natAbs
  else padded 4 year.natAbs

/-- The RFC 3339 form in UTC, with `zone` as the name of the offset and three digits of fraction
only where there is one. -/
def Instant.text (zone : String) (instant : Instant) : String :=
  let date := instant.date
  let ofDay := (instant.millis % millisPerDay).toNat
  let fraction := ofDay % 1000
  yearText date.year ++ "-" ++ padded 2 date.month ++ "-" ++ padded 2 date.day ++ "T" ++
    padded 2 (ofDay / 3600000) ++ ":" ++ padded 2 (ofDay / 60000 % 60) ++ ":" ++
    padded 2 (ofDay / 1000 % 60) ++ (if fraction = 0 then "" else "." ++ padded 3 fraction) ++ zone

/-- The form with the offset written as digits. -/
def Instant.rfc3339 (instant : Instant) : String :=
  instant.text "+00:00"

/-- The form with the offset written as a letter. -/
def Instant.rfc3339Zulu (instant : Instant) : String :=
  instant.text "Z"

/-- The whole days between the UTC dates of two instants. -/
def daysBetween (first last : Instant) : Int :=
  last.dayNumber - first.dayNumber

end StationGateway.Time
