import StationGateway.Error
import StationGateway.Time.Instant

/-!
# Date-times in path segments

The notation `yyyy-MM-dd['T'[HH][:mm][:ss][.SSS]][offset][zone]`. Missing fields of the time are
zero and a missing offset means UTC. A refusal names the byte at which reading stopped; every byte
before it is an ASCII character. -/

namespace StationGateway.Time

/-- Why a text is no date-time. -/
inductive SegmentError where
  /-- A field of `width` digits is missing. -/
  | missingDigits (width : Nat) (field : String) (position : Nat)
  /-- A hyphen of the date is missing. -/
  | missingHyphen (position : Nat)
  /-- The calendar has no such date. -/
  | noSuchDate (year month day : Nat)
  /-- The day has no such time. -/
  | noSuchTime (hour minute second millis : Nat)
  /-- The offset is a day or more. -/
  | offsetTooLarge (hours minutes : Nat)
  /-- The rest of the text is no zone name. -/
  | unknownZone (rest : String)
  deriving DecidableEq, Repr

/-- The wording of a refusal. -/
def SegmentError.message : SegmentError → String
  | missingDigits width field position =>
      "expected " ++ toString width ++ " digit " ++ field ++ " at index " ++ toString position
  | missingHyphen position => "expected '-' at index " ++ toString position
  | noSuchDate year month day =>
      "invalid calendar date " ++ padded 4 year ++ "-" ++ padded 2 month ++ "-" ++ padded 2 day
  | noSuchTime hour minute second millis =>
      "invalid time " ++ padded 2 hour ++ ":" ++ padded 2 minute ++ ":" ++ padded 2 second ++ "." ++
        padded 3 millis
  | offsetTooLarge hours minutes => "offset out of range: " ++ padded 2 hours ++ padded 2 minutes
  | unknownZone rest => "unknown zone '" ++ rest ++ "'"

/-- A place in a text. -/
structure Place where
  /-- The text ahead. -/
  rest : List Char
  /-- The number of bytes before it. -/
  position : Nat

namespace Place

/-- Steps over a character, if it is the next one. -/
def eat? (char : Char) (place : Place) : Option Place :=
  match place.rest with
  | first :: rest => if first = char then some ⟨rest, place.position + 1⟩ else none
  | [] => none

/-- The number that the next `count` digits spell, with `value` in front of them. -/
def digitsAfter? (value : Nat) : Nat → Place → Option (Nat × Place)
  | 0, place => some (value, place)
  | count + 1, place =>
      match place.rest with
      | first :: rest =>
          if first.isDigit then
            digitsAfter? (10 * value + (first.toNat - 48)) count ⟨rest, place.position + 1⟩
          else none
      | [] => none

/-- The number that exactly `count` digits spell. -/
def digits? (count : Nat) (place : Place) : Option (Nat × Place) :=
  digitsAfter? 0 count place

/-- The number that exactly `count` digits spell, which must be there. -/
def digits (count : Nat) (field : String) (place : Place) : Except SegmentError (Nat × Place) :=
  match place.digits? count with
  | some found => .ok found
  | none => .error (.missingDigits count field place.position)

/-- Steps over the hyphen of a date. -/
def hyphen (place : Place) : Except SegmentError Place :=
  match place.eat? '-' with
  | some place => .ok place
  | none => .error (.missingHyphen place.position)

/-- A field that is there if `mark` stands in front of it, and zero otherwise. -/
def markedDigits (mark : Char) (count : Nat) (field : String) (place : Place) :
    Except SegmentError (Nat × Place) :=
  match place.eat? mark with
  | some place => place.digits count field
  | none => .ok (0, place)

end Place

/-- Reads the date. -/
def readDate (place : Place) : Except SegmentError (Date × Place) := do
  let (year, place) ← place.digits 4 "year"
  let place ← place.hyphen
  let (month, place) ← place.digits 2 "month"
  let place ← place.hyphen
  let (day, place) ← place.digits 2 "day"
  let date : Date := ⟨year, month, day⟩
  if date.isValid then .ok (date, place) else .error (.noSuchDate year month day)

/-- Reads the time, as milliseconds since midnight. The first `:dd` is the minute. -/
def readTime (place : Place) : Except SegmentError (Nat × Place) :=
  match place.eat? 'T' with
  | none => .ok (0, place)
  | some place => do
      let (hour, place) := (place.digits? 2).getD (0, place)
      let (minute, place) ← place.markedDigits ':' 2 "minute"
      let (second, place) ← place.markedDigits ':' 2 "second"
      let (millis, place) ← place.markedDigits '.' 3 "fraction"
      if hour < 24 ∧ minute < 60 ∧ second < 60 then
        .ok (((hour * 60 + minute) * 60 + second) * 1000 + millis, place)
      else .error (.noSuchTime hour minute second millis)

/-- Reads the digits of an offset after its sign, in seconds. -/
def readOffsetDigits (place : Place) : Except SegmentError (Nat × Place) := do
  let (hours, place) ← place.digits 2 "offset hour"
  let place := (place.eat? ':').getD place
  let (minutes, place) ← place.digits 2 "offset minute"
  let seconds := hours * 3600 + minutes * 60
  if seconds < 86400 then .ok (seconds, place) else .error (.offsetTooLarge hours minutes)

/-- Reads the offset from UTC in seconds, zero if there is none. -/
def readOffset (place : Place) : Except SegmentError (Int × Place) :=
  match place.eat? '+' with
  | some place => do
      let (seconds, place) ← readOffsetDigits place
      .ok (seconds, place)
  | none =>
      match place.eat? '-' with
      | some place => do
          let (seconds, place) ← readOffsetDigits place
          .ok (-(seconds : Int), place)
      | none => .ok (0, place)

/-- The names of UTC that may end a date-time. -/
def zoneNames : List String := ["Z", "UTC", "GMT"]

/-- Reads a date-time, given as the characters of a whole path segment. -/
def readSegment (text : List Char) : Except SegmentError Instant := do
  let (date, place) ← readDate ⟨text, 0⟩
  let (time, place) ← readTime place
  let (offset, place) ← readOffset place
  let rest := String.ofList place.rest
  if rest = "" ∨ rest ∈ zoneNames then
    .ok ⟨date.dayNumber * millisPerDay + time - offset * 1000⟩
  else .error (.unknownZone rest)

/-- The notation as messages show it. -/
def segmentPattern : String := "yyyy-MM-dd[T[HH][:mm][:ss][.SSS]][Z][z]"

/-- The instant that a path segment or parameter spells. -/
def readMoment (text : String) : Except GatewayError Instant :=
  (readSegment text.toList).mapError fun error =>
    .dateParse segmentPattern (s!"Text '{text}' could not be parsed: " ++ error.message)

/-- The instant that an optional parameter spells. -/
def readOptionalMoment : Option String → Except GatewayError (Option Instant)
  | some text => (readMoment text).map some
  | none => .ok none

end StationGateway.Time
