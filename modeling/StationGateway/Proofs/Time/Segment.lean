import StationGateway.Proofs.Time.Calendar
import StationGateway.Proofs.Time.Field

/-!
# The written form of date-times

A grammar for date-times, in which each part that may be missing is an option, and the instants that
its words mean. Reading accepts exactly its words, although it never goes back: what may follow a part
does not begin as a missing one would. -/

namespace StationGateway.Time

/-! ## The grammar -/

/-- The text of a date. -/
def dateText (year month day : Nat) : List Char :=
  (padded 4 year).toList ++ '-' :: ((padded 2 month).toList ++ '-' :: (padded 2 day).toList)

/-- A time of day as it is written, in which every field may be missing. -/
structure Clock where
  hour : Option Nat
  minute : Option Nat
  second : Option Nat
  millis : Option Nat
  hour_lt : hour.getD 0 < 24
  minute_lt : minute.getD 0 < 60
  second_lt : second.getD 0 < 60
  millis_lt : millis.getD 0 < 1000
  /-- The first field behind a colon is the minute. -/
  minute_first : second.isSome = true → minute.isSome = true

namespace Clock

def text (clock : Clock) : List Char :=
  'T' :: (fieldText [] 2 clock.hour ++ (fieldText [':'] 2 clock.minute ++
    (fieldText [':'] 2 clock.second ++ fieldText ['.'] 3 clock.millis)))

/-- The milliseconds since midnight. -/
def ofDay (clock : Clock) : Nat :=
  clock.hour.getD 0 * 3600000 + clock.minute.getD 0 * 60000 + clock.second.getD 0 * 1000 +
    clock.millis.getD 0

end Clock

/-- An offset from UTC as it is written. -/
structure Offset where
  /-- Whether local time is behind UTC. -/
  west : Bool
  hours : Nat
  minutes : Nat
  /-- Whether a colon stands between hours and minutes. -/
  colon : Bool
  hours_lt : hours < 100
  minutes_lt : minutes < 100
  below_day : hours * 60 + minutes < 24 * 60

namespace Offset

def text (offset : Offset) : List Char :=
  (if offset.west then '-' else '+') :: ((padded 2 offset.hours).toList ++
    ((if offset.colon then [':'] else []) ++ (padded 2 offset.minutes).toList))

/-- The seconds that local time is ahead of UTC. -/
def seconds (offset : Offset) : Int :=
  (if offset.west then -1 else 1) * (offset.hours * 3600 + offset.minutes * 60 : Nat)

end Offset

/-- A date-time as it is written. -/
structure Written where
  year : Nat
  month : Nat
  day : Nat
  clock : Option Clock
  offset : Option Offset
  zone : String
  year_lt : year < 10000
  exists_date : (⟨year, month, day⟩ : Date).isValid = true
  zone_mem : zone ∈ ["", "Z", "UTC", "GMT"]

namespace Written

def text (written : Written) : List Char :=
  dateText written.year written.month written.day ++
    ((written.clock.map Clock.text).getD [] ++
      ((written.offset.map Offset.text).getD [] ++ written.zone.toList))

/-- The local date and time without the offset: days from the epoch and milliseconds of the day. -/
def instant (written : Written) : Instant where
  millis := ((⟨written.year, written.month, written.day⟩ : Date).count - epoch.count : Int) *
      millisPerDay + (written.clock.map Clock.ofDay).getD 0 -
        (written.offset.map Offset.seconds).getD 0 * 1000

end Written

/-! ## Parts of a date-time -/

section

variable {rest : List Char} {place : Place}

theorem leaves_readDate_iff {date : Date} : Leaves (readDate place) date rest ↔
    ∃ year month day : Nat, year < 10000 ∧ date = ⟨year, month, day⟩ ∧ date.isValid = true ∧
      place.rest = dateText year month day ++ rest := by
  rw [readDate]
  constructor
  · intro leaves
    obtain ⟨year, afterYear, year_read, leaves⟩ := leaves_bind_iff.mp leaves
    obtain ⟨year_lt, year_eq⟩ := (Place.leaves_digits_iff (by omega)).mp ⟨_, year_read⟩
    obtain ⟨beforeMonth, hyphen_eq, -, leaves⟩ := Place.leaves_hyphen_bind_iff.mp leaves
    obtain ⟨month, afterMonth, month_read, leaves⟩ := leaves_bind_iff.mp leaves
    obtain ⟨-, month_eq⟩ := (Place.leaves_digits_iff (by omega)).mp ⟨_, month_read⟩
    obtain ⟨beforeDay, second_eq, -, leaves⟩ := Place.leaves_hyphen_bind_iff.mp leaves
    obtain ⟨day, afterDay, day_read, leaves⟩ := leaves_bind_iff.mp leaves
    obtain ⟨-, day_eq⟩ := (Place.leaves_digits_iff (by omega)).mp ⟨_, day_read⟩
    obtain ⟨valid, rfl, rfl⟩ := leaves_ite_iff.mp leaves
    refine ⟨year, month, day, year_lt, rfl, valid, ?_⟩
    rw [year_eq, hyphen_eq, month_eq, second_eq, day_eq, dateText]
    simp
  · rintro ⟨year, month, day, year_lt, rfl, valid, rest_eq⟩
    obtain ⟨month_le, day_le⟩ := le_of_isValid valid
    have month_lt : month < 10 ^ 2 := by
      dsimp only at month_le
      omega
    have day_lt : day < 10 ^ 2 := by
      dsimp only at day_le
      omega
    have year_read : Leaves (place.digits 4 "year") year ('-' :: ((padded 2 month).toList ++
        '-' :: ((padded 2 day).toList ++ rest))) := by
      refine (Place.leaves_digits_iff (by omega)).mpr ⟨year_lt, ?_⟩
      rw [rest_eq, dateText]
      simp
    apply year_read.bind
    intro position
    refine Place.leaves_hyphen_bind_iff.mpr ⟨⟨_, position + 1⟩, rfl, rfl, ?_⟩
    apply Leaves.bind (Place.leaves_padded "month" Nat.two_pos month_lt _ _)
    intro position
    refine Place.leaves_hyphen_bind_iff.mpr ⟨⟨_, position + 1⟩, rfl, rfl, ?_⟩
    apply Leaves.bind (Place.leaves_padded "day" Nat.two_pos day_lt _ _)
    intro position
    exact leaves_ite_iff.mpr ⟨valid, rfl, rfl⟩

/-- What ends a time: no field of it begins so. -/
def EndsTime (rest : List Char) : Prop :=
  ∀ char ∈ rest.head?, char ≠ 'T' ∧ char ≠ ':' ∧ char ≠ '.' ∧ char.isDigit = false

theorem exists_clock {ahead : List Char} {position millis : Nat}
    (leaves : Leaves (readTime ⟨'T' :: ahead, position⟩) millis rest) :
    ∃ clock : Clock, 'T' :: ahead = clock.text ++ rest ∧ clock.ofDay = millis := by
  have eaten : Place.eat? 'T' ⟨'T' :: ahead, position⟩ = some ⟨ahead, position + 1⟩ := rfl
  rw [readTime, eaten] at leaves
  dsimp only at leaves
  obtain ⟨hour, hour_eq, ahead_eq⟩ := @Place.exists_unmarked 2 ⟨ahead, position + 1⟩ (by omega)
  generalize (Place.digits? 2 ⟨ahead, position + 1⟩).getD (0, ⟨ahead, position + 1⟩) = read
    at hour_eq ahead_eq leaves
  obtain ⟨number, afterHour⟩ := read
  obtain rfl : number = hour.getD 0 := hour_eq
  obtain ⟨minutes, afterMinute, minute_read, leaves⟩ := leaves_bind_iff.mp leaves
  obtain ⟨minute, rfl, -, minute_eq, no_minute⟩ :=
    (Place.leaves_markedDigits_iff (by omega)).mp ⟨_, minute_read⟩
  obtain ⟨seconds, afterSecond, second_read, leaves⟩ := leaves_bind_iff.mp leaves
  obtain ⟨second, rfl, -, second_eq, -⟩ :=
    (Place.leaves_markedDigits_iff (by omega)).mp ⟨_, second_read⟩
  obtain ⟨fraction, afterMillis, millis_read, leaves⟩ := leaves_bind_iff.mp leaves
  obtain ⟨fraction, rfl, millis_lt, millis_eq, -⟩ :=
    (Place.leaves_markedDigits_iff (by omega)).mp ⟨_, millis_read⟩
  dsimp only at ahead_eq minute_eq second_eq millis_eq no_minute
  obtain ⟨⟨hour_lt, minute_lt, second_lt⟩, rfl, rfl⟩ := leaves_ite_iff.mp leaves
  -- A colon after the hour would have been that of the minute.
  have minute_first : second.isSome = true → minute.isSome = true := by
    rw [second_eq] at no_minute
    cases minute with
    | none => simp [eq_none_of_head? (no_minute rfl)]
    | some minute => simp
  refine ⟨⟨hour, minute, second, fraction, hour_lt, minute_lt, second_lt, millis_lt, minute_first⟩,
    ?_, ?_⟩
  · rw [ahead_eq, minute_eq, second_eq, millis_eq, Clock.text]
    simp
  · dsimp only [Clock.ofDay]
    omega

theorem leaves_clock {clock : Clock} (text_eq : place.rest = clock.text ++ rest)
    (ends : EndsTime rest) : Leaves (readTime place) clock.ofDay rest := by
  obtain ⟨hour, minute, second, fraction, hour_lt, minute_lt, second_lt, millis_lt, minute_first⟩ := clock
  simp only [Clock.text, List.cons_append, List.append_assoc] at text_eq
  have eaten : place.eat? 'T' = some ⟨fieldText [] 2 hour ++ (fieldText [':'] 2 minute ++
      (fieldText [':'] 2 second ++ (fieldText ['.'] 3 fraction ++ rest))), place.position + 1⟩ :=
    Place.eat?_eq_some_iff.mpr ⟨text_eq, rfl⟩
  -- Each field is followed by what it does not begin with, so a missing one is not read.
  have no_hour : ∀ char ∈ (fieldText [':'] 2 minute ++ (fieldText [':'] 2 second ++
      (fieldText ['.'] 3 fraction ++ rest))).head?, char.isDigit = false :=
    head?_fieldText rfl (head?_fieldText rfl (head?_fieldText rfl fun char is_head =>
      (ends char is_head).2.2.2))
  have no_colon : (fieldText ['.'] 3 fraction ++ rest).head? ≠ some ':' := by
    intro is_head
    have differs : ∀ char ∈ (fieldText ['.'] 3 fraction ++ rest).head?, char ≠ ':' :=
      head?_fieldText (by decide) fun char is_head => (ends char is_head).2.1
    exact differs ':' is_head rfl
  have no_minute : minute = none →
      (fieldText [':'] 2 second ++ (fieldText ['.'] 3 fraction ++ rest)).head? ≠ some ':' := by
    rintro rfl
    cases second with
    | none => exact no_colon
    | some second => exact absurd (minute_first rfl) (by decide)
  have no_point : rest.head? ≠ some '.' := fun is_head => (ends '.' is_head).2.2.1 rfl
  obtain ⟨position, hour_eq⟩ := @Place.unmarked_eq 2 _ ⟨_, place.position + 1⟩
    (by omega) hour (by omega) rfl no_hour
  rw [readTime, eaten]
  dsimp only
  rw [hour_eq]
  apply Leaves.bind ((Place.leaves_markedDigits_iff (by omega)).mpr
    ⟨minute, rfl, by omega, rfl, no_minute⟩)
  intro position
  apply Leaves.bind ((Place.leaves_markedDigits_iff (by omega)).mpr
    ⟨second, rfl, by omega, rfl, fun _ => no_colon⟩)
  intro position
  apply Leaves.bind ((Place.leaves_markedDigits_iff (by omega)).mpr
    ⟨fraction, rfl, by omega, rfl, fun _ => no_point⟩)
  intro position
  refine leaves_ite_iff.mpr ⟨⟨hour_lt, minute_lt, second_lt⟩, ?_, rfl⟩
  dsimp only [Clock.ofDay]
  omega

theorem leaves_readTime_iff {millis : Nat} (ends : EndsTime rest) :
    Leaves (readTime place) millis rest ↔ ∃ clock : Option Clock,
      place.rest = (clock.map Clock.text).getD [] ++ rest ∧ (clock.map Clock.ofDay).getD 0 = millis := by
  obtain ⟨ahead, position⟩ := place
  cases eaten : Place.eat? 'T' ⟨ahead, position⟩ with
  | none =>
      constructor
      · intro leaves
        rw [readTime, eaten] at leaves
        obtain ⟨rfl, rest_eq⟩ := leaves_ok_iff.mp leaves
        exact ⟨none, rest_eq, rfl⟩
      · rintro ⟨clock, text_eq, rfl⟩
        cases clock with
        | none =>
            rw [readTime, eaten]
            exact leaves_ok_iff.mpr ⟨rfl, text_eq⟩
        | some clock => exact leaves_clock text_eq ends
  | some after =>
      obtain ⟨rfl, -⟩ := Place.eat?_eq_some_iff.mp eaten
      constructor
      · intro leaves
        obtain ⟨clock, text_eq, millis_eq⟩ := exists_clock leaves
        exact ⟨some clock, text_eq, millis_eq⟩
      · rintro ⟨clock, text_eq, rfl⟩
        cases clock with
        | none =>
            obtain rfl : 'T' :: after.rest = rest := text_eq
            exact absurd rfl (ends 'T' rfl).1
        | some clock => exact leaves_clock text_eq ends

/-- What ends an offset: the sign of none. -/
def EndsOffset (rest : List Char) : Prop :=
  ∀ char ∈ rest.head?, char ≠ '+' ∧ char ≠ '-'

theorem leaves_readOffsetDigits_iff {seconds : Nat} : Leaves (readOffsetDigits place) seconds rest ↔
    ∃ offset : Offset, offset.hours * 3600 + offset.minutes * 60 = seconds ∧
      place.rest = offset.text.tail ++ rest := by
  rw [readOffsetDigits]
  constructor
  · intro leaves
    obtain ⟨hours, afterHours, hours_read, leaves⟩ := leaves_bind_iff.mp leaves
    obtain ⟨hours_lt, hours_eq⟩ := (Place.leaves_digits_iff (by omega)).mp ⟨_, hours_read⟩
    obtain ⟨colon, colon_eq⟩ := Place.exists_eaten ':' afterHours
    obtain ⟨minutes, afterMinutes, minutes_read, leaves⟩ := leaves_bind_iff.mp leaves
    obtain ⟨minutes_lt, minutes_eq⟩ := (Place.leaves_digits_iff (by omega)).mp ⟨_, minutes_read⟩
    obtain ⟨below, rfl, rfl⟩ := leaves_ite_iff.mp leaves
    refine ⟨⟨false, hours, minutes, colon, hours_lt, minutes_lt, by omega⟩, rfl, ?_⟩
    rw [hours_eq, colon_eq, minutes_eq, Offset.text]
    simp
  · rintro ⟨offset, rfl, text_eq⟩
    obtain ⟨west, hours, minutes, colon, hours_lt, minutes_lt, below⟩ := offset
    simp only [Offset.text, List.tail_cons, List.append_assoc] at text_eq
    have stops : ((padded 2 minutes).toList ++ rest).head? ≠ some ':' := by
      intro is_head
      have is_digit := head?_padded (by omega) (show minutes < 10 ^ 2 by omega) ':' is_head
      exact absurd is_digit (by decide)
    apply Leaves.bind ((Place.leaves_digits_iff (by omega)).mpr ⟨by omega, text_eq⟩)
    intro position
    obtain ⟨next, eaten_eq⟩ := @Place.eaten_eq ':' _ ⟨_, position⟩ colon rfl stops
    dsimp only
    rw [eaten_eq]
    apply Leaves.bind (Place.leaves_padded "offset minute" Nat.two_pos minutes_lt _ _)
    intro position
    exact leaves_ite_iff.mpr ⟨by omega, rfl, rfl⟩

theorem readOffset_signed (west : Bool) (ahead : List Char) (position : Nat) :
    readOffset ⟨(if west then '-' else '+') :: ahead, position⟩ =
      readOffsetDigits ⟨ahead, position + 1⟩ >>= fun read =>
        .ok ((if west then -1 else 1) * (read.1 : Int), read.2) := by
  cases west with
  | false => simp [readOffset, Place.eat?]
  | true => simp [readOffset, Place.eat?]

/-- Behind a sign there is an offset of that sign. -/
theorem leaves_signed_iff {west : Bool} {ahead : List Char} {position : Nat} {seconds : Int} :
    Leaves (readOffset ⟨(if west then '-' else '+') :: ahead, position⟩) seconds rest ↔
      ∃ offset : Offset, (if west then '-' else '+') :: ahead = offset.text ++ rest ∧
        offset.seconds = seconds := by
  rw [readOffset_signed, leaves_bind_iff]
  constructor
  · rintro ⟨number, after, found, leaves⟩
    obtain ⟨rfl, rfl⟩ := leaves_ok_iff.mp leaves
    obtain ⟨offset, rfl, text_eq⟩ := leaves_readOffsetDigits_iff.mp ⟨_, found⟩
    refine ⟨{ offset with west := west }, ?_, rfl⟩
    exact congrArg _ text_eq
  · rintro ⟨offset, text_eq, rfl⟩
    obtain ⟨sign_eq, ahead_eq⟩ := List.cons.inj text_eq
    have west_eq : offset.west = west := by
      revert sign_eq
      cases west <;> cases offset.west <;> decide
    obtain ⟨next, found⟩ := (@leaves_readOffsetDigits_iff _ ⟨ahead, position + 1⟩ _).mpr
      ⟨offset, rfl, ahead_eq⟩
    refine ⟨_, _, found, leaves_ok_iff.mpr ⟨?_, rfl⟩⟩
    rw [Offset.seconds, west_eq]

theorem leaves_readOffset_iff {seconds : Int} (ends : EndsOffset rest) :
    Leaves (readOffset place) seconds rest ↔ ∃ offset : Option Offset,
      place.rest = (offset.map Offset.text).getD [] ++ rest ∧
        (offset.map Offset.seconds).getD 0 = seconds := by
  obtain ⟨ahead, position⟩ := place
  -- A rest that ends the offset has no sign, so a sign is always that of an offset.
  by_cases signed : ∃ (west : Bool) (behind : List Char), ahead = (if west then '-' else '+') :: behind
  · obtain ⟨west, behind, rfl⟩ := signed
    rw [leaves_signed_iff]
    constructor
    · rintro ⟨offset, text_eq, seconds_eq⟩
      exact ⟨some offset, text_eq, seconds_eq⟩
    · rintro ⟨offset, text_eq, seconds_eq⟩
      cases offset with
      | none =>
          have is_rest : (if west then '-' else '+') :: behind = rest := text_eq
          subst is_rest
          have differs := ends _ rfl
          cases west with
          | false => exact absurd rfl differs.1
          | true => exact absurd rfl differs.2
      | some offset => exact ⟨offset, text_eq, seconds_eq⟩
  · have no_plus : Place.eat? '+' ⟨ahead, position⟩ = none := by
      refine Place.eat?_eq_none_iff.mpr fun is_head => signed ⟨false, ahead.tail, ?_⟩
      exact List.eq_cons_of_mem_head? is_head
    have no_minus : Place.eat? '-' ⟨ahead, position⟩ = none := by
      refine Place.eat?_eq_none_iff.mpr fun is_head => signed ⟨true, ahead.tail, ?_⟩
      exact List.eq_cons_of_mem_head? is_head
    rw [readOffset, no_plus]
    dsimp only
    rw [no_minus]
    dsimp only
    rw [leaves_ok_iff]
    constructor
    · rintro ⟨rfl, rest_eq⟩
      exact ⟨none, rest_eq, rfl⟩
    · rintro ⟨offset, text_eq, rfl⟩
      cases offset with
      | none => exact ⟨rfl, text_eq⟩
      | some offset => exact absurd ⟨offset.west, _, text_eq⟩ signed

end

/-! ## Whole date-times -/

theorem endsOffset_zone {zone : String} (member : zone ∈ ["", "Z", "UTC", "GMT"]) :
    EndsOffset zone.toList := by
  simp only [List.mem_cons, List.not_mem_nil, or_false] at member
  rcases member with rfl | rfl | rfl | rfl <;> simp [EndsOffset]

theorem endsTime_offset {zone : String} (member : zone ∈ ["", "Z", "UTC", "GMT"])
    (offset : Option Offset) : EndsTime ((offset.map Offset.text).getD [] ++ zone.toList) := by
  cases offset with
  | none =>
      simp only [List.mem_cons, List.not_mem_nil, or_false] at member
      rcases member with rfl | rfl | rfl | rfl <;> simp [EndsTime]
  | some offset =>
      intro char is_head
      obtain rfl : (if offset.west then '-' else '+') = char := Option.some.inj is_head
      cases offset.west <;> decide

/-- Reading accepts exactly the words of the grammar, with the instants that they mean. -/
theorem readSegment_eq_ok_iff {text : List Char} {instant : Instant} :
    readSegment text = .ok instant ↔
      ∃ written : Written, text = written.text ∧ written.instant = instant := by
  rw [readSegment]
  constructor
  · intro succeeds
    obtain ⟨⟨date, afterDate⟩, date_read, succeeds⟩ := Outcome.bind_eq_ok_iff.mp succeeds
    obtain ⟨year, month, day, year_lt, rfl, valid, text_eq⟩ := leaves_readDate_iff.mp ⟨_, date_read⟩
    obtain ⟨⟨millis, afterTime⟩, time_read, succeeds⟩ := Outcome.bind_eq_ok_iff.mp succeeds
    obtain ⟨⟨seconds, afterOffset⟩, offset_read, succeeds⟩ := Outcome.bind_eq_ok_iff.mp succeeds
    dsimp only at succeeds text_eq
    split_ifs at succeeds with named
    have zone_mem : String.ofList afterOffset.rest ∈ ["", "Z", "UTC", "GMT"] :=
      List.mem_cons.mpr named
    have zone_eq : afterOffset.rest = (String.ofList afterOffset.rest).toList :=
      String.toList_ofList.symm
    have ends_offset := endsOffset_zone zone_mem
    rw [← zone_eq] at ends_offset
    obtain ⟨offset, offset_eq, rfl⟩ := (leaves_readOffset_iff ends_offset).mp ⟨_, offset_read⟩
    have ends_time := endsTime_offset zone_mem offset
    rw [← zone_eq, ← offset_eq] at ends_time
    obtain ⟨clock, clock_eq, rfl⟩ := (leaves_readTime_iff ends_time).mp ⟨_, time_read⟩
    refine ⟨⟨year, month, day, clock, offset, _, year_lt, valid, zone_mem⟩, ?_, ?_⟩
    · rw [text_eq, clock_eq, offset_eq, Written.text, ← zone_eq]
    · rw [← Except.ok.inj succeeds, Written.instant,
        dayNumber_eq_count valid (Int.natCast_nonneg year)]
  · rintro ⟨written, text_eq, instant_eq⟩
    rw [text_eq, ← instant_eq]
    obtain ⟨year, month, day, clock, offset, zone, year_lt, valid, zone_mem⟩ := written
    obtain ⟨position, date_read⟩ := (@leaves_readDate_iff _ ⟨_, 0⟩ _).mpr
      ⟨year, month, day, year_lt, rfl, valid, rfl⟩
    obtain ⟨next, time_read⟩ := (@leaves_readTime_iff _ ⟨_, position⟩ _
      (endsTime_offset zone_mem offset)).mpr ⟨clock, rfl, rfl⟩
    obtain ⟨last, offset_read⟩ := (@leaves_readOffset_iff _ ⟨_, next⟩ _
      (endsOffset_zone zone_mem)).mpr ⟨offset, rfl, rfl⟩
    have named : String.ofList zone.toList = "" ∨ String.ofList zone.toList ∈ zoneNames := by
      rw [String.ofList_toList]
      exact List.mem_cons.mp zone_mem
    refine Outcome.bind_eq_ok_iff.mpr ⟨_, date_read, Outcome.bind_eq_ok_iff.mpr ⟨_, time_read,
      Outcome.bind_eq_ok_iff.mpr ⟨_, offset_read, ?_⟩⟩⟩
    dsimp only
    rw [if_pos named, Written.instant, dayNumber_eq_count valid (Int.natCast_nonneg year)]

/-! ## Instants in local time -/

namespace Instant

/-- What clocks at an offset show, as if it were UTC. -/
def atOffset (instant : Instant) (offset : Offset) : Instant where
  millis := instant.millis + offset.seconds * 1000

/-- The time of day of an instant, to the millisecond. -/
def clock (instant : Instant) : Clock :=
  let ofDay := (instant.millis % millisPerDay).toNat
  have ofDay_lt : ofDay < 86400000 := by
    dsimp only [ofDay, millisPerDay]
    omega
  { hour := some (ofDay / 3600000)
    minute := some (ofDay / 60000 % 60)
    second := some (ofDay / 1000 % 60)
    millis := some (ofDay % 1000)
    hour_lt := by rw [Option.getD_some]; omega
    minute_lt := Nat.mod_lt _ (by omega)
    second_lt := Nat.mod_lt _ (by omega)
    millis_lt := Nat.mod_lt _ (by omega)
    minute_first := fun _ => rfl }

theorem ofDay_clock (instant : Instant) : (instant.clock.ofDay : Int) = instant.millis % millisPerDay := by
  have positive : 0 ≤ instant.millis % millisPerDay := Int.emod_nonneg _ (by decide)
  rw [clock, Clock.ofDay]
  dsimp only [Option.getD_some]
  omega

end Instant

/-- A date of a year from 0 to 9999. -/
def Date.text (date : Date) : String :=
  padded 4 date.year.toNat ++ "-" ++ padded 2 date.month ++ "-" ++ padded 2 date.day

/-- A time of day, to the millisecond. -/
def timeText (ofDay : Nat) : String :=
  padded 2 (ofDay / 3600000) ++ ":" ++ padded 2 (ofDay / 60000 % 60) ++ ":" ++
    padded 2 (ofDay / 1000 % 60) ++ "." ++ padded 3 (ofDay % 1000)

/-- An offset behind its sign. -/
def offsetText (offset : Offset) : String :=
  (if offset.west then "-" else "+") ++ padded 2 offset.hours ++
    (if offset.colon then ":" else "") ++ padded 2 offset.minutes

theorem toList_offsetText (offset : Offset) : (offsetText offset).toList = offset.text := by
  rw [offsetText, Offset.text]
  cases offset.west <;> cases offset.colon <;> simp

namespace Instant

/-- The date-time of an instant at an offset, to the millisecond and with the offset. -/
def textAt (instant : Instant) (offset : Offset) : String :=
  (instant.atOffset offset).date.text ++ "T" ++
    timeText ((instant.atOffset offset).millis % millisPerDay).toNat ++ offsetText offset

theorem toList_timeText (instant : Instant) :
    'T' :: (timeText (instant.millis % millisPerDay).toNat).toList = instant.clock.text := by
  simp [timeText, Clock.text, clock, fieldText]

theorem exists_writtenAt {instant : Instant} {offset : Offset}
    (from_zero : 0 ≤ (instant.atOffset offset).date.year)
    (to_last : (instant.atOffset offset).date.year ≤ 9999) :
    ∃ written : Written, (instant.textAt offset).toList = written.text ∧ written.instant = instant := by
  have date_eq : (⟨((instant.atOffset offset).date.year.toNat : Nat),
      (instant.atOffset offset).date.month, (instant.atOffset offset).date.day⟩ : Date) =
        (instant.atOffset offset).date := by
    rw [Int.toNat_of_nonneg from_zero]
  have valid : (instant.atOffset offset).date.isValid = true := isValid_ofDayNumber _
  have number_eq : ((instant.atOffset offset).date.count : Int) - epoch.count =
      (instant.atOffset offset).dayNumber := by
    rw [← dayNumber_eq_count valid from_zero]
    exact dayNumber_ofDayNumber _
  refine ⟨⟨(instant.atOffset offset).date.year.toNat, (instant.atOffset offset).date.month,
    (instant.atOffset offset).date.day, some (instant.atOffset offset).clock, some offset, "",
    by omega, by rw [date_eq, valid], by simp⟩, ?_, ?_⟩
  · simp [textAt, Written.text, Date.text, dateText, ← toList_timeText, ← toList_offsetText]
  · have parts := Int.mul_ediv_add_emod (instant.atOffset offset).millis millisPerDay
    have millis_eq : (instant.atOffset offset).millis = instant.millis + offset.seconds * 1000 := rfl
    simp only [Written.instant, date_eq, number_eq, Option.map_some, Option.getD_some]
    rw [ofDay_clock, dayNumber, mul_comm, parts, millis_eq, add_sub_cancel_right]

end Instant

/-- Date-times are read exactly as the grammar has them, and an instant is read back from its
date-time at any offset. -/
theorem readMoment_iff_written :
    (∀ (text : String) (instant : Instant), readMoment text = .ok instant ↔
      ∃ written : Written, text.toList = written.text ∧ written.instant = instant) ∧
    ∀ (instant : Instant) (offset : Offset), 0 ≤ (instant.atOffset offset).date.year →
      (instant.atOffset offset).date.year ≤ 9999 → readMoment (instant.textAt offset) = .ok instant := by
  have reads : ∀ (text : String) (instant : Instant), readMoment text = .ok instant ↔
      ∃ written : Written, text.toList = written.text ∧ written.instant = instant := by
    intro text instant
    rw [readMoment, Outcome.mapError_eq_ok_iff, readSegment_eq_ok_iff]
  refine ⟨reads, fun instant offset from_zero to_last => ?_⟩
  exact (reads _ _).mpr (Instant.exists_writtenAt from_zero to_last)

/-- Local time two and a half hours ahead of UTC. -/
def halfPastTwo : Offset where
  west := false
  hours := 2
  minutes := 30
  colon := false
  hours_lt := by omega
  minutes_lt := by omega
  below_day := by omega

/-- A time of day of which only the minute is written. -/
def fivePast : Clock where
  hour := none
  minute := some 5
  second := none
  millis := none
  hour_lt := by decide
  minute_lt := by decide
  second_lt := by decide
  millis_lt := by decide
  minute_first := nofun

/-- Local time may be in another year than UTC, and the hour of a time may be missing. -/
theorem readMoment_newYear :
    0 ≤ (Instant.atOffset ⟨946679415007⟩ halfPastTwo).date.year ∧
      (Instant.atOffset ⟨946679415007⟩ halfPastTwo).date.year ≤ 9999 ∧
        Instant.textAt ⟨946679415007⟩ halfPastTwo = "2000-01-01T01:00:15.007+0230" ∧
          readMoment "2000-01-01T01:00:15.007+0230" = .ok ⟨946679415007⟩ ∧
            readMoment "2024-02-29T:05+0230GMT" = .ok ⟨1709156100000⟩ := by
  have from_zero : 0 ≤ (Instant.atOffset ⟨946679415007⟩ halfPastTwo).date.year := by decide
  have to_last : (Instant.atOffset ⟨946679415007⟩ halfPastTwo).date.year ≤ 9999 := by decide
  have text_eq : Instant.textAt ⟨946679415007⟩ halfPastTwo = "2000-01-01T01:00:15.007+0230" := by
    decide +kernel
  have read_back := readMoment_iff_written.2 _ _ from_zero to_last
  rw [text_eq] at read_back
  refine ⟨from_zero, to_last, text_eq, read_back, (readMoment_iff_written.1 _ _).mpr ?_⟩
  exact ⟨⟨2024, 2, 29, some fivePast, some halfPastTwo, "GMT", by omega, by decide, by simp⟩,
    by decide +kernel, by decide +kernel⟩

end StationGateway.Time
