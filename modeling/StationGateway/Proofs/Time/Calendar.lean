import Mathlib.Algebra.Order.Ring.Int
import Mathlib.Tactic.IntervalCases
import Mathlib.Tactic.Ring
import StationGateway.Time.Calendar

/-!
# Days of the calendar

Day numbers count the days of the calendar from 1970-01-01, year by year and month by month, and every
day number is that of exactly the date that is made from it. -/

namespace StationGateway.Time

/-! ## Counting days -/

theorem isLeapYear_iff (year : Int) :
    isLeapYear year = true ↔ year % 4 = 0 ∧ (year % 100 ≠ 0 ∨ year % 400 = 0) := by
  simp [isLeapYear]

theorem daysInMonth_le (year : Int) (month : Nat) : daysInMonth year month ≤ 31 := by
  unfold daysInMonth
  split <;> grind

theorem le_of_isValid {date : Date} (valid : date.isValid = true) : date.month ≤ 12 ∧ date.day ≤ 31 := by
  have length_le := daysInMonth_le date.year date.month
  simp only [Date.isValid, Bool.and_eq_true, decide_eq_true_eq] at valid
  omega

/-- The number of days of a year. -/
def daysInYear (year : Int) : Nat :=
  if isLeapYear year then 366 else 365

/-- The days from 0000-01-01 to a date of a year from zero on, year by year and month by month. -/
def Date.count (date : Date) : Nat :=
  ((List.range date.year.toNat).map fun year : Nat => daysInYear year).sum +
    ((List.range (date.month - 1)).map fun month => daysInMonth date.year (month + 1)).sum +
      (date.day - 1)

/-- The date that day numbers are counted from. -/
def epoch : Date := ⟨1970, 1, 1⟩

/-- The leap years up to a year, of which there are more by one if it is a leap year. -/
def leapYearsTo (year : Int) : Int :=
  year / 4 - year / 100 + year / 400

theorem leapYearsTo_eq (year : Int) :
    leapYearsTo year = leapYearsTo (year - 1) + if isLeapYear year then 1 else 0 := by
  have four : year / 4 = (year - 1) / 4 + if year % 4 = 0 then 1 else 0 := by split_ifs <;> omega
  have hundred : year / 100 = (year - 1) / 100 + if year % 100 = 0 then 1 else 0 := by
    split_ifs <;> omega
  have four_hundred : year / 400 = (year - 1) / 400 + if year % 400 = 0 then 1 else 0 := by
    split_ifs <;> omega
  rw [leapYearsTo, leapYearsTo, four, hundred, four_hundred]
  simp only [isLeapYear_iff]
  split_ifs <;> omega

theorem sum_daysInYear (year : Nat) :
    (((List.range year).map fun year : Nat => daysInYear year).sum : Int) =
      365 * (year : Int) + leapYearsTo ((year : Int) - 1) + 1 := by
  induction year with
  | zero => rfl
  | succ year induction =>
      have leap := leapYearsTo_eq year
      have length : (daysInYear year : Int) = 365 + if isLeapYear year then 1 else 0 := by
        rw [daysInYear]
        split_ifs
        · rfl
        · rfl
      have pred : ((year + 1 : Nat) : Int) - 1 = year := by omega
      rw [List.range_succ, List.map_append, List.sum_append, List.map_singleton, List.sum_singleton,
        Nat.cast_add, induction, length, pred, leap]
      push_cast
      ring

/-- The days before a month, counted from March. -/
theorem sum_daysInMonth (year : Int) {month : Nat} (from_one : 1 ≤ month) (to_twelve : month ≤ 12) :
    ((List.range (month - 1)).map fun month => daysInMonth year (month + 1)).sum =
      if month ≤ 2 then 31 * (month - 1)
      else (153 * ((month + 9) % 12) + 2) / 5 + 59 + if isLeapYear year then 1 else 0 := by
  interval_cases month <;> simp [List.range_succ, daysInMonth] <;> split_ifs <;> rfl

theorem count_newYear (year : Nat) :
    ((⟨year, 1, 1⟩ : Date).count : Int) = 365 * (year : Int) + leapYearsTo ((year : Int) - 1) + 1 := by
  rw [← sum_daysInYear, Date.count]
  simp

theorem count_epoch : (epoch.count : Int) = 719528 :=
  count_newYear 1970

/-- Day numbers count days from the epoch. -/
theorem dayNumber_eq_count {date : Date} (valid : date.isValid = true) (positive : 0 ≤ date.year) :
    date.dayNumber = (date.count : Int) - epoch.count := by
  obtain ⟨year, month, day⟩ := date
  obtain ⟨year, rfl⟩ := Int.eq_ofNat_of_zero_le positive
  simp only [Date.isValid, Bool.and_eq_true, decide_eq_true_eq] at valid
  obtain ⟨⟨⟨from_one, to_twelve⟩, from_first⟩, -⟩ := valid
  have years := sum_daysInYear year
  have leap := leapYearsTo_eq year
  rw [count_epoch, Date.count, Date.dayNumber]
  dsimp only
  rw [Int.toNat_natCast, sum_daysInMonth year from_one to_twelve]
  generalize ((List.range year).map fun year : Nat => daysInYear year).sum = before at years ⊢
  rw [leapYearsTo] at leap
  by_cases early : month ≤ 2
  · rw [leapYearsTo] at years
    simp only [if_pos early]
    omega
  · simp only [if_neg early]
    split_ifs at leap ⊢ with is_leap
    · omega
    · omega

/-! ## Dates of day numbers -/

/-- Every day of an era of 400 years is one of a year that is counted from March: of the years of a
century, the fourth ones have a leap day unless they end the century, and the last century has one
more. -/
theorem exists_parts {day : Nat} (within : day < 146097) :
    ∃ century quad rest ofYear : Nat,
      day = 36524 * century + 1461 * quad + 365 * rest + ofYear ∧
        century ≤ 3 ∧ quad ≤ 24 ∧ rest ≤ 3 ∧ ofYear ≤ 365 ∧
          (ofYear = 365 → rest = 3 ∧ (quad = 24 → century = 3)) := by
  have day_eq := Nat.div_add_mod day 36524
  have inCentury_lt := Nat.mod_lt day (show 0 < 36524 by omega)
  generalize day / 36524 = century, day % 36524 = inCentury at day_eq inCentury_lt
  have inCentury_eq := Nat.div_add_mod inCentury 1461
  have inQuad_lt := Nat.mod_lt inCentury (show 0 < 1461 by omega)
  generalize inCentury / 1461 = quad, inCentury % 1461 = inQuad at inCentury_eq inQuad_lt
  by_cases last_day : century = 4
  · exact ⟨3, 24, 3, 365, by omega, by omega, by omega, by omega, by omega, by omega⟩
  · by_cases leap_day : inQuad = 1460
    · exact ⟨century, quad, 3, 365, by omega, by omega, by omega, by omega, by omega, by omega⟩
    · exact ⟨century, quad, inQuad / 365, inQuad % 365, by omega, by omega, by omega, by omega,
        by omega, by omega⟩

/-- The year of an era, found from the day alone. -/
theorem yearOfEra_eq {century quad rest ofYear day : Nat}
    (day_eq : day = 36524 * century + 1461 * quad + 365 * rest + ofYear) (century_le : century ≤ 3)
    (quad_le : quad ≤ 24) (rest_le : rest ≤ 3) (ofYear_le : ofYear ≤ 365)
    (leap : ofYear = 365 → rest = 3 ∧ (quad = 24 → century = 3)) :
    (day - day / 1460 + day / 36524 - day / 146096) / 365 = 100 * century + 4 * quad + rest := by
  -- On the last day of an era both quotients are one too many, which cancels out.
  have last_day : day / 146096 = if 146096 ≤ day then 1 else 0 := by
    split_ifs <;> omega
  have centuries : day / 36524 = century + if 146096 ≤ day then 1 else 0 := by
    split_ifs <;> omega
  have quads : day / 1460 =
      25 * century + quad + if 1460 ≤ 24 * century + quad + 365 * rest + ofYear then 1 else 0 := by
    split_ifs <;> omega
  rw [last_day, centuries, quads]
  split_ifs <;> omega

/-- The date of a day of a year that is counted from March. -/
def Date.ofMarch (year : Int) (day : Nat) : Date :=
  let monthFromMarch := (5 * day + 2) / 153
  let month := if monthFromMarch < 10 then monthFromMarch + 3 else monthFromMarch - 9
  { year := if month ≤ 2 then year + 1 else year
    month := month
    day := day - (153 * monthFromMarch + 2) / 5 + 1 }

/-- The first day of a year of an era. -/
theorem startOfYear_eq {century quad rest : Nat} (quad_le : quad ≤ 24) (rest_le : rest ≤ 3) :
    365 * (100 * century + 4 * quad + rest) + (100 * century + 4 * quad + rest) / 4 -
      (100 * century + 4 * quad + rest) / 100 = 36524 * century + 1461 * quad + 365 * rest := by
  have quarter : (100 * century + 4 * quad + rest) / 4 = 25 * century + quad := by omega
  have hundredth : (100 * century + 4 * quad + rest) / 100 = century := by omega
  rw [quarter, hundredth]
  omega

theorem leapYearsTo_parts (era : Int) {century quad rest : Nat} (century_le : century ≤ 3)
    (quad_le : quad ≤ 24) (rest_le : rest ≤ 3) :
    leapYearsTo (era * 400 + (100 * century + 4 * quad + rest : Nat)) =
      97 * era + 24 * century + quad := by
  rw [leapYearsTo]
  omega

theorem exists_ofMarch (number : Int) : ∃ (year : Int) (day : Nat), day ≤ 365 ∧
    (day = 365 → isLeapYear (year + 1) = true) ∧
      number + 719468 = 365 * year + leapYearsTo year + day ∧
        Date.ofDayNumber number = .ofMarch year day := by
  have day_lt : ((number + 719468) % 146097).toNat < 146097 := by omega
  have number_eq : number + 719468 = 146097 * ((number + 719468) / 146097) +
      ((number + 719468) % 146097).toNat := by omega
  rw [Date.ofDayNumber]
  generalize (number + 719468) / 146097 = era at number_eq ⊢
  generalize ((number + 719468) % 146097).toNat = dayOfEra at day_lt number_eq ⊢
  obtain ⟨century, quad, rest, ofYear, rfl, century_le, quad_le, rest_le, ofYear_le, leap⟩ :=
    exists_parts day_lt
  refine ⟨era * 400 + (100 * century + 4 * quad + rest : Nat), ofYear, ofYear_le, fun is_last => ?_,
    ?_, ?_⟩
  · rw [isLeapYear_iff]
    omega
  · rw [leapYearsTo_parts era century_le quad_le rest_le, number_eq]
    push_cast
    ring
  · rw [yearOfEra_eq rfl century_le quad_le rest_le ofYear_le leap, startOfYear_eq quad_le rest_le,
      Nat.add_sub_cancel_left]
    rfl

theorem dayNumber_ofMarch (year : Int) {day : Nat} (within : day ≤ 365) :
    (Date.ofMarch year day).dayNumber + 719468 = 365 * year + leapYearsTo year + day := by
  have month_le : (5 * day + 2) / 153 ≤ 11 := by omega
  have start_le : (153 * ((5 * day + 2) / 153) + 2) / 5 ≤ day := by omega
  rw [Date.ofMarch, Date.dayNumber, leapYearsTo]
  generalize (5 * day + 2) / 153 = fromMarch at month_le start_le ⊢
  dsimp only
  have month_eq : ((if fromMarch < 10 then fromMarch + 3 else fromMarch - 9) + 9) % 12 = fromMarch := by
    split_ifs <;> omega
  have year_eq : (if (if fromMarch < 10 then fromMarch + 3 else fromMarch - 9) ≤ 2 then
      (if (if fromMarch < 10 then fromMarch + 3 else fromMarch - 9) ≤ 2 then year + 1 else year) - 1
      else if (if fromMarch < 10 then fromMarch + 3 else fromMarch - 9) ≤ 2 then year + 1 else year) =
        year := by
    split_ifs <;> omega
  have day_eq : (153 * fromMarch + 2) / 5 + (day - (153 * fromMarch + 2) / 5 + 1) - 1 = day := by omega
  rw [month_eq, year_eq, day_eq]
  ring

theorem isValid_ofMarch {year : Int} {day : Nat} (within : day ≤ 365)
    (leap : day = 365 → isLeapYear (year + 1) = true) : (Date.ofMarch year day).isValid = true := by
  have month_le : (5 * day + 2) / 153 ≤ 11 := by omega
  rw [Date.ofMarch, Date.isValid]
  generalize month_eq : (5 * day + 2) / 153 = fromMarch at month_le ⊢
  dsimp only
  simp only [Bool.and_eq_true, decide_eq_true_eq]
  by_cases february : fromMarch = 11
  · subst february
    by_cases last : day = 365
    · simp [daysInMonth, leap last, last]
    · simp [daysInMonth]
      split_ifs <;> omega
  · interval_cases fromMarch <;> simp [daysInMonth] <;> omega

/-- Every day number is that of a date of the calendar. -/
theorem isValid_ofDayNumber (number : Int) : (Date.ofDayNumber number).isValid = true := by
  obtain ⟨year, day, within, leap, -, date_eq⟩ := exists_ofMarch number
  rw [date_eq]
  exact isValid_ofMarch within leap

@[simp] theorem dayNumber_ofDayNumber (number : Int) : (Date.ofDayNumber number).dayNumber = number := by
  obtain ⟨year, day, within, -, number_eq, date_eq⟩ := exists_ofMarch number
  have day_number := dayNumber_ofMarch year within
  rw [date_eq]
  omega

end StationGateway.Time
