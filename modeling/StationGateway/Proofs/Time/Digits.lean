import Mathlib.Algebra.Group.Nat.Defs
import Mathlib.Data.List.Induction
import Mathlib.Order.Nat
import Mathlib.Tactic.SplitIfs
import StationGateway.Time.Segment

/-!
# Numbers of a fixed width

A number below a power of ten has one text of that many digits, and reading that many digits gives it
back. -/

namespace StationGateway.Time

/-! ## Padded numbers -/

theorem toList_padded (width number : Nat) :
    (padded width number).toList =
      List.replicate (width - (Nat.toDigits 10 number).length) '0' ++ Nat.toDigits 10 number := by
  rw [padded, String.toList_ofList]

theorem toList_padded_one {number : Nat} (below : number < 10) :
    (padded 1 number).toList = [number.digitChar] := by
  rw [toList_padded, Nat.toDigits_of_lt_base below]
  rfl

/-- The last digit of a number stands behind the digits of its tenth. -/
theorem toList_padded_succ {width : Nat} (positive : 0 < width) (number : Nat) :
    (padded (width + 1) number).toList =
      (padded width (number / 10)).toList ++ [(number % 10).digitChar] := by
  rw [toList_padded, toList_padded]
  by_cases one_digit : number < 10
  · obtain ⟨width, rfl⟩ := Nat.exists_eq_add_one_of_ne_zero (Nat.ne_of_gt positive)
    rw [Nat.toDigits_of_lt_base one_digit, Nat.div_eq_of_lt one_digit, Nat.mod_eq_of_lt one_digit,
      Nat.toDigits_zero]
    simp [List.replicate_succ']
  · rw [Nat.toDigits_of_base_le (by omega) (Nat.not_lt.mp one_digit), List.length_append,
      List.length_singleton, Nat.add_sub_add_right, List.append_assoc]

/-- The number that digits spell behind a number. -/
def valueAfter (value : Nat) (digits : List Char) : Nat :=
  digits.foldl (fun value digit => 10 * value + (digit.toNat - 48)) value

theorem valueAfter_append (value : Nat) (digits : List Char) (last : Char) :
    valueAfter value (digits ++ [last]) = 10 * valueAfter value digits + (last.toNat - 48) := by
  rw [valueAfter, List.foldl_append]
  rfl

/-- A padded number consists of as many digits as it is wide, and they spell it. -/
theorem padded_spells {width number : Nat} (positive : 0 < width) (below : number < 10 ^ width) :
    (padded width number).toList.length = width ∧
      (∀ char ∈ (padded width number).toList, char.isDigit = true) ∧
        valueAfter 0 (padded width number).toList = number := by
  induction width, positive using Nat.le_induction generalizing number with
  | base =>
      rw [pow_one] at below
      rw [toList_padded_one below]
      refine ⟨rfl, ?_, ?_⟩
      · simp [Nat.isDigit_digitChar, below]
      · simp [valueAfter, Nat.toNat_digitChar_sub_48_of_lt_ten below]
  | succ width positive induction =>
      have tenth_below : number / 10 < 10 ^ width := by
        rw [pow_succ] at below
        omega
      have last_below : number % 10 < 10 := Nat.mod_lt number (by omega)
      obtain ⟨length_eq, are_digits, value_eq⟩ := induction tenth_below
      rw [toList_padded_succ positive]
      refine ⟨?_, fun char member => ?_, ?_⟩
      · rw [List.length_append, length_eq]
        rfl
      · rcases List.mem_append.mp member with in_front | is_last
        · exact are_digits char in_front
        · rw [List.mem_singleton.mp is_last, Nat.isDigit_digitChar]
          exact decide_eq_true last_below
      · rw [valueAfter_append, value_eq, Nat.toNat_digitChar_sub_48_of_lt_ten last_below]
        omega

theorem digitChar_toNat_sub {char : Char} (is_digit : char.isDigit = true) :
    char.toNat - 48 < 10 ∧ (char.toNat - 48).digitChar = char := by
  have bounds : 48 ≤ char.toNat ∧ char.toNat ≤ 57 := by
    simpa [Char.isDigit, UInt32.le_iff_toNat_le] using is_digit
  have below : char.toNat - 48 < 10 := by omega
  refine ⟨below, Char.toNat_inj.mp ?_⟩
  rw [Nat.toNat_digitChar_of_lt_ten below]
  omega

/-- Digits are the padded number that they spell. -/
theorem padded_valueAfter {digits : List Char} (filled : digits ≠ [])
    (are_digits : ∀ char ∈ digits, char.isDigit = true) :
    valueAfter 0 digits < 10 ^ digits.length ∧
      (padded digits.length (valueAfter 0 digits)).toList = digits := by
  induction digits using List.reverseRecOn with
  | nil => exact absurd rfl filled
  | append_singleton digits last induction =>
      obtain ⟨last_below, last_eq⟩ := digitChar_toNat_sub (are_digits last (by simp))
      rw [valueAfter_append, List.length_append, List.length_singleton]
      by_cases empty : digits = []
      · subst empty
        change 10 * 0 + _ < 10 ∧ (padded 1 (10 * 0 + _)).toList = [last]
        rw [Nat.mul_zero, Nat.zero_add, toList_padded_one last_below, last_eq]
        exact ⟨last_below, rfl⟩
      · obtain ⟨below, digits_eq⟩ := induction empty fun char member =>
          are_digits char (List.mem_append_left _ member)
        have tenth_eq : (10 * valueAfter 0 digits + (last.toNat - 48)) / 10 = valueAfter 0 digits := by
          omega
        have last_digit : (10 * valueAfter 0 digits + (last.toNat - 48)) % 10 = last.toNat - 48 := by
          omega
        constructor
        · rw [pow_succ]
          omega
        · rw [toList_padded_succ (List.length_pos_iff.mpr empty), tenth_eq, last_digit, digits_eq, last_eq]

/-! ## Reading digits -/

namespace Place

variable {count value number : Nat} {place after : Place}

theorem digitsAfter?_eq_some_iff : digitsAfter? value count place = some (number, after) ↔
    ∃ digits : List Char, digits.length = count ∧ (∀ char ∈ digits, char.isDigit = true) ∧
      place.rest = digits ++ after.rest ∧ after.position = place.position + count ∧
        number = valueAfter value digits := by
  induction count generalizing value place with
  | zero =>
      rw [digitsAfter?]
      constructor
      · intro found
        obtain ⟨rfl, rfl⟩ := Prod.mk.inj (Option.some.inj found)
        exact ⟨[], rfl, by simp, rfl, rfl, rfl⟩
      · rintro ⟨digits, no_length, -, rest_eq, position_eq, number_eq⟩
        obtain rfl := List.length_eq_zero_iff.mp no_length
        obtain ⟨rest, position⟩ := after
        obtain rfl : place.rest = rest := rest_eq
        obtain rfl : position = place.position := position_eq
        rw [number_eq]
        rfl
  | succ count induction =>
      obtain ⟨rest, position⟩ := place
      rw [digitsAfter?]
      cases rest with
      | nil =>
          constructor
          · intro found
            cases found
          · rintro ⟨digits, length_eq, -, rest_eq, -⟩
            obtain ⟨rfl, -⟩ := List.append_eq_nil_iff.mp rest_eq.symm
            cases length_eq
      | cons first rest =>
          dsimp only
          split_ifs with is_digit
          · rw [induction]
            constructor
            · rintro ⟨digits, length_eq, are_digits, rest_eq, position_eq, number_eq⟩
              refine ⟨first :: digits, ?_, ?_, ?_, ?_, number_eq⟩
              · rw [List.length_cons, length_eq]
              · exact List.forall_mem_cons.mpr ⟨is_digit, are_digits⟩
              · rw [List.cons_append, ← rest_eq]
              · dsimp only at position_eq ⊢
                omega
            · rintro ⟨digits, length_eq, are_digits, rest_eq, position_eq, number_eq⟩
              obtain ⟨head, tail, rfl⟩ := List.exists_cons_of_length_eq_add_one length_eq
              rw [List.cons_append, List.cons.injEq] at rest_eq
              obtain ⟨rfl, rest_eq⟩ := rest_eq
              refine ⟨tail, Nat.succ.inj length_eq, (List.forall_mem_cons.mp are_digits).2, rest_eq,
                ?_, number_eq⟩
              dsimp only at position_eq ⊢
              omega
          · constructor
            · intro found
              cases found
            · rintro ⟨digits, length_eq, are_digits, rest_eq, -⟩
              obtain ⟨head, tail, rfl⟩ := List.exists_cons_of_length_eq_add_one length_eq
              rw [List.cons_append, List.cons.injEq] at rest_eq
              rw [rest_eq.1] at is_digit
              exact absurd (are_digits head List.mem_cons_self) is_digit

/-- Digits are read exactly where a padded number stands. -/
theorem digits?_eq_some_iff (positive : 0 < count) :
    place.digits? count = some (number, after) ↔
      number < 10 ^ count ∧ place.rest = (padded count number).toList ++ after.rest ∧
        after.position = place.position + count := by
  rw [digits?, digitsAfter?_eq_some_iff]
  constructor
  · rintro ⟨digits, rfl, are_digits, rest_eq, position_eq, rfl⟩
    obtain ⟨below, digits_eq⟩ := padded_valueAfter (List.length_pos_iff.mp positive) are_digits
    exact ⟨below, by rw [digits_eq, rest_eq], position_eq⟩
  · rintro ⟨below, rest_eq, position_eq⟩
    obtain ⟨length_eq, are_digits, value_eq⟩ := padded_spells positive below
    exact ⟨_, length_eq, are_digits, rest_eq, position_eq, value_eq.symm⟩

end Place

end StationGateway.Time
