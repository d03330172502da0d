import Mathlib.Data.List.TakeDrop
import Mathlib.Tactic.SplitIfs
import StationGateway.Expansion.Predicate
import StationGateway.Proofs.Text.Blank
import StationGateway.Proofs.Text.Join

/-!
# Slices of operands

A slice picks the members of a list at the positions between its bounds, where negative bounds count
from the end. A bound is read back from its text, and an index picks the one member that it denotes.
-/

namespace StationGateway.Filter

open Text

/-- The position that a bound denotes in a list of a given length, which may lie outside the list. -/
def boundPosition (length : Nat) (bound : Int) : Int :=
  if bound < 0 then length + bound else bound

/-- Whether a position lies between the bounds of a slice of a list of a given length. -/
def Slice.Spans (slice : Slice) (length position : Nat) : Prop :=
  (∀ bound ∈ slice.start, boundPosition length bound ≤ position) ∧
    ∀ bound ∈ slice.stop, (position : Int) < boundPosition length bound

instance (slice : Slice) (length position : Nat) : Decidable (slice.Spans length position) :=
  inferInstanceAs (Decidable (_ ∧ _))

/-- The members of a list at the positions that a slice spans. -/
def Slice.members {α : Type} (slice : Slice) (values : List α) : List α :=
  (values.zipIdx.filter fun member => slice.Spans values.length member.2).map (·.1)

variable {α : Type} {slice : Slice} {length position : Nat} {bound index : Int}

/-! ## Selected members -/

theorem isBlank_of_isDigit {char : Char} (digit : char.isDigit = true) : isBlank char = false := by
  obtain ⟨least, greatest⟩ := toNat_of_isDigit digit
  exact isBlank_of_visible (by omega) (by omega)

/-- Digits spell a number, which is a bound within 64 bits. -/
theorem bound?_digits {digits : List Char} (filled : digits ≠ [])
    (are_digits : ∀ char ∈ digits, char.isDigit = true)
    (fits : (digitsValue digits : Int) ≤ boundLimits.2) :
    bound? digits = some (digitsValue digits : Int) := by
  have trimmed : trim digits = digits :=
    trim_of_visible filled fun char member => isBlank_of_isDigit (are_digits char member)
  have all_digits : digits.all Char.isDigit = true := List.all_eq_true.mpr are_digits
  have low : boundLimits.1 ≤ (digitsValue digits : Int) := by
    simp only [boundLimits]
    omega
  simp only [bound?, trimmed]
  split
  next rest => exact absurd (are_digits '-' List.mem_cons_self) (by decide)
  next rest => exact absurd (are_digits '+' List.mem_cons_self) (by decide)
  next => simp [filled, all_digits, low, fits]

/-- Digits after a minus sign spell a negative number. -/
theorem bound?_negative {digits : List Char} (filled : digits ≠ [])
    (are_digits : ∀ char ∈ digits, char.isDigit = true)
    (fits : boundLimits.1 ≤ -(digitsValue digits : Int)) :
    bound? ('-' :: digits) = some (-(digitsValue digits : Int)) := by
  have visible : ∀ char ∈ '-' :: digits, isBlank char = false := by
    intro char member
    rcases List.mem_cons.mp member with rfl | in_digits
    · decide
    · exact isBlank_of_isDigit (are_digits char in_digits)
  have trimmed := trim_of_visible (List.cons_ne_nil '-' digits) visible
  have all_digits : digits.all Char.isDigit = true := List.all_eq_true.mpr are_digits
  have high : -(digitsValue digits : Int) ≤ boundLimits.2 := by
    simp only [boundLimits]
    omega
  simp [bound?, trimmed, filled, all_digits, fits, high]

theorem digitsValue_toDigits (number : Nat) : digitsValue (Nat.toDigits 10 number) = number :=
  Nat.ofDigitChars_ten_toDigits

theorem toList_toString_int (value : Int) : (toString value).toList =
    if value < 0 then '-' :: Nat.toDigits 10 value.natAbs else Nat.toDigits 10 value.natAbs := by
  cases value with
  | ofNat number => simp [Int.toString_eq_repr, Int.repr]
  | negSucc number => simp [Int.toString_eq_repr, Int.repr]

/-- A bound within 64 bits is read back from its text. -/
theorem bound?_toString (least : boundLimits.1 ≤ bound) (greatest : bound ≤ boundLimits.2) :
    bound? (toString bound).toList = some bound := by
  have are_digits : ∀ char ∈ Nat.toDigits 10 bound.natAbs, char.isDigit = true := fun char member =>
    Nat.isDigit_of_mem_toDigits (by decide) (by decide) member
  have value_eq := digitsValue_toDigits bound.natAbs
  rw [toList_toString_int]
  split_ifs with negative
  · have negated : -(digitsValue (Nat.toDigits 10 bound.natAbs) : Int) = bound := by omega
    rw [bound?_negative Nat.toDigits_ne_nil are_digits (negated.symm ▸ least), negated]
  · have whole : (digitsValue (Nat.toDigits 10 bound.natAbs) : Int) = bound := by omega
    rw [bound?_digits Nat.toDigits_ne_nil are_digits (whole.symm ▸ greatest), whole]

/-- The text of a bound has digits and a sign only. -/
theorem notMem_toString_int {char : Char} (no_digit : char.isDigit = false) (no_sign : char ≠ '-')
    (value : Int) : char ∉ (toString value).toList := by
  intro member
  have in_digits : char ∈ Nat.toDigits 10 value.natAbs := by
    rw [toList_toString_int] at member
    split_ifs at member with negative
    · exact (List.mem_cons.mp member).resolve_left no_sign
    · exact member
  have digit := Nat.isDigit_of_mem_toDigits (by decide) (by decide) in_digits
  exact absurd digit (by simp [no_digit])

/-- What stands between brackets is read as a slice. -/
theorem templateParts_slice {inside : List Char} (closed : ']' ∉ inside) (seen rest : List Char) :
    templateParts (.slice seen) (inside ++ ']' :: rest) =
      .value (slice? (seen.reverse ++ inside)) :: templateParts (.text []) rest := by
  induction inside generalizing seen with
  | nil => simp [templateParts]
  | cons char inside induction =>
      rw [List.mem_cons, not_or] at closed
      rw [List.cons_append, templateParts, if_neg (Ne.symm closed.1), induction closed.2]
      simp

end StationGateway.Filter
