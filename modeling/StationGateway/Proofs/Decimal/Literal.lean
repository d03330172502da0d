import Mathlib.Data.List.TakeWhile
import StationGateway.Decimal.Number

/-!
# The characters of number literals

A number is read from digits, signs, a point and the letter of the exponent, and from at least one of
them. -/

namespace StationGateway.Decimal.Number

/-- The characters of number literals. -/
def isNumberChar (char : Char) : Bool :=
  char.isDigit || ['-', '+', '.', 'e', 'E'].contains char

/-- Going from one text to a rest of it takes nothing but characters of number literals. -/
def Spends (text rest : List Char) : Prop :=
  ∃ used, text = used ++ rest ∧ ∀ char ∈ used, isNumberChar char = true

namespace Spends

theorem refl (text : List Char) : Spends text text :=
  ⟨[], rfl, by simp⟩

theorem cons {char : Char} {text rest : List Char} (is_number : isNumberChar char = true)
    (spends : Spends text rest) : Spends (char :: text) rest := by
  obtain ⟨used, rfl, used_numbers⟩ := spends
  refine ⟨char :: used, rfl, fun other member => ?_⟩
  rcases List.mem_cons.mp member with rfl | in_used
  · exact is_number
  · exact used_numbers other in_used

theorem trans {text middle rest : List Char} (first : Spends text middle)
    (second : Spends middle rest) : Spends text rest := by
  obtain ⟨used, rfl, used_numbers⟩ := first
  obtain ⟨more, rfl, more_numbers⟩ := second
  refine ⟨used ++ more, (List.append_assoc used more rest).symm, fun char member => ?_⟩
  rcases List.mem_append.mp member with in_used | in_more
  · exact used_numbers char in_used
  · exact more_numbers char in_more

theorem digits {text rest : List Char} (spends : Spends (text.dropWhile Char.isDigit) rest) :
    Spends text rest := by
  obtain ⟨used, rest_eq, used_numbers⟩ := spends
  refine ⟨text.takeWhile Char.isDigit ++ used, ?_, fun char member => ?_⟩
  · rw [List.append_assoc, ← rest_eq, List.takeWhile_append_dropWhile]
  · rcases List.mem_append.mp member with in_digits | in_used
    · have is_digit := List.mem_takeWhile_imp in_digits
      simp [isNumberChar, is_digit]
    · exact used_numbers char in_used

end Spends

variable {negative : Bool} {significand : Nat} {exponent : Int} {text rest : List Char}
  {number : Number}

theorem spends_takeDigits (significand taken : Nat) (text : List Char) :
    Spends text (takeDigits significand taken text).2.2 := by
  fun_induction takeDigits significand taken text with
  | case1 significand taken => exact .refl []
  | case2 significand taken char rest fits induction =>
      have is_digit := (Bool.and_eq_true _ _).mp fits |>.1
      exact induction.cons (by simp [isNumberChar, is_digit])
  | case3 significand taken char rest => exact .refl _

/-- However an exponent is judged, the text behind its digits is what is left. -/
theorem rest_eq_of_judged {missing huge lost : Prop} [Decidable missing] [Decidable huge]
    [Decidable lost] {zero : Number} {scaled : Option Float} {shape : Float → Number}
    {left : List Char}
    (read : (if missing then none else if huge then if lost then none else some (zero, left)
      else scaled.map fun value => (shape value, left)) = some (number, rest)) : left = rest := by
  split at read
  · cases read
  · split at read
    · split at read
      · cases read
      · exact (Prod.mk.inj (Option.some.inj read)).2
    · obtain ⟨value, _, read_eq⟩ := Option.map_eq_some_iff.mp read
      exact (Prod.mk.inj read_eq).2

theorem spends_readExponent
    (read : readExponent negative significand exponent text = some (number, rest)) :
    Spends text rest := by
  simp only [readExponent] at read
  split at read
  · rw [← rest_eq_of_judged read]
    exact (Spends.refl _).digits.cons (by decide)
  · rw [← rest_eq_of_judged read]
    exact (Spends.refl _).digits.cons (by decide)
  · rw [← rest_eq_of_judged read]
    exact (Spends.refl _).digits

theorem spends_finish (read : finish negative significand exponent text = some (number, rest)) :
    Spends text rest := by
  rw [finish.eq_def] at read
  split at read
  · exact (spends_readExponent read).cons (by decide)
  · exact (spends_readExponent read).cons (by decide)
  · obtain ⟨value, _, read_eq⟩ := Option.map_eq_some_iff.mp read
    rw [(Prod.mk.inj read_eq).2]
    exact .refl rest

theorem spends_readFraction
    (read : readFraction negative significand exponent text = some (number, rest)) :
    Spends text rest := by
  rw [readFraction.eq_def] at read
  split at read
  next digit others =>
    split at read
    · exact (spends_takeDigits significand 0 (digit :: others)).trans (spends_finish read).digits
    · cases read
  · cases read

theorem spends_readTail (read : readTail negative significand text = some (number, rest)) :
    Spends text rest := by
  rw [readTail.eq_def] at read
  split at read
  · exact (spends_readFraction read).cons (by decide)
  · exact (spends_readExponent read).cons (by decide)
  · exact (spends_readExponent read).cons (by decide)
  · have rest_eq : text = rest := by
      split at read
      · exact (Prod.mk.inj (Option.some.inj read)).2
      · split at read
        · exact (Prod.mk.inj (Option.some.inj read)).2
        · exact (Prod.mk.inj (Option.some.inj read)).2
    rw [rest_eq]
    exact .refl rest

theorem spends_readLong (read : readLong negative significand text = some (number, rest)) :
    Spends text rest := by
  rw [readLong] at read
  refine Spends.digits ?_
  split at read
  next rest_eq =>
    rw [rest_eq]
    exact (spends_readFraction read).cons (by decide)
  next => exact spends_finish read

theorem spends_readUnsigned (read : readUnsigned negative text = some (number, rest)) :
    Spends text rest ∧ text ≠ [] := by
  rw [readUnsigned.eq_def] at read
  split at read
  · split at read
    · cases read
    · exact ⟨(spends_readTail read).cons (by decide), by simp⟩
  next digit others _ =>
    refine ⟨?_, by simp⟩
    split at read
    · have taken := spends_takeDigits 0 0 (digit :: others)
      simp only at read
      split at read
      · exact taken.trans (spends_readLong read)
      · exact taken.trans (spends_readTail read)
    · cases read
  · cases read

/-- A text that spells a number is made of the characters of number literals. -/
theorem isNumberChar_of_ofText? (spelled : ofText? text = some number) :
    text ≠ [] ∧ ∀ char ∈ text, isNumberChar char = true := by
  have spends_of_read : ∀ {rest}, read text = some (number, rest) → Spends text rest ∧ text ≠ [] := by
    intro rest read_text
    rw [read.eq_def] at read_text
    split at read_text
    · exact ⟨(spends_readUnsigned read_text).1.cons (by decide), by simp⟩
    · exact spends_readUnsigned read_text
  rw [ofText?] at spelled
  split at spelled
  next found read_text =>
    obtain rfl := Option.some.inj spelled
    obtain ⟨⟨used, text_eq, used_numbers⟩, filled⟩ := spends_of_read read_text
    rw [List.append_nil] at text_eq
    exact ⟨filled, text_eq ▸ used_numbers⟩
  · cases spelled

end StationGateway.Decimal.Number
