import Mathlib
import StationGateway.Proofs.Text.Utf8
import StationGateway.Text.Percent

/-!
# Texts without percent signs to resolve

A percent sign stands for itself unless two hexadecimal digits follow. So a segment of a path in which
this is nowhere the case is its own text.
-/

namespace StationGateway.Text

/-- Whether no percent sign of a text stands before two hexadecimal digits. -/
def Unescaped (text : List Char) : Prop :=
  ∀ first second rest, '%' :: first :: second :: rest <:+ text →
    hexValue? first = none ∨ hexValue? second = none

theorem unescaped_of_notMem {text : List Char} (absent : '%' ∉ text) : Unescaped text :=
  fun _ _ _ ends => absurd (ends.subset List.mem_cons_self) absent

/-! ## Bytes -/

theorem resolvePercents_cons_of_ne {byte : UInt8} (ne : byte ≠ 0x25) (rest : List UInt8) :
    resolvePercents (byte :: rest) = byte :: resolvePercents rest := by
  rw [resolvePercents]
  exact fun _ _ _ is_percent => absurd is_percent ne

theorem resolvePercents_append {front : List UInt8} (absent : 0x25 ∉ front) (back : List UInt8) :
    resolvePercents (front ++ back) = front ++ resolvePercents back := by
  induction front with
  | nil => rfl
  | cons byte rest induction =>
      rw [List.mem_cons, not_or] at absent
      rw [List.cons_append, resolvePercents_cons_of_ne (Ne.symm absent.1), induction absent.2,
        List.cons_append]

/-- A percent sign that does not stand before two hexadecimal digits stands for itself. -/
theorem resolvePercents_cons_percent {bytes : List UInt8}
    (plain : ∀ first second rest, bytes = first :: second :: rest →
      hexByte? first = none ∨ hexByte? second = none) :
    resolvePercents (0x25 :: bytes) = 0x25 :: resolvePercents bytes := by
  rcases bytes with _ | ⟨first, _ | ⟨second, rest⟩⟩
  · rfl
  · rfl
  · rw [resolvePercents]
    rcases plain first second rest rfl with no_digit | no_digit
    · rw [no_digit]
    · rw [no_digit]
      cases hexByte? first <;> rfl

/-! ## Digits -/

/-- Hexadecimal digits are characters of ASCII. -/
theorem toNat_lt_of_hexValue? {char : Char} (digit : hexValue? char ≠ none) : char.toNat < 0x80 := by
  have code_eq : char.toNat = char.val.toNat := rfl
  rw [hexValue?] at digit
  split_ifs at digit with is_digit is_small is_capital
  · have greatest : char.toNat ≤ 57 := (Char.isDigit_iff_toNat.mp is_digit).2
    omega
  · have greatest : char.val.toNat ≤ 102 := UInt32.le_iff_toNat_le.mp is_small.2
    omega
  · have greatest : char.val.toNat ≤ 70 := UInt32.le_iff_toNat_le.mp is_capital.2
    omega
  · exact absurd rfl digit

theorem hexValue?_of_hexByte? {byte : UInt8} (digit : hexByte? byte ≠ none) :
    byte.toNat < 0x80 ∧ hexValue? (Char.ofNat byte.toNat) ≠ none := by
  have char_digit : hexValue? (Char.ofNat byte.toNat) ≠ none := by simpa [hexByte?] using digit
  have valid : byte.toNat.isValidChar := .inl (by have := byte.toNat_lt; omega)
  have ascii := toNat_lt_of_hexValue? char_digit
  rw [Char.toNat_ofNat, if_pos valid] at ascii
  exact ⟨ascii, char_digit⟩

/-! ## Texts -/

/-- The bytes of a text without percent signs to resolve stay as they are. -/
theorem resolvePercents_utf8Bytes {text : List Char} (unescaped : Unescaped text) :
    resolvePercents (utf8Bytes text) = utf8Bytes text := by
  induction text with
  | nil => rfl
  | cons char rest induction =>
      have rest_eq := induction fun first second after ends =>
        unescaped first second after (ends.trans (List.suffix_cons char rest))
      have bytes_eq : utf8Bytes (char :: rest) = String.utf8EncodeChar char ++ utf8Bytes rest := rfl
      by_cases is_percent : char = '%'
      · subst is_percent
        have percent_eq : String.utf8EncodeChar '%' = [0x25] := rfl
        rw [bytes_eq, percent_eq, List.singleton_append, resolvePercents_cons_percent, rest_eq]
        intro first second after after_eq
        by_contra digits
        rw [not_or] at digits
        -- Bytes of two digits are those of two digits that follow in the text.
        obtain ⟨first_ascii, first_digit⟩ := hexValue?_of_hexByte? digits.1
        obtain ⟨second_ascii, second_digit⟩ := hexValue?_of_hexByte? digits.2
        obtain ⟨first_char, others, rfl, first_eq, others_eq⟩ :=
          exists_cons_of_utf8Bytes after_eq first_ascii
        obtain ⟨second_char, more, rfl, second_eq, -⟩ :=
          exists_cons_of_utf8Bytes others_eq second_ascii
        rw [← first_eq, Char.ofNat_toNat] at first_digit
        rw [← second_eq, Char.ofNat_toNat] at second_digit
        exact (unescaped first_char second_char more (List.suffix_refl _)).elim first_digit
          second_digit
      · rw [bytes_eq, resolvePercents_append, rest_eq]
        intro member
        obtain ⟨-, code_eq⟩ := utf8EncodeChar_of_mem member (by decide)
        exact is_percent (by rw [← Char.ofNat_toNat char, code_eq]; rfl)

/-- A segment without percent signs to resolve is its own text. -/
theorem decodeSegment?_eq_some {segment : String} (unescaped : Unescaped segment.toList) :
    decodeSegment? segment = some segment := by
  rw [decodeSegment?, resolvePercents_utf8Bytes unescaped, decodeUtf8?_utf8Bytes, Option.map_some,
    String.ofList_toList]

end StationGateway.Text
