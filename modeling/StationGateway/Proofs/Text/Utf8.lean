import Mathlib
import StationGateway.Text.Utf8

/-!
# Texts as bytes

The bytes of a text are well-formed, and it is read from them. The lead byte of a character says how
many bytes there are, and the bits of all of them make up its code. Only the characters of ASCII are
written with bytes of ASCII.
-/

namespace StationGateway.Text

theorem toNat_ofNat_of_lt {code : Nat} (small : code < 256) : (UInt8.ofNat code).toNat = code := by
  rw [UInt8.toNat_ofNat', Nat.mod_eq_of_lt small]

section

variable {code : Nat}

/-! ## Lead bytes -/

theorem utf8Lead?_one (ascii : code < 0x80) :
    utf8Lead? (UInt8.ofNat code) = some ⟨0, 0, 0, code⟩ := by
  simp only [utf8Lead?, toNat_ofNat_of_lt (show code < 256 by omega)]
  rw [if_pos ascii]

theorem utf8Lead?_two (least : 0xC2 ≤ code) (greatest : code < 0xE0) :
    utf8Lead? (UInt8.ofNat code) = some ⟨1, 0x80, 0xBF, code % 0x20⟩ := by
  simp only [utf8Lead?, toNat_ofNat_of_lt (show code < 256 by omega)]
  rw [if_neg (by omega), if_neg (by omega), if_pos greatest]

theorem utf8Lead?_three (least : 0xE0 ≤ code) (greatest : code < 0xF0) :
    utf8Lead? (UInt8.ofNat code) = some ⟨2, if code = 0xE0 then 0xA0 else 0x80,
      if code = 0xED then 0x9F else 0xBF, code % 0x10⟩ := by
  simp only [utf8Lead?, toNat_ofNat_of_lt (show code < 256 by omega)]
  rw [if_neg (by omega), if_neg (by omega), if_neg (by omega)]
  by_cases least_lead : code = 0xE0
  · subst least_lead; rfl
  by_cases greatest_lead : code = 0xED
  · subst greatest_lead; rfl
  · simp only [if_neg least_lead, if_neg greatest_lead, if_pos greatest]

theorem utf8Lead?_four (least : 0xF0 ≤ code) (greatest : code ≤ 0xF4) :
    utf8Lead? (UInt8.ofNat code) = some ⟨3, if code = 0xF0 then 0x90 else 0x80,
      if code = 0xF4 then 0x8F else 0xBF, code % 8⟩ := by
  have cases_eq : code = 0xF0 ∨ code = 0xF1 ∨ code = 0xF2 ∨ code = 0xF3 ∨ code = 0xF4 := by omega
  rcases cases_eq with rfl | rfl | rfl | rfl | rfl <;> rfl

/-! ## Characters -/

/-- A byte within bounds continues a character. -/
theorem continueChar_succ (count : Nat) {least greatest : UInt8} (from_least : least.toNat ≤ code)
    (to_greatest : code ≤ greatest.toNat) (bits : Nat) (rest : List UInt8) :
    continueChar (count + 1) least greatest bits (UInt8.ofNat code :: rest) =
      continueChar count 0x80 0xBF (bits * 0x40 + code % 0x40) rest := by
  have small : code < 256 := by have := greatest.toNat_lt; omega
  rw [continueChar, if_pos, toNat_ofNat_of_lt small]
  rw [UInt8.le_iff_toNat_le, UInt8.le_iff_toNat_le, toNat_ofNat_of_lt small]
  exact ⟨from_least, to_greatest⟩

/-- What a lead byte begins is read to its end. -/
theorem utf8Chars_cons (budget : Nat) {byte : UInt8} {lead : Utf8Lead}
    (leads : utf8Lead? byte = some lead) {bytes rest : List UInt8} {char : Option Char}
    (continued : continueChar lead.continuations lead.least lead.greatest lead.bits bytes =
      (char, rest)) :
    utf8Chars (budget + 1) (byte :: bytes) = char :: utf8Chars budget rest := by
  rw [utf8Chars, leads]
  simp only [continued]

end

/-- A character is read from its bytes. -/
theorem utf8Chars_utf8EncodeChar (budget : Nat) (char : Char) (rest : List UInt8) :
    utf8Chars (budget + 1) (String.utf8EncodeChar char ++ rest) =
      some char :: utf8Chars budget rest := by
  have back : Char.ofNat char.val.toNat = char := Char.ofNat_toNat char
  have valid : char.val.toNat < 0xD800 ∨
      0xDFFF < char.val.toNat ∧ char.val.toNat < 0x110000 := char.valid
  simp only [String.utf8EncodeChar]
  generalize char.val.toNat = code at back valid
  have last_low : 0x80 ≤ code % 64 + 128 := by omega
  have last_high : code % 64 + 128 ≤ 0xBF := by omega
  split_ifs with one two three
  · exact utf8Chars_cons budget (utf8Lead?_one (by omega)) (by rw [continueChar, back]; rfl)
  · refine utf8Chars_cons budget (utf8Lead?_two (by omega) (by omega)) ?_
    have bits_eq : (code / 64 % 32 + 192) % 32 * 64 + (code % 64 + 128) % 64 = code := by omega
    refine (continueChar_succ 0 last_low last_high _ rest).trans ?_
    rw [continueChar, bits_eq, back]
  · refine utf8Chars_cons budget (utf8Lead?_three (by omega) (by omega)) ?_
    have bits_eq : ((code / 4096 % 16 + 224) % 16 * 64 + (code / 64 % 64 + 128) % 64) * 64 +
        (code % 64 + 128) % 64 = code := by
      omega
    refine (continueChar_succ 1 ?_ ?_ _ _).trans <|
      (continueChar_succ 0 last_low last_high _ rest).trans ?_
    · simp only [apply_ite UInt8.toNat, UInt8.reduceToNat]
      split_ifs <;> omega
    · simp only [apply_ite UInt8.toNat, UInt8.reduceToNat]
      split_ifs <;> omega
    · rw [continueChar, bits_eq, back]
  · refine utf8Chars_cons budget (utf8Lead?_four (by omega) (by omega)) ?_
    have bits_eq : (((code / 262144 % 8 + 240) % 8 * 64 + (code / 4096 % 64 + 128) % 64) * 64 +
        (code / 64 % 64 + 128) % 64) * 64 + (code % 64 + 128) % 64 = code := by
      omega
    refine (continueChar_succ 2 ?_ ?_ _ _).trans <|
      (continueChar_succ 1 (show 0x80 ≤ code / 64 % 64 + 128 by omega)
        (show code / 64 % 64 + 128 ≤ 0xBF by omega) _ _).trans <|
      (continueChar_succ 0 last_low last_high _ rest).trans ?_
    · simp only [apply_ite UInt8.toNat, UInt8.reduceToNat]
      split_ifs <;> omega
    · simp only [apply_ite UInt8.toNat, UInt8.reduceToNat]
      split_ifs <;> omega
    · rw [continueChar, bits_eq, back]

/-- The characters of a text are read from its bytes. -/
theorem utf8Chars_utf8Bytes {budget : Nat} {text : List Char} (enough : text.length ≤ budget) :
    utf8Chars budget (utf8Bytes text) = text.map some := by
  induction text generalizing budget with
  | nil => cases budget <;> rfl
  | cons char rest induction =>
      obtain ⟨budget, rfl⟩ : ∃ smaller, budget = smaller + 1 :=
        ⟨budget - 1, by rw [List.length_cons] at enough; omega⟩
      rw [utf8Bytes, List.flatMap_cons, utf8Chars_utf8EncodeChar, List.map_cons]
      exact congrArg _ (induction (Nat.le_of_succ_le_succ enough))

theorem length_le_length_utf8Bytes (text : List Char) : text.length ≤ (utf8Bytes text).length := by
  induction text with
  | nil => exact Nat.zero_le 0
  | cons char rest induction =>
      have positive := char.utf8Size_pos
      rw [utf8Bytes, List.flatMap_cons, List.length_append, String.length_utf8EncodeChar,
        List.length_cons]
      rw [utf8Bytes] at induction
      omega

/-- A text is read from its bytes. -/
theorem decodeUtf8?_utf8Bytes (text : List Char) : decodeUtf8? (utf8Bytes text) = some text := by
  rw [decodeUtf8?, utf8Chars_utf8Bytes (length_le_length_utf8Bytes text)]
  induction text with
  | nil => rfl
  | cons char rest induction => rw [List.map_cons, List.mapM_cons, induction]; rfl

/-! ## Bytes of ASCII -/

/-- A byte of ASCII stands for its own character, and nothing else is written with it. -/
theorem utf8EncodeChar_of_mem {char : Char} {byte : UInt8}
    (member : byte ∈ String.utf8EncodeChar char) (ascii : byte.toNat < 0x80) :
    String.utf8EncodeChar char = [byte] ∧ char.toNat = byte.toNat := by
  have code_eq : char.toNat = char.val.toNat := rfl
  rw [code_eq]
  simp only [String.utf8EncodeChar] at member ⊢
  generalize char.val.toNat = code at member ⊢
  split_ifs at member ⊢ with one two three
  · obtain rfl := List.mem_singleton.mp member
    exact ⟨rfl, (toNat_ofNat_of_lt (by omega)).symm⟩
  -- All bytes of a longer character are beyond ASCII.
  all_goals
    simp only [List.mem_cons, List.not_mem_nil, or_false] at member
    rcases member with rfl | rfl | rfl | rfl
    all_goals
      rw [toNat_ofNat_of_lt (by omega)] at ascii
      omega

theorem utf8EncodeChar_ne_nil (char : Char) : String.utf8EncodeChar char ≠ [] := by
  rw [← List.length_pos_iff, String.length_utf8EncodeChar]
  exact char.utf8Size_pos

/-- Bytes that begin with one of ASCII are those of a text that begins with its character. -/
theorem exists_cons_of_utf8Bytes {text : List Char} {byte : UInt8} {bytes : List UInt8}
    (bytes_eq : utf8Bytes text = byte :: bytes) (ascii : byte.toNat < 0x80) :
    ∃ char rest, text = char :: rest ∧ char.toNat = byte.toNat ∧ utf8Bytes rest = bytes := by
  cases text with
  | nil => cases bytes_eq
  | cons char rest =>
      rw [utf8Bytes, List.flatMap_cons] at bytes_eq
      obtain ⟨first, others, first_eq⟩ := List.exists_cons_of_ne_nil (utf8EncodeChar_ne_nil char)
      rw [first_eq, List.cons_append] at bytes_eq
      obtain ⟨rfl, rest_eq⟩ := List.cons.inj bytes_eq
      obtain ⟨single, code_eq⟩ := utf8EncodeChar_of_mem (first_eq ▸ List.mem_cons_self) ascii
      rw [single] at first_eq
      rw [← (List.cons.inj first_eq).2, List.nil_append] at rest_eq
      exact ⟨char, rest, rfl, code_eq, rest_eq⟩

end StationGateway.Text
