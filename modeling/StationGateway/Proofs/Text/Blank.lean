import Mathlib.Data.List.DropRight
import Mathlib.Data.List.TakeWhile
import Mathlib.Data.String.Basic
import StationGateway.Text.Blank

/-!
# Texts without blanks at their ends

What is taken off a text at its ends is blank, and there is nothing more to take off then.
-/

namespace StationGateway.Text

theorem isBlank_of_visible {char : Char} (least : 33 ≤ char.toNat) (greatest : char.toNat ≤ 126) :
    isBlank char = false := by
  simp only [isBlank, Bool.or_eq_false_iff, Bool.and_eq_false_iff, decide_eq_false_iff_not,
    beq_eq_false_iff_ne]
  omega

theorem toNat_of_isDigit {char : Char} (digit : char.isDigit = true) :
    48 ≤ char.toNat ∧ char.toNat ≤ 57 := by
  obtain ⟨least, greatest⟩ := (Bool.and_eq_true _ _).mp digit
  exact ⟨UInt32.le_iff_toNat_le.mp (of_decide_eq_true least),
    UInt32.le_iff_toNat_le.mp (of_decide_eq_true greatest)⟩

theorem dropBlanks_cons {char : Char} (visible : isBlank char = false) (rest : List Char) :
    dropBlanks (char :: rest) = char :: rest :=
  List.dropWhile_cons_of_neg (by simp [visible])

/-- The blanks at the end of a text are what `dropBlanksRight` takes from it. -/
theorem exists_append_dropBlanksRight (text : List Char) :
    ∃ blanks, text = dropBlanksRight text ++ blanks ∧ ∀ char ∈ blanks, isBlank char = true := by
  refine ⟨(text.reverse.takeWhile isBlank).reverse, ?_, ?_⟩
  · rw [dropBlanksRight, ← List.reverse_append, List.takeWhile_append_dropWhile,
      List.reverse_reverse]
  · intro char member
    exact List.mem_takeWhile_imp (List.mem_reverse.mp member)

theorem dropBlanksRight_ne_nil {text : List Char} {char : Char} (member : char ∈ text)
    (visible : isBlank char = false) : dropBlanksRight text ≠ [] := by
  obtain ⟨blanks, text_eq, blank⟩ := exists_append_dropBlanksRight text
  intro nothing
  rw [nothing, List.nil_append] at text_eq
  have is_blank := blank char (text_eq ▸ member)
  simp [visible] at is_blank

theorem dropBlanksRight_append (before : List Char) {text : List Char} {char : Char}
    (member : char ∈ text) (visible : isBlank char = false) :
    dropBlanksRight (before ++ text) = before ++ dropBlanksRight text := by
  have filled : (text.reverse.dropWhile isBlank).isEmpty = false := by
    have kept := dropBlanksRight_ne_nil member visible
    rw [dropBlanksRight] at kept
    simpa using kept
  rw [dropBlanksRight, List.reverse_append, List.dropWhile_append, filled]
  simp [dropBlanksRight]

theorem dropBlanksRight_dropBlanksRight (text : List Char) :
    dropBlanksRight (dropBlanksRight text) = dropBlanksRight text := by
  rw [dropBlanksRight, dropBlanksRight, List.reverse_reverse, List.dropWhile_idempotent]

/-- Taking blanks off the end leaves the beginning as it is. -/
theorem dropBlanks_dropBlanksRight (text : List Char) :
    dropBlanks (dropBlanksRight (dropBlanks text)) = dropBlanksRight (dropBlanks text) := by
  cases kept_eq : dropBlanks text with
  | nil => rfl
  | cons first rest =>
      have visible : isBlank first = false := by
        have head_eq : (text.dropWhile isBlank).head? = some first := by
          rw [dropBlanks] at kept_eq
          rw [kept_eq]
          rfl
        have not_blank := List.head?_dropWhile_not isBlank text
        rw [head_eq] at not_blank
        exact not_blank
      obtain ⟨blanks, whole, -⟩ := exists_append_dropBlanksRight (first :: rest)
      obtain ⟨head, others, begins⟩ := List.exists_cons_of_ne_nil
        (dropBlanksRight_ne_nil (List.mem_cons_self (a := first) (l := rest)) visible)
      rw [begins, List.cons_append] at whole
      rw [begins, ← (List.cons.inj whole).1, dropBlanks_cons visible]

theorem trim_subset (text : List Char) : trim text ⊆ text := by
  obtain ⟨blanks, kept_eq, -⟩ := exists_append_dropBlanksRight (dropBlanks text)
  intro char member
  have kept : char ∈ dropBlanks text := kept_eq ▸ List.mem_append_left blanks member
  exact (List.dropWhile_sublist isBlank).subset kept

/-- Characters that are not blank stay. -/
theorem mem_trim {char : Char} {text : List Char} (member : char ∈ text)
    (visible : isBlank char = false) : char ∈ trim text := by
  obtain ⟨blanks, kept_eq, blank⟩ := exists_append_dropBlanksRight (dropBlanks text)
  rw [← List.takeWhile_append_dropWhile (p := isBlank) (l := text), List.mem_append] at member
  rcases member with dropped | kept
  · simp [List.mem_takeWhile_imp dropped] at visible
  · rw [← dropBlanks, kept_eq, List.mem_append] at kept
    exact kept.resolve_right fun in_blanks => by simp [blank char in_blanks] at visible

theorem trim_trim (text : List Char) : trim (trim text) = trim text := by
  rw [trim, trim, dropBlanks_dropBlanksRight, dropBlanksRight_dropBlanksRight]

theorem trim_append {text after : List Char} (filled : text ≠ [])
    (visible : ∀ char ∈ text, isBlank char = false) (blank : isBlankText after = true) :
    trim (text ++ after) = text := by
  obtain ⟨first, others, rfl⟩ := List.exists_cons_of_ne_nil filled
  have reversed_blank : ∀ char ∈ after.reverse, isBlank char = true := fun char member =>
    List.all_eq_true.mp blank char (List.mem_reverse.mp member)
  have reversed_visible : (first :: others).reverse.dropWhile isBlank = (first :: others).reverse := by
    have reversed_filled : (first :: others).reverse ≠ [] := by simp
    obtain ⟨last, rest, rest_eq⟩ := List.exists_cons_of_ne_nil reversed_filled
    have last_visible := visible last (List.mem_reverse.mp (rest_eq ▸ List.mem_cons_self))
    rw [rest_eq, List.dropWhile_cons_of_neg (by simp [last_visible])]
  rw [trim, List.cons_append, dropBlanks_cons (visible first List.mem_cons_self), ← List.cons_append,
    dropBlanksRight, List.reverse_append, List.dropWhile_append_of_pos reversed_blank,
    reversed_visible, List.reverse_reverse]

/-- A text without blanks stays as it is. -/
theorem trim_of_visible {text : List Char} (filled : text ≠ [])
    (visible : ∀ char ∈ text, isBlank char = false) : trim text = text := by
  have trimmed := trim_append filled visible (rfl : isBlankText [] = true)
  rwa [List.append_nil] at trimmed

end StationGateway.Text
