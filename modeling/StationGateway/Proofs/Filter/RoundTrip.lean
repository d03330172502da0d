import Mathlib
import StationGateway.Filter.Operator
import StationGateway.Proofs.Catalogue.Selector
import StationGateway.Proofs.Decimal.Literal
import StationGateway.Proofs.Filter.Notation

/-!
# Reading back what is written

A text that spells a filter is read as that filter, with its comparisons at the places where the
text has them: every reader stops exactly where the piece that it reads ends, whatever follows. -/

namespace StationGateway.Filter

open Decimal Text

/-! ## Blanks and words -/

/-- A text that a part or a value may end at. -/
def Ends (rest : List Char) : Prop :=
  ∀ char ∈ rest.head?, char = ',' ∨ char = ')'

theorem ends_comma (rest : List Char) : Ends (',' :: rest) := by
  simp [Ends]

theorem ends_closing (rest : List Char) : Ends (')' :: rest) := by
  simp [Ends]

theorem isBlank_of_ends {rest : List Char} (ends : Ends rest) :
    ∀ char ∈ rest.head?, isBlank char = false := by
  intro char member
  rcases ends char member with rfl | rfl
  · decide
  · decide

theorem skipBlanks_append {gap rest : List Char} (blank : isBlankText gap = true)
    (visible : ∀ char ∈ rest.head?, isBlank char = false) (position : Nat) :
    (Cursor.mk (gap ++ rest) position).skipBlanks = ⟨rest, position + gap.length⟩ := by
  have rest_visible : rest.takeWhile isBlank = [] := by
    cases rest with
    | nil => rfl
    | cons char others =>
        exact List.takeWhile_cons_of_neg (by simp [visible char rfl])
  have blanks : (gap ++ rest).takeWhile isBlank = gap := by
    rw [List.takeWhile_append_of_pos (List.all_eq_true.mp blank), rest_visible, List.append_nil]
  simp [Cursor.skipBlanks, Cursor.skip, blanks]

theorem word_append {name : String} (is_word : IsWord name) {rest : List Char}
    (ended : ∀ char ∈ rest.head?, isWordChar char = false) (position : Nat) :
    ∃ stop, word ⟨name.toList ++ rest, position⟩ = (name, ⟨rest, stop⟩) := by
  have rest_ended : rest.takeWhile isWordChar = [] := by
    cases rest with
    | nil => rfl
    | cons char others =>
        exact List.takeWhile_cons_of_neg (by simp [ended char rfl])
  have letters : (name.toList ++ rest).takeWhile isWordChar = name.toList := by
    rw [List.takeWhile_append_of_pos is_word.2, rest_ended, List.append_nil]
  refine ⟨position + name.toList.length, ?_⟩
  simp [word, Cursor.skip, letters]

/-! ## Literals -/

/-- Whether a character stands for itself in a value without quotes, wherever it stands. -/
def isPlain (char : Char) : Bool :=
  !isBlank char && !(['\\', ',', ')', '(', '\'', '"'].contains char)

theorem isPlain_of_isNumberChar {char : Char} (number : Number.isNumberChar char = true) :
    isPlain char = true := by
  rcases (Bool.or_eq_true _ _).mp number with digit | sign
  · obtain ⟨least, greatest⟩ := toNat_of_isDigit digit
    have visible := isBlank_of_visible (by omega) (by omega : char.toNat ≤ 126)
    have outside : ∀ other ∈ ['\\', ',', ')', '(', '\'', '"'],
        other.toNat < 48 ∨ 57 < other.toNat := by simp
    have ordinary : char ∉ ['\\', ',', ')', '(', '\'', '"'] := by
      intro member
      have is_outside := outside char member
      omega
    have not_contained : ['\\', ',', ')', '(', '\'', '"'].contains char = false := by
      rw [← Bool.not_eq_true, List.contains_iff_mem]
      exact ordinary
    rw [isPlain, visible, not_contained]
    rfl
  · have signs : ∀ sign ∈ ['-', '+', '.', 'e', 'E'], isPlain sign = true :=
      List.all_eq_true.mp (by decide)
    exact signs char (List.contains_iff_mem.mp sign)

theorem isBlank_of_isPlain {char : Char} (plain : isPlain char = true) : isBlank char = false := by
  have visible := (Bool.and_eq_true _ _).mp plain |>.1
  simpa using visible

theorem isPlain_of_spelled {value : Literal} {text : List Char} (spelled : value.Spelled text)
    (unquoted : ∀ content, value ≠ .text content) :
    text ≠ [] ∧ ∀ char ∈ text, isPlain char = true := by
  cases value with
  | null =>
      obtain rfl : text = "null".toList := spelled
      exact ⟨by decide, List.all_eq_true.mp (by decide)⟩
  | boolean value =>
      cases value with
      | true =>
          obtain rfl : text = "true".toList := spelled
          exact ⟨by decide, List.all_eq_true.mp (by decide)⟩
      | false =>
          obtain rfl : text = "false".toList := spelled
          exact ⟨by decide, List.all_eq_true.mp (by decide)⟩
  | number value =>
      obtain ⟨filled, numbers⟩ := Number.isNumberChar_of_ofText? spelled
      exact ⟨filled, fun char member => isPlain_of_isNumberChar (numbers char member)⟩
  | text content => exact absurd rfl (unquoted content)

theorem bareLiteral_of_spelled {value : Literal} {text : List Char} (spelled : value.Spelled text)
    (unquoted : ∀ content, value ≠ .text content) : bareLiteral text = value := by
  cases value with
  | null =>
      obtain rfl : text = "null".toList := spelled
      rfl
  | boolean value =>
      cases value with
      | true =>
          obtain rfl : text = "true".toList := spelled
          rfl
      | false =>
          obtain rfl : text = "false".toList := spelled
          rfl
  | number value =>
      have numbers := (Number.isNumberChar_of_ofText? spelled).2
      have no_word : text ≠ ['n', 'u', 'l', 'l'] ∧ text ≠ ['t', 'r', 'u', 'e'] ∧
          text ≠ ['f', 'a', 'l', 's', 'e'] := by
        refine ⟨?_, ?_, ?_⟩
        · rintro rfl
          exact absurd (numbers 'n' (by simp)) (by decide)
        · rintro rfl
          exact absurd (numbers 't' (by simp)) (by decide)
        · rintro rfl
          exact absurd (numbers 'f' (by simp)) (by decide)
      have read : Number.ofText? text = some value := spelled
      simp only [bareLiteral, if_neg no_word.1, if_neg no_word.2.1, if_neg no_word.2.2, read]
  | text content => exact absurd rfl (unquoted content)

/-- Plain characters and blanks are read as they are, up to where the value ends. -/
theorem readBareChars_append {text rest : List Char}
    (ordinary : ∀ char ∈ text, isPlain char = true ∨ isBlank char = true) (ends : Ends rest)
    (seen : List Char) (position : Nat) :
    ∃ stop, readBareChars seen false position (text ++ rest) =
      .ok ((text.reverse ++ seen, false), ⟨rest, stop⟩) := by
  induction text generalizing seen position with
  | nil =>
      cases rest with
      | nil => exact ⟨position, rfl⟩
      | cons char others =>
          refine ⟨position, ?_⟩
          have is_end := ends char rfl
          rw [List.nil_append, readBareChars, if_pos is_end]
          · rfl
          · rintro rfl _
            simp at is_end
          · rintro _ _ rfl _
            simp at is_end
  | cons char others induction =>
      have kept : char ∉ ['\\', ',', ')', '(', '\'', '"'] := by
        intro member
        rcases ordinary char List.mem_cons_self with plain | blank
        · have not_contained := (Bool.and_eq_true _ _).mp plain |>.2
          rw [List.contains_iff_mem.mpr member] at not_contained
          cases not_contained
        · have visible : ∀ other ∈ ['\\', ',', ')', '(', '\'', '"'], isBlank other = false := by
            simp [isBlank]
          rw [visible char member] at blank
          cases blank
      simp only [List.mem_cons, List.not_mem_nil, or_false, not_or] at kept
      obtain ⟨no_escape, no_comma, no_closing, no_opening, no_quote, _⟩ := kept
      obtain ⟨stop, read⟩ := induction
        (fun other member => ordinary other (List.mem_cons_of_mem char member)) (char :: seen)
        (position + 1)
      refine ⟨stop, ?_⟩
      rw [List.cons_append, readBareChars, if_neg (by simp [no_comma, no_closing]),
        if_neg (by simp [no_opening, no_quote]), read]
      · simp
      · exact fun same _ => no_escape same
      · exact fun _ _ same _ => no_escape same

theorem readQuoted_escaped (content : List Char) (opening : Nat) (seen rest : List Char)
    (position : Nat) :
    ∃ stop, readQuoted '\'' opening seen position (content.flatMap escaped ++ '\'' :: rest) =
      .ok (.text (String.ofList (seen.reverse ++ content)), ⟨rest, stop⟩) := by
  induction content generalizing seen position with
  | nil => exact ⟨position + 1, by simp [readQuoted]⟩
  | cons char others induction =>
      rw [List.flatMap_cons, escaped]
      split
      next =>
        obtain ⟨stop, read⟩ := induction (char :: seen) (position + 2)
        refine ⟨stop, ?_⟩
        simpa [readQuoted] using read
      next ordinary =>
        rw [not_or] at ordinary
        obtain ⟨stop, read⟩ := induction (char :: seen) (position + 1)
        refine ⟨stop, ?_⟩
        rw [List.append_assoc, List.singleton_append, readQuoted, if_neg ordinary.2, read]
        · simp
        · exact fun same _ => ordinary.1 same
        · exact fun _ _ same _ => ordinary.1 same

/-- A value that is written behind blanks is read, with the blanks behind it. -/
theorem readLiteral_of_spelled {value : Literal} {before text after rest : List Char}
    (blank_before : isBlankText before = true) (spelled : value.Spelled text)
    (blank_after : isBlankText after = true) (ends : Ends rest) (position : Nat) :
    ∃ stop, readLiteral ⟨before ++ (text ++ (after ++ rest)), position⟩ =
      .ok (value, ⟨rest, stop⟩) := by
  by_cases quoted : ∃ content, value = .text content
  · obtain ⟨content, rfl⟩ := quoted
    obtain rfl : text = '\'' :: (content.toList.flatMap escaped ++ ['\'']) := spelled
    have quote_visible : ∀ char ∈ ('\'' ::
        (content.toList.flatMap escaped ++ '\'' :: (after ++ rest))).head?, isBlank char = false := by
      rintro char ⟨rfl⟩
      decide
    have skipped := skipBlanks_append blank_before quote_visible position
    obtain ⟨stop, read⟩ := readQuoted_escaped content.toList (position + before.length) []
      (after ++ rest) (position + before.length + 1)
    have skipped_after := skipBlanks_append blank_after (isBlank_of_ends ends) stop
    refine ⟨stop + after.length, ?_⟩
    simp only [List.cons_append, List.append_assoc, List.nil_append, readLiteral, skipped,
      readQuotedLiteral, List.drop_one, List.tail_cons, read, bind, Except.bind, skipped_after]
    cases rest with
    | nil => simp
    | cons char others => simp [ends char rfl]
  · have unquoted : ∀ content, value ≠ .text content := fun content same =>
      quoted ⟨content, same⟩
    obtain ⟨filled, plain⟩ := isPlain_of_spelled spelled unquoted
    have visible : ∀ char ∈ text, isBlank char = false := fun char member =>
      isBlank_of_isPlain (plain char member)
    obtain ⟨first, others, text_eq⟩ := List.exists_cons_of_ne_nil filled
    have first_plain := plain first (text_eq ▸ List.mem_cons_self)
    have text_visible : ∀ char ∈ (text ++ (after ++ rest)).head?, isBlank char = false := by
      simp [text_eq, isBlank_of_isPlain first_plain]
    have skipped := skipBlanks_append blank_before text_visible position
    have ordinary : ∀ char ∈ text ++ after, isPlain char = true ∨ isBlank char = true := by
      intro char member
      rcases List.mem_append.mp member with in_text | in_after
      · exact .inl (plain char in_text)
      · exact .inr (List.all_eq_true.mp blank_after char in_after)
    obtain ⟨stop, read⟩ := readBareChars_append ordinary ends [] (position + before.length)
    have trimmed_eq := trim_append filled visible blank_after
    have read_bare : readBare ⟨text ++ (after ++ rest), position + before.length⟩ =
        .ok (value, ⟨rest, stop⟩) := by
      have text_filled : text.isEmpty = false := by simp [filled]
      rw [List.append_assoc] at read
      simp only [readBare, read, bind, Except.bind, List.append_nil, List.reverse_reverse,
        trimmed_eq, text_filled, Bool.false_eq_true, if_false,
        bareLiteral_of_spelled spelled unquoted]
    refine ⟨stop, ?_⟩
    rw [readLiteral, skipped, ← read_bare]
    simp only [text_eq, List.cons_append]
    split
    next same =>
      rw [(List.cons.inj same).1] at first_plain
      exact absurd first_plain (by decide)
    next same =>
      rw [(List.cons.inj same).1] at first_plain
      exact absurd first_plain (by decide)
    next => rfl

/-! ## Operands -/

theorem readMoreLiterals_of_spelled {values : List Literal} {text : List Char}
    (spelled : SpelledValues values text) (seen : List Literal) (rest : List Char) (position : Nat)
    {budget : Nat} (enough : text.length + 1 < budget) :
    ∃ stop, readMoreLiterals budget seen ⟨',' :: (text ++ ')' :: rest), position⟩ =
      .ok (seen.reverse ++ values, ⟨rest, stop⟩) := by
  induction spelled generalizing seen position budget with
  | @last value before text after blank_before spelled blank_after =>
      obtain ⟨budget, rfl⟩ : ∃ smaller, budget = smaller + 2 := ⟨budget - 2, by omega⟩
      obtain ⟨stop, read⟩ := readLiteral_of_spelled blank_before spelled blank_after
        (ends_closing rest) (position + 1)
      refine ⟨stop + 1, ?_⟩
      simp [readMoreLiterals, read, bind, Except.bind]
  | @more value values before text after others blank_before spelled blank_after _ induction =>
      obtain ⟨budget, rfl⟩ : ∃ smaller, budget = smaller + 1 := ⟨budget - 1, by omega⟩
      obtain ⟨middle, read⟩ := readLiteral_of_spelled blank_before spelled blank_after
        (ends_comma (others ++ ')' :: rest)) (position + 1)
      simp only [List.length_append, List.length_cons] at enough
      obtain ⟨stop, read_others⟩ := induction (value :: seen) middle
        (show others.length + 1 < budget by omega)
      refine ⟨stop, ?_⟩
      rw [List.reverse_cons, List.append_assoc, List.singleton_append] at read_others
      simpa [readMoreLiterals, read, bind, Except.bind] using read_others

/-- A literal does not begin with a parenthesis. -/
theorem ne_parenthesis_of_spelled {value : Literal} {text : List Char}
    (spelled : value.Spelled text) : ∃ first others, text = first :: others ∧ first ≠ '(' := by
  by_cases quoted : ∃ content, value = .text content
  · obtain ⟨content, rfl⟩ := quoted
    exact ⟨'\'', _, spelled, by decide⟩
  · obtain ⟨filled, plain⟩ := isPlain_of_spelled spelled fun content same => quoted ⟨content, same⟩
    obtain ⟨first, others, rfl⟩ := List.exists_cons_of_ne_nil filled
    refine ⟨first, others, rfl, ?_⟩
    rintro rfl
    exact absurd (plain '(' List.mem_cons_self) (by decide)

theorem readOperand_scalar {value : Literal} {before text rest : List Char}
    (blank_before : isBlankText before = true) (spelled : value.Spelled text) (position : Nat) :
    readOperand ⟨before ++ (text ++ rest), position⟩ =
      readLiteral ⟨before ++ (text ++ rest), position⟩ >>=
        fun result => .ok (.scalar result.1, result.2) := by
  obtain ⟨first, others, rfl, first_ne⟩ := ne_parenthesis_of_spelled spelled
  rw [readOperand]
  split
  next same =>
    cases before with
    | nil => exact absurd (List.cons.inj same).1 first_ne
    | cons char blanks =>
        have blank := List.all_eq_true.mp blank_before char List.mem_cons_self
        rw [(List.cons.inj same).1] at blank
        exact absurd blank (by decide)
  next => rfl

theorem skipBlanks_rest {gap rest : List Char} (blank : isBlankText gap = true) (ends : Ends rest)
    (position : Nat) : (Cursor.mk (gap ++ rest) position).skipBlanks.rest = rest := by
  rw [skipBlanks_append blank (isBlank_of_ends ends)]

theorem skipBlanks_rest_of_rest {gap rest : List Char} {cursor : Cursor}
    (blank : isBlankText gap = true) (ends : Ends rest) (rest_eq : cursor.rest = gap ++ rest) :
    cursor.skipBlanks.rest = rest := by
  obtain ⟨cursor_rest, position⟩ := cursor
  obtain rfl : cursor_rest = gap ++ rest := rest_eq
  exact skipBlanks_rest blank ends position

/-- An operand is read up to where the part ends; blanks may be left before that. -/
theorem readOperand_of_spelled {operand : Operand} {text after rest : List Char}
    (spelled : operand.Spelled text) (blank_after : isBlankText after = true) (ends : Ends rest)
    (position : Nat) :
    ∃ next, readOperand ⟨text ++ (after ++ rest), position⟩ = .ok (operand, next) ∧
      next.skipBlanks.rest = rest := by
  cases spelled with
  | @scalar value before text blank_before spelled =>
      obtain ⟨stop, read⟩ := readLiteral_of_spelled blank_before spelled blank_after ends position
      refine ⟨⟨rest, stop⟩, ?_, skipBlanks_rest isBlankText_nil ends stop⟩
      rw [List.append_assoc, readOperand_scalar blank_before spelled, read]
      rfl
  | @list values text spelled =>
      suffices listed : ∃ stop, readOperand ⟨'(' :: (text ++ ')' :: (after ++ rest)), position⟩ =
          .ok (.list values, ⟨after ++ rest, stop⟩) by
        obtain ⟨stop, read⟩ := listed
        refine ⟨⟨after ++ rest, stop⟩, ?_, skipBlanks_rest blank_after ends stop⟩
        rw [← read]
        simp
      cases spelled with
      | @last value before text blanks blank_before spelled blank_blanks =>
          obtain ⟨stop, read⟩ := readLiteral_of_spelled blank_before spelled blank_blanks
            (ends_closing (after ++ rest)) (position + 1)
          refine ⟨stop + 1, ?_⟩
          simp [readOperand, read, bind, Except.bind, readMoreLiterals]
      | @more value values before text blanks others blank_before spelled blank_blanks rest_spelled =>
          obtain ⟨middle, read⟩ := readLiteral_of_spelled blank_before spelled blank_blanks
            (ends_comma (others ++ ')' :: (after ++ rest))) (position + 1)
          have enough : others.length + 1 <
              (',' :: (others ++ ')' :: (after ++ rest))).length + 1 := by
            simp only [List.length_cons, List.length_append]
            omega
          obtain ⟨stop, read_others⟩ := readMoreLiterals_of_spelled rest_spelled [value]
            (after ++ rest) middle enough
          refine ⟨stop, ?_⟩
          simp only [List.append_assoc, List.cons_append, readOperand, read, bind, Except.bind,
            read_others]
          rfl

/-! ## Comparisons -/

/-- The path and the operator behind a key are read up to the point behind the operator. -/
theorem readSegments_append {isOperator : String → Bool} {path : List String} {operator : String}
    (segments : ∀ segment ∈ path, IsWord segment ∧ isOperator segment = false)
    (operator_word : IsWord operator) (known : isOperator operator = true) (seen : List String)
    (rest : List Char) (position : Nat) {budget : Nat} (enough : path.length < budget) :
    ∃ stop,
      readSegments isOperator budget seen
          ⟨(path ++ [operator]).flatMap (fun segment => '.' :: segment.toList) ++ '.' :: rest,
            position⟩ =
        .ok ((path.reverse ++ seen, operator), ⟨rest, stop⟩) := by
  have point_ends : ∀ char ∈ ('.' :: rest).head?, isWordChar char = false := by simp; decide
  induction path generalizing seen position budget with
  | nil =>
      obtain ⟨budget, rfl⟩ : ∃ smaller, budget = smaller + 1 := ⟨budget - 1, by omega⟩
      obtain ⟨stop, read⟩ := word_append operator_word point_ends (position + 1)
      refine ⟨stop + 1, ?_⟩
      simp [readSegments, Cursor.expect, bind, Except.bind, read, operator_word.1, known]
  | cons segment path induction =>
      obtain ⟨budget, rfl⟩ : ∃ smaller, budget = smaller + 1 := ⟨budget - 1, by omega⟩
      have segment_fine := segments segment List.mem_cons_self
      obtain ⟨first, others, others_eq⟩ := List.exists_cons_of_ne_nil
        (by simp : path ++ [operator] ≠ [])
      have more_ends : ∀ char ∈ ((path ++ [operator]).flatMap
          (fun segment => '.' :: segment.toList) ++ '.' :: rest).head?, isWordChar char = false := by
        simp [others_eq]
        decide
      obtain ⟨middle, read⟩ := word_append segment_fine.1 more_ends (position + 1)
      obtain ⟨stop, read_more⟩ := induction
        (fun other member => segments other (List.mem_cons_of_mem segment member))
        (segment :: seen) middle (Nat.lt_of_succ_lt_succ enough)
      refine ⟨stop, ?_⟩
      rw [List.reverse_cons, List.append_assoc, List.singleton_append, ← read_more]
      rw [others_eq] at read ⊢
      simp only [List.cons_append, others_eq, List.flatMap_cons, List.append_assoc, readSegments,
        Cursor.expect, if_true, bind, Except.bind] at read ⊢
      simp [read, segment_fine.1.1, segment_fine.2]

theorem length_lt_middle (clause : Clause) : clause.path.length < clause.middle.length := by
  have le_flatMap : ∀ segments : List String,
      segments.length ≤ (segments.flatMap fun segment => '.' :: segment.toList).length := by
    intro segments
    induction segments with
    | nil => exact Nat.le_refl 0
    | cons segment rest induction =>
        simp only [List.flatMap_cons, List.length_append, List.length_cons]
        omega
  have middle_le := le_flatMap (clause.path ++ [clause.operator])
  rw [List.length_append, List.length_singleton] at middle_le
  exact middle_le

theorem readClause_of_spelled {isOperator : String → Bool}
    (operator_words : ∀ operator, isOperator operator = true → IsWord operator) {clause : Clause}
    (well_formed : clause.WellFormed isOperator) {text after rest : List Char}
    (spelled : clause.operand.Spelled text) (blank_after : isBlankText after = true)
    (ends : Ends rest) (start position : Nat) :
    ∃ next,
      readClause isOperator clause.key start
          ⟨clause.middle ++ '.' :: (text ++ (after ++ rest)), position⟩ =
        .ok (.clause { clause with position := start }, next) ∧
      next.skipBlanks.rest = rest := by
  have middle_le := length_lt_middle clause
  have enough : clause.path.length <
      (clause.middle ++ '.' :: (text ++ (after ++ rest))).length + 1 := by
    rw [List.length_append]
    omega
  obtain ⟨middle, read⟩ := readSegments_append well_formed.path
    (operator_words _ well_formed.operator) well_formed.operator [] (text ++ (after ++ rest)) position
    enough
  obtain ⟨next, read_operand, next_rest⟩ := readOperand_of_spelled spelled blank_after ends middle
  refine ⟨next, ?_, next_rest⟩
  rw [← Clause.middle] at read
  simp only [readClause, read, bind, Except.bind, read_operand, List.append_nil, List.reverse_reverse]

/-! ## Parts -/

theorem isBlank_of_isWordChar {char : Char} (letter : isWordChar char = true) :
    isBlank char = false := by
  have within : 33 ≤ char.toNat ∧ char.toNat ≤ 126 := by
    simp only [isWordChar, Bool.or_eq_true, beq_iff_eq] at letter
    rcases letter with (letter | rfl) | rfl
    · simp only [Char.isAlphanum, Char.isAlpha, Char.isUpper, Char.isLower, Char.isDigit,
        Bool.or_eq_true, Bool.and_eq_true, decide_eq_true_eq, ge_iff_le,
        UInt32.le_iff_toNat_le] at letter
      have letter_bounds : 48 ≤ char.val.toNat ∧ char.val.toNat ≤ 122 := by
        rcases letter with (⟨least, greatest⟩ | ⟨least, greatest⟩) | ⟨least, greatest⟩
        · exact ⟨le_trans (by decide) least, le_trans greatest (by decide)⟩
        · exact ⟨le_trans (by decide) least, le_trans greatest (by decide)⟩
        · exact ⟨least, le_trans greatest (by decide)⟩
      exact ⟨le_trans (by decide) letter_bounds.1, le_trans letter_bounds.2 (by decide)⟩
    · decide
    · decide
  exact isBlank_of_visible within.1 within.2

/-- A part that begins with a word begins there after the blanks before it. -/
theorem word_skipBlanks {before rest : List Char} (blank_before : isBlankText before = true)
    {name : String} (is_word : IsWord name) (ended : ∀ char ∈ rest.head?, isWordChar char = false)
    (position : Nat) :
    ∃ stop, word (Cursor.mk (before ++ (name.toList ++ rest)) position).skipBlanks =
      (name, ⟨rest, stop⟩) := by
  have visible : ∀ char ∈ (name.toList ++ rest).head?, isBlank char = false := by
    intro char member
    have filled : name.toList ≠ [] := fun nothing => is_word.1 (String.toList_eq_nil_iff.mp nothing)
    rw [List.head?_append_of_ne_nil _ filled] at member
    exact isBlank_of_isWordChar (is_word.2 char (List.mem_of_mem_head? member))
  rw [skipBlanks_append blank_before visible]
  exact word_append is_word ended _

/-- A joined part is read once its parts are read. -/
theorem readPart_joined {isOperator : String → Bool} {key : String}
    (joins : key = "and" ∨ key = "or") {before inside left : List Char}
    (blank_before : isBlankText before = true) {budget : Nat} {parts : List Filter} (position : Nat)
    (read : ∀ start, ∃ found next, readParts isOperator budget ⟨inside, start⟩ = .ok (found, next) ∧
      unplacedParts found = unplacedParts parts ∧ next.skipBlanks.rest = ')' :: left) :
    ∃ found next,
      readPart isOperator (budget + 1) ⟨before ++ (key.toList ++ '(' :: inside), position⟩ =
        .ok (if key = "and" then .all found else .any found, next) ∧
      unplacedParts found = unplacedParts parts ∧ next.rest = left := by
  have is_word : IsWord key := by
    rcases joins with rfl | rfl
    · exact ⟨by decide, List.all_eq_true.mp (by decide)⟩
    · exact ⟨by decide, List.all_eq_true.mp (by decide)⟩
  have opening_ends : ∀ char ∈ ('(' :: inside).head?, isWordChar char = false := by
    rintro char ⟨rfl⟩
    decide
  obtain ⟨stop, read_key⟩ := word_skipBlanks blank_before is_word opening_ends position
  obtain ⟨found, next, read_inside, same, next_rest⟩ := read (stop + 1)
  refine ⟨found, ⟨left, next.skipBlanks.position + 1⟩, ?_, same, rfl⟩
  have closed : next.skipBlanks.expect ')' = .ok ⟨left, next.skipBlanks.position + 1⟩ := by
    simp only [Cursor.expect, next_rest, if_true]
  simp only [readPart, read_key, is_word.1, joins, if_true, if_false, read_inside, bind, Except.bind,
    closed]

mutual

theorem readPart_of_spelled {isOperator : String → Bool}
    (operator_words : ∀ operator, isOperator operator = true → IsWord operator) {filter : Filter}
    {text : List Char} (spelled : Spelled filter text)
    (well_formed : filter.WellFormed isOperator) {after rest : List Char}
    (blank_after : isBlankText after = true) (ends : Ends rest) (position : Nat) {budget : Nat}
    (enough : text.length ≤ budget) :
    ∃ found next, readPart isOperator budget ⟨text ++ (after ++ rest), position⟩ = .ok (found, next) ∧
      found.unplaced = filter.unplaced ∧ next.skipBlanks.rest = rest := by
  cases spelled with
  | @all parts before text blanks blank_before spelled blank_blanks =>
      simp only [List.length_append, List.length_cons] at enough
      obtain ⟨budget, rfl⟩ : ∃ smaller, budget = smaller + 1 := ⟨budget - 1, by omega⟩
      have inside := fun start => readParts_of_spelled operator_words spelled
        well_formed.2 blank_blanks (ends_closing (after ++ rest)) (by simp) start
        (show text.length < budget by omega)
      obtain ⟨found, next, read, same, next_rest⟩ :=
        readPart_joined (.inl rfl) blank_before position inside
      refine ⟨.all found, next, ?_, by rw [unplaced, unplaced, same], ?_⟩
      · simpa using read
      · exact skipBlanks_rest_of_rest blank_after ends next_rest
  | @any parts before text blanks blank_before spelled blank_blanks =>
      simp only [List.length_append, List.length_cons] at enough
      obtain ⟨budget, rfl⟩ : ∃ smaller, budget = smaller + 1 := ⟨budget - 1, by omega⟩
      have inside := fun start => readParts_of_spelled operator_words spelled
        well_formed.2 blank_blanks (ends_closing (after ++ rest)) (by simp) start
        (show text.length < budget by omega)
      obtain ⟨found, next, read, same, next_rest⟩ :=
        readPart_joined (.inr rfl) blank_before position inside
      refine ⟨.any found, next, ?_, by rw [unplaced, unplaced, same], ?_⟩
      · simpa using read
      · exact skipBlanks_rest_of_rest blank_after ends next_rest
  | @clause comparison before text blank_before spelled =>
      have key_word : IsWord comparison.key := well_formed.key
      obtain ⟨first, others, segments_eq⟩ := List.exists_cons_of_ne_nil
        (by simp : comparison.path ++ [comparison.operator] ≠ [])
      obtain ⟨middle, middle_eq⟩ : ∃ middle, comparison.middle = '.' :: middle := by
        rw [Clause.middle, segments_eq, List.flatMap_cons]
        exact ⟨_, rfl⟩
      obtain ⟨budget, rfl⟩ : ∃ smaller, budget = smaller + 1 := by
        simp only [List.length_append, List.length_cons] at enough
        exact ⟨budget - 1, by omega⟩
      have key_ends : ∀ char ∈ (comparison.middle ++ '.' :: (text ++ (after ++ rest))).head?,
          isWordChar char = false := by
        rw [middle_eq]
        rintro char ⟨rfl⟩
        decide
      obtain ⟨stop, read_key⟩ := word_skipBlanks blank_before key_word key_ends position
      obtain ⟨next, read, next_rest⟩ := readClause_of_spelled operator_words well_formed spelled
        blank_after ends (Cursor.mk (before ++ (comparison.key.toList ++
          (comparison.middle ++ '.' :: (text ++ (after ++ rest))))) position).skipBlanks.position stop
      refine ⟨.clause { comparison with position := (Cursor.mk (before ++ (comparison.key.toList ++
        (comparison.middle ++ '.' :: (text ++ (after ++ rest))))) position).skipBlanks.position },
        next, ?_, rfl, next_rest⟩
      simp only [List.append_assoc, List.cons_append, readPart, read_key, key_word.1, if_false]
      rw [← read]
      simp only [middle_eq, List.cons_append]
      rfl

theorem readParts_of_spelled {isOperator : String → Bool}
    (operator_words : ∀ operator, isOperator operator = true → IsWord operator)
    {parts : List Filter} {text : List Char} (spelled : SpelledParts parts text)
    (well_formed : AllWellFormed isOperator parts) {after rest : List Char}
    (blank_after : isBlankText after = true) (ends : Ends rest)
    (no_more : ∀ others, rest ≠ ',' :: others) (position : Nat) {budget : Nat}
    (enough : text.length < budget) :
    ∃ found next, readParts isOperator budget ⟨text ++ (after ++ rest), position⟩ =
        .ok (found, next) ∧
      unplacedParts found = unplacedParts parts ∧ next.skipBlanks.rest = rest := by
  obtain ⟨budget, rfl⟩ : ∃ smaller, budget = smaller + 1 := ⟨budget - 1, by omega⟩
  cases spelled with
  | @last part text spelled =>
      obtain ⟨found, next, read, same, next_rest⟩ := readPart_of_spelled operator_words spelled
        well_formed.1 blank_after ends position (show text.length ≤ budget by omega)
      refine ⟨[found], next.skipBlanks, ?_, ?_, ?_⟩
      · simp only [readParts, read, bind, Except.bind]
        split
        next same_rest => exact absurd (next_rest ▸ same_rest) (no_more _)
        next => rfl
      · rw [unplacedParts, unplacedParts, same]
        rfl
      · exact skipBlanks_rest_of_rest isBlankText_nil ends next_rest
  | @more part parts text blanks others spelled blank_blanks spelled_others =>
      simp only [List.length_append, List.length_cons] at enough
      obtain ⟨found, next, read, same, next_rest⟩ := readPart_of_spelled operator_words spelled
        well_formed.1 blank_blanks (ends_comma (others ++ (after ++ rest))) position
        (show text.length ≤ budget by omega)
      obtain ⟨found_others, last, read_others, same_others, last_rest⟩ := readParts_of_spelled
        operator_words spelled_others well_formed.2 blank_after ends no_more
        (next.skipBlanks.position + 1) (show others.length < budget by omega)
      refine ⟨found :: found_others, last, ?_, ?_, last_rest⟩
      · simp only [List.append_assoc, List.cons_append, readParts, read, bind, Except.bind, next_rest,
          read_others]
      · rw [unplacedParts, unplacedParts, same, same_others]

end

/-! ## The standard operators -/

instance : DecidablePred IsWord := fun text =>
  have := List.decidableBAll (fun char => isWordChar char = true) text.toList
  inferInstanceAs (Decidable (text ≠ "" ∧ ∀ char ∈ text.toList, isWordChar char = true))

theorem isWord_of_isName {operator : String}
    (is_name : OperatorTable.standard.isName operator = true) : IsWord operator := by
  have words : ∀ name ∈ OperatorTable.standard.names, IsWord name := by decide +kernel
  exact words operator (List.contains_iff_mem.mp is_name)

theorem not_isBlankText_of_mem {text : List Char} {char : Char} (visible : isBlank char = false)
    (member : char ∈ text) : isBlankText text = false := by
  rw [isBlankText, List.all_eq_false]
  exact ⟨char, member, by simp [visible]⟩

theorem not_isBlankText_of_spelled {filter : Filter} {text : List Char}
    (spelled : Spelled filter text) : isBlankText text = false := by
  cases spelled with
  | all => exact not_isBlankText_of_mem (show isBlank '(' = false by decide) (by simp)
  | any => exact not_isBlankText_of_mem (show isBlank '(' = false by decide) (by simp)
  | clause => exact not_isBlankText_of_mem (show isBlank '.' = false by decide) (by simp)

/-- A well-formed filter can be written once its numbers can, and however it is written, with blanks
wherever they may stand, it is read back up to the places of its comparisons. -/
theorem parse_of_spelled {filter : Filter}
    (well_formed : filter.WellFormed OperatorTable.standard.isName) :
    (Writable filter.clauses → ∃ text, Spelled filter text) ∧
      ∀ text after, Spelled filter text → isBlankText after = true →
        ∃ found,
          parse OperatorTable.standard.isName (String.ofList (text ++ after)) = .ok (some found) ∧
            found.unplaced = filter.unplaced := by
  refine ⟨exists_spelled well_formed, fun text after spelled blank_after => ?_⟩
  have ends_nil : Ends [] := by simp [Ends]
  have enough : text.length < 2 * (text ++ after).length + 2 := by
    rw [List.length_append]
    omega
  obtain ⟨found, next, read_parts, same, next_rest⟩ := readParts_of_spelled
    (fun _ => isWord_of_isName) (.last spelled) ⟨well_formed, trivial⟩ blank_after ends_nil (by simp)
    0 enough
  obtain ⟨part, rfl, part_eq⟩ : ∃ part, found = [part] ∧ part.unplaced = filter.unplaced := by
    match found, same with
    | [], same => cases same
    | [part], same => exact ⟨part, rfl, (List.cons.inj same).1⟩
    | _ :: _ :: _, same => cases (List.cons.inj same).2
  refine ⟨part, ?_, part_eq⟩
  have not_blank : isBlankText (text ++ after) = false := by
    rw [isBlankText, List.all_append, Bool.and_eq_false_iff]
    exact .inl (not_isBlankText_of_spelled spelled)
  rw [List.append_nil] at read_parts
  have read_text : read OperatorTable.standard.isName (text ++ after) = .ok (some part) := by
    simp only [read, not_blank, Bool.false_eq_true, if_false, read_parts, bind, Except.bind, next_rest]
  rw [parse, String.toList_ofList, read_text]
  rfl

/-- A comparison inside a JSON value and, behind it, two comparisons of which one must hold. -/
def nested : Filter :=
  .all [.clause ⟨"station", ["site", "name"], "eq", .scalar (.text "Sant'\\"), 0⟩,
    .any [.clause ⟨"height", [], "in", .list [.number (.int (-5)), .null], 0⟩,
      .clause ⟨"active", [], "neq", .scalar (.boolean true), 0⟩]]

/-- One way to write it. -/
def nestedText : List Char :=
  " and( station.site.name.eq. 'Sant\\'\\\\' ,or(height.in.( -5 ,null), active.neq.true ) )".toList

theorem spelled_nested : Spelled nested nestedText := by
  have blank : isBlankText [' '] = true := rfl
  have name : Spelled (.clause ⟨"station", ["site", "name"], "eq", .scalar (.text "Sant'\\"), 0⟩) _ :=
    .clause blank (.scalar blank rfl)
  have minus : (Literal.number (.int (-5))).Spelled ['-', '5'] := rfl
  have heights := SpelledValues.more blank minus blank (.last isBlankText_nil
    (show Literal.null.Spelled "null".toList from rfl) isBlankText_nil)
  have height : Spelled (.clause ⟨"height", [], "in", .list [.number (.int (-5)), .null], 0⟩) _ :=
    .clause isBlankText_nil (.list heights)
  have active : Spelled (.clause ⟨"active", [], "neq", .scalar (.boolean true), 0⟩) _ :=
    .clause blank (.scalar isBlankText_nil rfl)
  have either := Spelled.any isBlankText_nil (.more height isBlankText_nil (.last active)) blank
  exact .all blank (.more name blank (.last either)) blank

theorem parse_nestedText :
    nested.WellFormed OperatorTable.standard.isName ∧ Writable nested.clauses ∧
      Spelled nested nestedText ∧ isBlankText [' '] = true ∧
      ∃ found,
        parse OperatorTable.standard.isName (String.ofList (nestedText ++ [' '])) = .ok (some found) ∧
          found.unplaced = nested.unplaced := by
  have name : Clause.WellFormed OperatorTable.standard.isName
      ⟨"station", ["site", "name"], "eq", .scalar (.text "Sant'\\"), 0⟩ :=
    ⟨by decide, by decide +kernel, by decide +kernel, trivial⟩
  have height : Clause.WellFormed OperatorTable.standard.isName
      ⟨"height", [], "in", .list [.number (.int (-5)), .null], 0⟩ :=
    ⟨by decide, by decide +kernel, by decide +kernel, List.cons_ne_nil _ _⟩
  have active : Clause.WellFormed OperatorTable.standard.isName
      ⟨"active", [], "neq", .scalar (.boolean true), 0⟩ :=
    ⟨by decide, by decide +kernel, by decide +kernel, trivial⟩
  have well_formed : nested.WellFormed OperatorTable.standard.isName :=
    ⟨List.cons_ne_nil _ _, name, ⟨List.cons_ne_nil _ _, height, active, trivial⟩, trivial⟩
  have writable : Writable nested.clauses := by
    intro clause member number in_literals
    simp only [nested, clauses, clausesOf, List.cons_append, List.nil_append, List.mem_cons,
      List.not_mem_nil, or_false] at member
    rcases member with rfl | rfl | rfl
    · simp [Operand.literals] at in_literals
    · simp only [Operand.literals, List.mem_cons, List.not_mem_nil, or_false,
        Literal.number.injEq, reduceCtorEq] at in_literals
      exact ⟨['-', '5'], in_literals ▸ rfl⟩
    · simp [Operand.literals] at in_literals
  exact ⟨well_formed, writable, spelled_nested, rfl,
    (parse_of_spelled well_formed).2 nestedText [' '] spelled_nested rfl⟩

end StationGateway.Filter
