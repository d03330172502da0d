import StationGateway.Filter.Parser
import StationGateway.Proofs.Outcome

/-!
# Well-formed filters

What a filter is made of when it has been read from a text: conjunctions and disjunctions have
parts, lists have members, keys and path segments are words, no path segment names an operator, and
every operator is known. So nothing that a client writes outside of values holds a quote, a
parenthesis or a blank. -/

namespace StationGateway.Filter

open Text Outcome

/-- Whether a text is a word. -/
def IsWord (text : String) : Prop :=
  text ≠ "" ∧ ∀ char ∈ text.toList, isWordChar char = true

/-- Whether an operand has a value. -/
def Operand.HasValue : Operand → Prop
  | .scalar _ => True
  | .list values => values ≠ []

/-- A comparison that can be read. -/
structure Clause.WellFormed (isOperator : String → Bool) (clause : Clause) : Prop where
  /-- The key is a word. -/
  key : IsWord clause.key
  /-- The segments of the path are words that name no operators. -/
  path : ∀ segment ∈ clause.path, IsWord segment ∧ isOperator segment = false
  /-- The operator is known. -/
  operator : isOperator clause.operator = true
  /-- There is something to compare with. -/
  operand : clause.operand.HasValue

mutual

/-- A filter that can be read. -/
def WellFormed (isOperator : String → Bool) : Filter → Prop
  | all parts => parts ≠ [] ∧ AllWellFormed isOperator parts
  | any parts => parts ≠ [] ∧ AllWellFormed isOperator parts
  | clause comparison => comparison.WellFormed isOperator

/-- Filters that can be read. -/
def AllWellFormed (isOperator : String → Bool) : List Filter → Prop
  | [] => True
  | part :: rest => WellFormed isOperator part ∧ AllWellFormed isOperator rest

end

variable {isOperator : String → Bool}

/-! ## Words and operands -/

theorem isWord_word {cursor next : Cursor} {found : String} (read : word cursor = (found, next))
    (found_ne : found ≠ "") : IsWord found := by
  refine ⟨found_ne, fun char member => ?_⟩
  have found_eq : found = String.ofList (cursor.rest.takeWhile isWordChar) :=
    (congrArg Prod.fst read).symm
  rw [found_eq, String.toList_ofList] at member
  exact List.all_eq_true.mp List.all_takeWhile char member

theorem readMoreLiterals_ne_nil {budget : Nat} {seen values : List Literal} {cursor next : Cursor}
    (read : readMoreLiterals budget seen cursor = .ok (values, next)) (seen_ne : seen ≠ []) :
    values ≠ [] := by
  induction budget generalizing seen cursor with
  | zero => simp [readMoreLiterals, Cursor.refuse] at read
  | succ budget induction =>
      rw [readMoreLiterals] at read
      split at read
      · obtain ⟨⟨literal, after⟩, _, read_rest⟩ := bind_eq_ok_iff.mp read
        exact induction read_rest (List.cons_ne_nil literal seen)
      · simp only [Except.ok.injEq, Prod.mk.injEq] at read
        simpa [← read.1] using seen_ne
      · simp [Cursor.refuse] at read
      · simp [Cursor.refuse] at read

theorem readOperand_hasValue {cursor next : Cursor} {operand : Operand}
    (read : readOperand cursor = .ok (operand, next)) : operand.HasValue := by
  rw [readOperand] at read
  split at read
  · obtain ⟨⟨first, after⟩, _, read_rest⟩ := bind_eq_ok_iff.mp read
    obtain ⟨⟨values, last⟩, more, done⟩ := bind_eq_ok_iff.mp read_rest
    simp only [Except.ok.injEq, Prod.mk.injEq] at done
    rw [← done.1]
    exact readMoreLiterals_ne_nil more (List.cons_ne_nil first [])
  · obtain ⟨⟨value, after⟩, _, done⟩ := bind_eq_ok_iff.mp read
    simp only [Except.ok.injEq, Prod.mk.injEq] at done
    rw [← done.1]
    trivial

/-! ## Comparisons -/

/-- Before the operator there are only words that name none. -/
theorem readSegments_spec {budget : Nat} {seen segments : List String} {operator : String}
    {cursor next : Cursor}
    (read : readSegments isOperator budget seen cursor = .ok ((segments, operator), next))
    (seen_words : ∀ segment ∈ seen, IsWord segment ∧ isOperator segment = false) :
    (∀ segment ∈ segments, IsWord segment ∧ isOperator segment = false) ∧
      isOperator operator = true := by
  induction budget generalizing seen cursor with
  | zero => simp [readSegments, Cursor.refuse] at read
  | succ budget induction =>
      rw [readSegments] at read
      obtain ⟨start, _, read_segment⟩ := bind_eq_ok_iff.mp read
      rcases found : word start with ⟨segment, after⟩
      simp only [found] at read_segment
      split at read_segment
      · simp [Cursor.refuse] at read_segment
      next segment_ne =>
        split at read_segment
        · split at read_segment
          next named =>
            simp only [Except.ok.injEq, Prod.mk.injEq] at read_segment
            obtain ⟨⟨rfl, rfl⟩, _⟩ := read_segment
            exact ⟨seen_words, named⟩
          next unnamed =>
            apply induction read_segment
            intro other member
            rcases List.mem_cons.mp member with rfl | member_seen
            · exact ⟨isWord_word found segment_ne, by simpa using unnamed⟩
            · exact seen_words other member_seen
        · simp [Cursor.refuse] at read_segment

theorem readClause_wellFormed {key : String} {position : Nat} {cursor next : Cursor}
    {filter : Filter} (key_word : IsWord key)
    (read : readClause isOperator key position cursor = .ok (filter, next)) :
    filter.WellFormed isOperator := by
  rw [readClause] at read
  obtain ⟨⟨⟨segments, operator⟩, after⟩, read_path, read_rest⟩ := bind_eq_ok_iff.mp read
  obtain ⟨⟨operand, last⟩, read_value, done⟩ := bind_eq_ok_iff.mp read_rest
  simp only [Except.ok.injEq, Prod.mk.injEq] at done
  obtain ⟨path_words, named⟩ := readSegments_spec read_path (by simp)
  rw [← done.1]
  refine ⟨key_word, fun segment member => ?_, named, readOperand_hasValue read_value⟩
  exact path_words segment (List.mem_reverse.mp member)

/-! ## Parts -/

mutual

theorem readPart_wellFormed {budget : Nat} {cursor next : Cursor} {filter : Filter}
    (read : readPart isOperator budget cursor = .ok (filter, next)) :
    filter.WellFormed isOperator := by
  cases budget with
  | zero => simp [readPart, Cursor.refuse] at read
  | succ budget =>
      rw [readPart] at read
      rcases found : word cursor.skipBlanks with ⟨key, after⟩
      simp only [found] at read
      split at read
      · simp [Cursor.refuse] at read
      next key_ne =>
        have key_word := isWord_word found key_ne
        split at read
        · split at read
          next joins =>
            obtain ⟨⟨parts, last⟩, read_parts, read_rest⟩ := bind_eq_ok_iff.mp read
            obtain ⟨closed, _, done⟩ := bind_eq_ok_iff.mp read_rest
            simp only [Except.ok.injEq, Prod.mk.injEq] at done
            have parts_fine := readParts_wellFormed read_parts
            rw [← done.1]
            split
            · exact parts_fine
            · exact parts_fine
          next => exact readClause_wellFormed key_word read
        · exact readClause_wellFormed key_word read

theorem readParts_wellFormed {budget : Nat} {cursor next : Cursor} {parts : List Filter}
    (read : readParts isOperator budget cursor = .ok (parts, next)) :
    parts ≠ [] ∧ AllWellFormed isOperator parts := by
  cases budget with
  | zero => simp [readParts, Cursor.refuse] at read
  | succ budget =>
      rw [readParts] at read
      obtain ⟨⟨first, after⟩, read_first, read_rest⟩ := bind_eq_ok_iff.mp read
      have first_fine := readPart_wellFormed read_first
      simp only at read_rest
      split at read_rest
      · obtain ⟨⟨others, last⟩, read_others, done⟩ := bind_eq_ok_iff.mp read_rest
        simp only [Except.ok.injEq, Prod.mk.injEq] at done
        rw [← done.1]
        exact ⟨List.cons_ne_nil first others, first_fine, (readParts_wellFormed read_others).2⟩
      · simp only [Except.ok.injEq, Prod.mk.injEq] at read_rest
        rw [← read_rest.1]
        exact ⟨List.cons_ne_nil first [], first_fine, trivial⟩

end

/-- Every filter that is read from a text is well-formed. -/
theorem wellFormed_of_parse {text : String} {filter : Filter}
    (parsed : parse isOperator text = .ok (some filter)) : filter.WellFormed isOperator := by
  rw [parse, mapError_eq_ok_iff, read] at parsed
  split at parsed
  · simp at parsed
  · obtain ⟨⟨parts, next⟩, read_parts, read_rest⟩ := bind_eq_ok_iff.mp parsed
    have parts_fine := readParts_wellFormed read_parts
    simp only at read_rest
    split at read_rest
    · simp [Cursor.refuse] at read_rest
    · split at read_rest
      · simp only [Except.ok.injEq, Option.some.injEq] at read_rest
        rw [← read_rest]
        exact parts_fine.2.1
      · simp only [Except.ok.injEq, Option.some.injEq] at read_rest
        rw [← read_rest]
        exact parts_fine

end StationGateway.Filter
