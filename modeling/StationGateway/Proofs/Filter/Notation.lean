import StationGateway.Proofs.Filter.WellFormed

/-!
# Writing filters

The texts that spell a filter: parts and values stand between commas, with blanks before any part,
any value, any comma and any closing parenthesis. Every filter whose numbers can be written has such
a text. -/

namespace StationGateway.Filter

open Decimal Text

/-! ## The notation -/

/-- What stands for a character between single quotes. -/
def escaped (char : Char) : List Char :=
  if char = '\\' ∨ char = '\'' then ['\\', char] else [char]

/-- Whether a text spells a literal: a word, any form of a number that reads back to it, or a text
between single quotes. -/
def Literal.Spelled (text : List Char) : Literal → Prop
  | .null => text = "null".toList
  | .boolean true => text = "true".toList
  | .boolean false => text = "false".toList
  | .number value => Number.ofText? text = some value
  | .text value => text = '\'' :: (value.toList.flatMap escaped ++ ['\''])

/-- Texts that spell literals between commas. -/
inductive SpelledValues : List Literal → List Char → Prop where
  /-- The last literal, with blanks around it. -/
  | last {value : Literal} {before text after : List Char} (blank_before : isBlankText before = true)
      (spelled : value.Spelled text) (blank_after : isBlankText after = true) :
      SpelledValues [value] (before ++ (text ++ after))
  /-- A literal with blanks around it, a comma and others. -/
  | more {value : Literal} {values : List Literal} {before text after others : List Char}
      (blank_before : isBlankText before = true) (spelled : value.Spelled text)
      (blank_after : isBlankText after = true) (spelled_others : SpelledValues values others) :
      SpelledValues (value :: values) (before ++ (text ++ (after ++ ',' :: others)))

/-- Texts that spell an operand. -/
inductive Operand.Spelled : Operand → List Char → Prop where
  /-- A literal behind blanks. -/
  | scalar {value : Literal} {before text : List Char} (blank_before : isBlankText before = true)
      (spelled : value.Spelled text) : Spelled (.scalar value) (before ++ text)
  /-- A list in parentheses. -/
  | list {values : List Literal} {text : List Char} (spelled : SpelledValues values text) :
      Spelled (.list values) ('(' :: (text ++ [')']))

/-- The path and the operator of a comparison, each behind a point. -/
def Clause.middle (clause : Clause) : List Char :=
  (clause.path ++ [clause.operator]).flatMap fun segment => '.' :: segment.toList

mutual

/-- Texts that spell a filter, behind blanks. -/
inductive Spelled : Filter → List Char → Prop where
  /-- A conjunction. -/
  | all {parts : List Filter} {before text after : List Char} (blank_before : isBlankText before = true)
      (spelled : SpelledParts parts text) (blank_after : isBlankText after = true) :
      Spelled (.all parts) (before ++ ("and".toList ++ '(' :: (text ++ (after ++ [')']))))
  /-- A disjunction. -/
  | any {parts : List Filter} {before text after : List Char} (blank_before : isBlankText before = true)
      (spelled : SpelledParts parts text) (blank_after : isBlankText after = true) :
      Spelled (.any parts) (before ++ ("or".toList ++ '(' :: (text ++ (after ++ [')']))))
  /-- A comparison. -/
  | clause {comparison : Clause} {before text : List Char} (blank_before : isBlankText before = true)
      (spelled : comparison.operand.Spelled text) :
      Spelled (.clause comparison)
        (before ++ (comparison.key.toList ++ (comparison.middle ++ '.' :: text)))

/-- Texts that spell filters between commas. -/
inductive SpelledParts : List Filter → List Char → Prop where
  /-- The last filter. -/
  | last {part : Filter} {text : List Char} (spelled : Spelled part text) : SpelledParts [part] text
  /-- A filter, a comma behind blanks, and others. -/
  | more {part : Filter} {parts : List Filter} {text after others : List Char}
      (spelled : Spelled part text) (blank_after : isBlankText after = true)
      (spelled_others : SpelledParts parts others) :
      SpelledParts (part :: parts) (text ++ (after ++ ',' :: others))

end

mutual

/-- The filter with all its comparisons at the beginning of the text. -/
def unplaced : Filter → Filter
  | all parts => .all (unplacedParts parts)
  | any parts => .any (unplacedParts parts)
  | clause comparison => .clause { comparison with position := 0 }

/-- The filters with all their comparisons at the beginning of the text. -/
def unplacedParts : List Filter → List Filter
  | [] => []
  | part :: rest => unplaced part :: unplacedParts rest

end

/-! ## Writing every filter -/

/-- The literals of an operand. -/
def Operand.literals : Operand → List Literal
  | .scalar value => [value]
  | .list values => values

/-- Whether every number of the comparisons is read from some text. -/
def Writable (clauses : List Clause) : Prop :=
  ∀ clause ∈ clauses, ∀ number, .number number ∈ clause.operand.literals →
    ∃ text, Number.ofText? text = some number

theorem isBlankText_nil : isBlankText [] = true := rfl

theorem Literal.exists_spelled (value : Literal)
    (writable : ∀ number, value = .number number → ∃ text, Number.ofText? text = some number) :
    ∃ text, value.Spelled text := by
  cases value with
  | null => exact ⟨_, rfl⟩
  | boolean value =>
      cases value with
      | true => exact ⟨_, rfl⟩
      | false => exact ⟨_, rfl⟩
  | number value => exact writable value rfl
  | text value => exact ⟨_, rfl⟩

theorem exists_spelledValues {values : List Literal} (filled : values ≠ [])
    (writable : ∀ value ∈ values, ∃ text, value.Spelled text) :
    ∃ text, SpelledValues values text := by
  induction values with
  | nil => exact absurd rfl filled
  | cons value others induction =>
      obtain ⟨text, spelled⟩ := writable value List.mem_cons_self
      cases others with
      | nil => exact ⟨_, .last isBlankText_nil spelled isBlankText_nil⟩
      | cons next rest =>
          obtain ⟨others_text, spelled_others⟩ := induction (List.cons_ne_nil next rest)
            fun other member => writable other (List.mem_cons_of_mem value member)
          exact ⟨_, .more isBlankText_nil spelled isBlankText_nil spelled_others⟩

theorem Operand.exists_spelled {operand : Operand} (has_value : operand.HasValue)
    (writable : ∀ value ∈ operand.literals, ∃ text, value.Spelled text) :
    ∃ text, operand.Spelled text := by
  cases operand with
  | scalar value =>
      obtain ⟨text, spelled⟩ := writable value List.mem_cons_self
      exact ⟨_, .scalar isBlankText_nil spelled⟩
  | list values =>
      obtain ⟨text, spelled⟩ := exists_spelledValues has_value writable
      exact ⟨_, .list spelled⟩

mutual

/-- A filter that can be read is spelled by some text, once its numbers are. -/
theorem exists_spelled {isOperator : String → Bool} {filter : Filter}
    (well_formed : filter.WellFormed isOperator) (writable : Writable filter.clauses) :
    ∃ text, Spelled filter text := by
  cases filter with
  | all parts =>
      obtain ⟨text, spelled⟩ := exists_spelledParts well_formed.1 well_formed.2 writable
      exact ⟨_, .all isBlankText_nil spelled isBlankText_nil⟩
  | any parts =>
      obtain ⟨text, spelled⟩ := exists_spelledParts well_formed.1 well_formed.2 writable
      exact ⟨_, .any isBlankText_nil spelled isBlankText_nil⟩
  | clause comparison =>
      obtain ⟨text, spelled⟩ := Operand.exists_spelled (Clause.WellFormed.operand well_formed)
        fun value member => value.exists_spelled fun number value_eq =>
          writable comparison List.mem_cons_self number (value_eq ▸ member)
      exact ⟨_, .clause isBlankText_nil spelled⟩

theorem exists_spelledParts {isOperator : String → Bool} {parts : List Filter} (filled : parts ≠ [])
    (well_formed : AllWellFormed isOperator parts) (writable : Writable (clausesOf parts)) :
    ∃ text, SpelledParts parts text := by
  cases parts with
  | nil => exact absurd rfl filled
  | cons part rest =>
      obtain ⟨text, spelled⟩ := exists_spelled well_formed.1
        fun clause member => writable clause (List.mem_append_left _ member)
      cases rest with
      | nil => exact ⟨_, .last spelled⟩
      | cons next others =>
          obtain ⟨others_text, spelled_others⟩ := exists_spelledParts (List.cons_ne_nil next others)
            well_formed.2 fun clause member => writable clause (List.mem_append_right _ member)
          exact ⟨_, .more spelled isBlankText_nil spelled_others⟩

end

end StationGateway.Filter
