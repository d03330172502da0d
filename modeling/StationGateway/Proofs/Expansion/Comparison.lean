import Mathlib.Algebra.GroupWithZero.Nat
import StationGateway.Catalogue.Mobility
import StationGateway.Expansion.Predicate
import StationGateway.Proofs.Filter.Template
import StationGateway.Proofs.Filter.WellFormed
import StationGateway.Proofs.Text.Join

/-!
# Compiled comparisons

The text of a compiled comparison is the template of its operator, with the column of its attribute,
its path and a reference to its operand in their places. Only the word `null` stands in the text
itself. Columns, paths and references close what they open, so the text is read as one comparison.
-/

namespace StationGateway

open Text StationGateway.Filter StationGateway.Sql Outcome

namespace Filter.Clause

/-- Whether the operand is the word `null`. -/
def isNull (clause : Clause) : Bool :=
  clause.operand = .scalar .null

/-- The number of values that the text of the comparison refers to. -/
def references (clause : Clause) : Nat :=
  if clause.isNull then 0 else 1

/-- The word for the operand, when `taken` values have been numbered. -/
def reference (taken : Nat) (clause : Clause) : String :=
  if clause.isNull then "null" else ":" ++ Predicate.valueName taken

/-- The path as path literals have it. -/
def pathText (clause : Clause) : String :=
  Selector.commaPath (clause.dottedPath.getD "")

/-- What stands in the places of a template for the comparison of a column. -/
def filling (column : String) (taken : Nat) (clause : Clause) : Filling :=
  ⟨column, clause.pathText, clause.reference taken⟩

end Filter.Clause

namespace Scope

/-- The column that a comparison with an attribute reads. -/
def columnOf? (scope : Scope) (preferred : Option String) (key : String) : Option String := do
  let lists ← (scope.resolve key).toOption
  let list ← chooseList preferred lists
  let field ← list.find? key
  field.column?

/-- The template of a comparison with its places filled, when `taken` values have been numbered. -/
def comparisonText (scope : Scope) (preferred : Option String) (taken : Nat) (clause : Clause) :
    Option String := do
  let column ← scope.columnOf? preferred clause.key
  let operator ← (scope.operatorOf clause).toOption
  some (String.ofList ((clause.filling column taken).fill (symbols operator.template.toList)))

/-- A comparison compiles only if its attribute has a column and its operator applies. -/
theorem compileClause_eq_ok_iff {scope : Scope} {preferred : Option String} {clause : Clause}
    {predicate : Predicate} :
    scope.compileClause preferred clause = .ok predicate ↔
      ∃ column operator, scope.columnOf? preferred clause.key = some column ∧
        scope.operatorOf clause = .ok operator ∧
        predicate =
          .comparison ((parseTemplate operator.template).map (fillPart column clause)) := by
  rw [compileClause, bind_eq_ok_iff]
  constructor
  · rintro ⟨lists, resolved, rest⟩
    simp only at rest
    split at rest
    · cases rest
    next column found =>
      obtain ⟨operator, applies, done⟩ := bind_eq_ok_iff.mp rest
      refine ⟨column, operator, ?_, applies, (Except.ok.inj done).symm⟩
      rw [columnOf?, toOption_eq_some_iff.mpr resolved]
      exact found
  · rintro ⟨column, operator, found, applies, rfl⟩
    rw [columnOf?, Option.bind_eq_bind, Option.bind_eq_some_iff] at found
    obtain ⟨lists, resolved, found⟩ := found
    refine ⟨lists, toOption_eq_some_iff.mp resolved, ?_⟩
    have column_found : ((chooseList preferred lists).bind fun list =>
        (list.find? clause.key).bind Attribute.column?) = some column := found
    simp [column_found, applies, bind, Except.bind]

/-- An operator that applies is in the table. -/
theorem get?_of_operatorOf {scope : Scope} {clause : Clause} {operator : Operator}
    (applies : scope.operatorOf clause = .ok operator) :
    scope.operators.get? (operatorId (!clause.path.isEmpty) clause.operand clause.operator) =
      some operator := by
  simp only [operatorOf] at applies
  split at applies
  · cases applies
  next found =>
    split at applies
    · rw [found, Except.ok.inj applies]
    · cases applies

theorem eq_definersAmong_of_resolve {scope : Scope} {key : String} {lists : List TargetList}
    (resolved : scope.resolve key = .ok lists) :
    lists = scope.catalogue.definersAmong scope.allowed key := by
  rw [resolve] at resolved
  split at resolved
  · split at resolved <;> cases resolved
  · exact (Except.ok.inj resolved).symm

theorem mem_of_chooseList {preferred : Option String} {lists : List TargetList} {list : TargetList}
    (chosen : chooseList preferred lists = some list) : list ∈ lists := by
  rw [chooseList] at chosen
  split at chosen
  next preferred_found =>
    obtain rfl := Option.some.inj chosen
    exact List.mem_of_find?_eq_some preferred_found
  · exact List.mem_of_head? chosen

/-- A comparison reads the column of an attribute of some list. -/
theorem exists_field_of_columnOf? {scope : Scope} {preferred : Option String} {key column : String}
    (found : scope.columnOf? preferred key = some column) :
    ∃ list ∈ scope.catalogue.lists, ∃ field ∈ list.attributes, field.column? = some column := by
  simp only [columnOf?, Option.bind_eq_bind, Option.bind_eq_some_iff] at found
  obtain ⟨lists, resolved, list, chosen, field, field_found, column_eq⟩ := found
  have list_mem := mem_of_chooseList chosen
  refine ⟨list, ?_, field, List.mem_of_find?_eq_some field_found, column_eq⟩
  rw [eq_definersAmong_of_resolve (toOption_eq_some_iff.mp resolved)] at list_mem
  exact (List.mem_filter.mp (List.mem_filter.mp list_mem).1).1

/-- Compiling several filters compiles each of them. -/
theorem exists_of_compileAll_cons {scope : Scope} {preferred : Option String} {part : Filter}
    {rest : List Filter} {predicates : List Predicate}
    (compiled : scope.compileAll preferred (part :: rest) = .ok predicates) :
    ∃ first others, scope.compile preferred part = .ok first ∧
      scope.compileAll preferred rest = .ok others ∧ predicates = first :: others := by
  obtain ⟨first, compiled_part, more⟩ := bind_eq_ok_iff.mp compiled
  obtain ⟨others, compiled_rest, done⟩ := bind_eq_ok_iff.mp more
  exact ⟨first, others, compiled_part, compiled_rest, (Except.ok.inj done).symm⟩

end Scope

/-! ## Pieces -/

theorem isNull_operandValue (clause : Clause) (slice : Option Slice) :
    (operandValue clause.operand slice).isNull = clause.isNull := by
  rcases clause with ⟨_, _, _, (literal | values), _⟩
  · rcases literal with _ | _ | number | _
    · rfl
    · rfl
    · rcases number with value | value
      · simp only [operandValue, SqlValue.ofLiteral, SqlValue.ofNumber, Clause.isNull]
        split <;> simp [SqlValue.isNull]
      · simp [operandValue, SqlValue.ofLiteral, SqlValue.ofNumber, Clause.isNull, SqlValue.isNull]
    · simp [operandValue, SqlValue.ofLiteral, Clause.isNull, SqlValue.isNull]
  · cases slice <;> simp [operandValue, Clause.isNull, SqlValue.isNull]

/-- The slices of the operand that a template has places for. -/
def slices (parts : List TemplatePart) : List (Option Slice) :=
  (parts.flatMap TemplatePart.symbols).filterMap Symbol.slice?

theorem slices_cons (part : TemplatePart) (parts : List TemplatePart) :
    slices (part :: parts) = part.symbols.filterMap Symbol.slice? ++ slices parts := by
  rw [slices, List.flatMap_cons, List.filterMap_append]
  rfl

theorem slices_text (kept : String) (parts : List TemplatePart) :
    slices (.text kept :: parts) = slices parts := by
  rw [slices_cons]
  simp [TemplatePart.symbols, Symbol.slice?]

theorem slices_value (slice : Option Slice) (parts : List TemplatePart) :
    slices (.value slice :: parts) = slice :: slices parts :=
  slices_cons _ _

/-- A template with one place for the operand is filled in as a whole. After that place the numbers
do not matter. -/
theorem toList_join_pieceTexts (column : String) (clause : Clause) {parts : List TemplatePart}
    {taken numbered : Nat}
    (places : slices parts = [] ∨ slices parts = [none] ∧ numbered = taken) :
    (String.join (Predicate.pieceTexts taken (parts.map (fillPart column clause)))).toList =
      (clause.filling column numbered).fill (parts.flatMap TemplatePart.symbols) := by
  induction parts generalizing taken with
  | nil => rfl
  | cons part parts induction =>
      rw [List.flatMap_cons, Filling.fill_append]
      cases part with
      | text kept =>
          rw [slices_text] at places
          simp [fillPart, Predicate.pieceTexts, TemplatePart.symbols, Filling.fill_chars,
            induction places]
      | column =>
          simp [fillPart, Predicate.pieceTexts, TemplatePart.symbols, Filling.fill, Filling.text,
            Clause.filling, induction places]
      | path =>
          simp [fillPart, Predicate.pieceTexts, TemplatePart.symbols, Filling.fill, Filling.text,
            Clause.filling, Clause.pathText, induction places]
      | value slice =>
          rw [slices_value] at places
          obtain impossible | ⟨places, rfl⟩ := places
          · cases impossible
          obtain ⟨rfl, rest⟩ := List.cons_eq_cons.mp places
          have after : ∀ taken, _ = _ := fun taken => @induction taken (.inl rest)
          by_cases null : clause.isNull = true
          · simp [fillPart, Predicate.pieceTexts, isNull_operandValue, null, after,
              TemplatePart.symbols, Filling.fill, Filling.text, Clause.filling, Clause.reference]
          · simp [fillPart, Predicate.pieceTexts, isNull_operandValue, null, after,
              TemplatePart.symbols, Filling.fill, Filling.text, Clause.filling, Clause.reference]

/-- The values of a comparison are the slices of its operand, in the order of the template. The word
`null` is none of them. -/
theorem pieceValues_fillPart (column : String) (clause : Clause) (parts : List TemplatePart) :
    Predicate.pieceValues (parts.map (fillPart column clause)) =
      if clause.isNull then [] else (slices parts).map (operandValue clause.operand) := by
  induction parts with
  | nil => simp [Predicate.pieceValues, slices]
  | cons part parts induction =>
      rw [Predicate.pieceValues] at induction
      rw [List.map_cons, Predicate.pieceValues, List.filterMap_cons]
      cases part with
      | text kept => rw [slices_text]; exact induction
      | column => exact induction
      | path => exact induction
      | value slice =>
          rw [slices_value]
          cases null : clause.isNull with
          | true => simpa [fillPart, isNull_operandValue, null] using induction
          | false => simpa [fillPart, isNull_operandValue, null] using induction

/-- A template with one place for the operand refers to it once, unless it is the word `null`. -/
theorem length_pieceValues (column : String) (clause : Clause) {parts : List TemplatePart}
    (places : slices parts = [none]) :
    (Predicate.pieceValues (parts.map (fillPart column clause))).length = clause.references := by
  rw [pieceValues_fillPart, places, Clause.references]
  cases clause.isNull <;> rfl

/-! ## Columns, paths and references -/

private theorem columns_checked :
    (Mobility.catalogue.lists.all fun list => list.attributes.all fun field =>
      field.column?.all (checked isSolid)) = true := by
  decide +kernel

/-- The columns of the API are solid. -/
theorem solid_of_columnOf? {scope : Scope} (catalogue : scope.catalogue = Mobility.catalogue)
    {preferred : Option String} {key column : String}
    (found : scope.columnOf? preferred key = some column) : Solid column.toList := by
  obtain ⟨list, list_mem, field, field_mem, column_eq⟩ := Scope.exists_field_of_columnOf? found
  rw [catalogue] at list_mem
  have of_list := List.all_eq_true.mp columns_checked list list_mem
  have of_field := List.all_eq_true.mp of_list field field_mem
  rw [column_eq] at of_field
  exact solid_of_checked of_field

/-- A path that has been read holds no quote. -/
theorem quote_not_mem_pathText {isOperator : String → Bool} {clause : Clause}
    (fine : clause.WellFormed isOperator) : '\'' ∉ clause.pathText.toList := by
  intro member
  rw [Clause.pathText, Selector.commaPath, String.toList_ofList, List.mem_map] at member
  obtain ⟨char, char_mem, equal⟩ := member
  split at equal
  · simp at equal
  subst equal
  rw [Clause.dottedPath] at char_mem
  split at char_mem
  · simp at char_mem
  · rcases mem_toList_join char_mem with in_separator | ⟨segment, segment_mem, found⟩
    · simp at in_separator
    · have word_char := (fine.path segment segment_mem).1.2 '\'' found
      simp [isWordChar] at word_char

theorem solid_valueName (number : Nat) : Solid (":" ++ Predicate.valueName number).toList := by
  have digits : Connected (toString number).toList := .plain fun char member => by
    have digit := isDigit_of_mem_toString member
    intro special
    simp only [List.mem_cons, List.not_mem_nil, or_false] at special
    rcases special with rfl | rfl | rfl | rfl | rfl <;> exact absurd digit (by decide)
  have name : Solid ":pwhere_".toList := solid_of_checked (by decide)
  simpa [Predicate.valueName] using name.append digits

theorem phrase_reference (taken : Nat) (clause : Clause) :
    Phrase (clause.reference taken).toList := by
  rw [Clause.reference]
  split
  · exact phrase_of_checked (by decide)
  · exact (solid_valueName taken).phrase

/-! ## Texts -/

/-- A compiled comparison is the template of its operator with its places filled, in parentheses. -/
theorem exists_filled_of_compileClause {scope : Scope} (operators : scope.operators = .standard)
    {preferred : Option String} {clause : Clause} {predicate : Predicate}
    (compiled : scope.compileClause preferred clause = .ok predicate) (taken : Nat) :
    ∃ column operator, scope.columnOf? preferred clause.key = some column ∧
      scope.operatorOf clause = .ok operator ∧ IsComparison operator.template ∧
      predicate.textFrom taken = "(" ++
        String.ofList ((clause.filling column taken).fill (symbols operator.template.toList)) ++ ")" ∧
      predicate.values.length = clause.references := by
  obtain ⟨column, operator, found, applies, rfl⟩ := Scope.compileClause_eq_ok_iff.mp compiled
  have in_table := Scope.get?_of_operatorOf applies
  rw [operators] at in_table
  have comparison := isComparison_of_standard in_table
  have places : slices (parseTemplate operator.template) = [none] :=
    slices_of_isComparison comparison
  have text_eq : String.join (Predicate.pieceTexts taken
      ((parseTemplate operator.template).map (fillPart column clause))) =
        String.ofList ((clause.filling column taken).fill (symbols operator.template.toList)) := by
    apply String.toList_injective
    rw [String.toList_ofList]
    exact toList_join_pieceTexts column clause (.inr ⟨places, rfl⟩)
  refine ⟨column, operator, found, applies, comparison, ?_, length_pieceValues column clause places⟩
  rw [Predicate.textFrom, text_eq]

/-- The text of a compiled comparison is its template with the places filled, and is read as one
comparison. -/
theorem readsSingle_of_compileClause {scope : Scope}
    (catalogue : scope.catalogue = Mobility.catalogue) (operators : scope.operators = .standard)
    {preferred : Option String} {clause : Clause}
    (fine : clause.WellFormed scope.operators.isName) {predicate : Predicate}
    (compiled : scope.compileClause preferred clause = .ok predicate) (taken : Nat) :
    ∃ text, scope.comparisonText preferred taken clause = some text ∧
      predicate.textFrom taken = "(" ++ text ++ ")" ∧ ReadsSingle text (.atom text) ∧
      predicate.values.length = clause.references := by
  obtain ⟨column, operator, found, applies, comparison, written, count⟩ :=
    exists_filled_of_compileClause operators compiled taken
  have fits : (clause.filling column taken).Fits :=
    ⟨solid_of_columnOf? catalogue found, quote_not_mem_pathText fine, phrase_reference taken clause⟩
  refine ⟨_, ?_, written, fits.readsSingle comparison, count⟩
  simp [Scope.comparisonText, found, toOption_eq_some_iff.mpr applies]

end StationGateway
