import StationGateway.Proofs.Expansion.Comparison
import StationGateway.Proofs.Expansion.Stages
import StationGateway.Proofs.Filter.Alike
import StationGateway.Proofs.Order.Entries

/-!
# Values in compiled filters

Filters that differ in their values compile to the same text, which refers to as many values under
the same names. An expansion depends on a filter through its attributes and its predicate alone. -/

namespace StationGateway

open StationGateway.Filter Outcome

/-- Predicates that differ in their values: wherever they stand, their texts are the same, and they
refer to equally many values. -/
structure Predicate.Alike (first second : Predicate) : Prop where
  /-- The texts are the same. -/
  text : ∀ taken, first.textFrom taken = second.textFrom taken
  /-- There are equally many values. -/
  count : first.values.length = second.values.length

/-- The names of the values of a predicate depend on their number alone. -/
theorem Predicate.names_params (predicate : Predicate) : predicate.params.map (·.1) =
    Order.ofList ((List.range predicate.values.length).map Predicate.valueName) := by
  rw [Predicate.params, Order.keys_mapOfList, List.map_map]
  rw [List.range_eq_range', ← List.zipIdx_map_snd, List.map_map]
  rfl

namespace Filter.Clause.Alike

variable {first second : Clause}

theorem isNull_eq (alike : first.Alike second) : first.isNull = second.isNull := by
  obtain ⟨_, _, _, same_isList, same_type⟩ := alike
  have null_iff : ∀ clause : Clause,
      clause.isNull = (!clause.operand.isList && clause.operand.valueType = .null) := by
    intro clause
    rw [isNull]
    rcases clause.operand with (_ | _ | _ | _) | values <;>
      simp [Operand.isList, Operand.valueType, Literal.valueType]
  rw [null_iff, null_iff, same_isList, same_type]

theorem dottedPath_eq (alike : first.Alike second) : first.dottedPath = second.dottedPath := by
  rw [dottedPath, dottedPath, alike.path]

theorem operatorId_eq (alike : first.Alike second) :
    operatorId (!first.path.isEmpty) first.operand first.operator =
      operatorId (!second.path.isEmpty) second.operand second.operator := by
  simp only [operatorId, shapeText, alike.path, alike.operator, alike.isList, alike.valueType]

end Filter.Clause.Alike

/-! ## Comparisons -/

private theorem pieceTexts_alike {first second : Clause} (alike : first.Alike second)
    (column : String)
    (parts : List TemplatePart) (taken : Nat) :
    Predicate.pieceTexts taken (parts.map (fillPart column first)) =
      Predicate.pieceTexts taken (parts.map (fillPart column second)) := by
  induction parts generalizing taken with
  | nil => rfl
  | cons part parts induction =>
      cases part with
      | text kept => simp [fillPart, Predicate.pieceTexts, induction]
      | column => simp [fillPart, Predicate.pieceTexts, induction]
      | path => simp [fillPart, Predicate.pieceTexts, induction, alike.dottedPath_eq]
      | value slice =>
          simp [fillPart, Predicate.pieceTexts, induction, isNull_operandValue, alike.isNull_eq]

private theorem length_pieceValues_alike {first second : Clause} (alike : first.Alike second)
    (column : String) (parts : List TemplatePart) :
    (Predicate.pieceValues (parts.map (fillPart column first))).length =
      (Predicate.pieceValues (parts.map (fillPart column second))).length := by
  rw [pieceValues_fillPart, pieceValues_fillPart, alike.isNull_eq]
  split_ifs with null
  · rfl
  · rw [List.length_map, List.length_map]

namespace Scope

variable {scope : Scope} {preferred : Option String}

theorem compileClause_alike {first second : Clause} (alike : first.Alike second)
    {predicate other : Predicate} (compiled : scope.compileClause preferred first = .ok predicate)
    (compiled_other : scope.compileClause preferred second = .ok other) :
    predicate.Alike other := by
  obtain ⟨column, operator, found, applies, rfl⟩ := compileClause_eq_ok_iff.mp compiled
  obtain ⟨column', operator', found', applies', rfl⟩ := compileClause_eq_ok_iff.mp compiled_other
  have column_eq : column = column' := by
    rw [alike.key] at found
    exact Option.some.inj (found.symm.trans found')
  have operator_eq : operator = operator' := by
    have in_table := get?_of_operatorOf applies
    rw [alike.operatorId_eq] at in_table
    exact Option.some.inj (in_table.symm.trans (get?_of_operatorOf applies'))
  subst column_eq operator_eq
  refine ⟨fun taken => ?_, ?_⟩
  · rw [Predicate.textFrom, Predicate.textFrom, pieceTexts_alike alike]
  · rw [Predicate.values, Predicate.values, length_pieceValues_alike alike]

mutual

theorem compile_alike {first second : Filter} (alike : Filter.Alike first second)
    {predicate other : Predicate} (compiled : scope.compile preferred first = .ok predicate)
    (compiled_other : scope.compile preferred second = .ok other) : predicate.Alike other := by
  cases alike with
  | all alike_parts =>
      obtain ⟨predicates, compiled_parts, rfl⟩ := map_eq_ok_iff.mp compiled
      obtain ⟨others, compiled_others, rfl⟩ := map_eq_ok_iff.mp compiled_other
      obtain ⟨texts, counts⟩ := compileAll_alike alike_parts compiled_parts compiled_others
      exact ⟨fun taken => by rw [Predicate.textFrom, Predicate.textFrom, texts], counts⟩
  | any alike_parts =>
      obtain ⟨predicates, compiled_parts, rfl⟩ := map_eq_ok_iff.mp compiled
      obtain ⟨others, compiled_others, rfl⟩ := map_eq_ok_iff.mp compiled_other
      obtain ⟨texts, counts⟩ := compileAll_alike alike_parts compiled_parts compiled_others
      exact ⟨fun taken => by rw [Predicate.textFrom, Predicate.textFrom, texts], counts⟩
  | clause alike_clause => exact compileClause_alike alike_clause compiled compiled_other

theorem compileAll_alike {parts others : List Filter} (alike : AllAlike parts others)
    {predicates more : List Predicate}
    (compiled : scope.compileAll preferred parts = .ok predicates)
    (compiled_more : scope.compileAll preferred others = .ok more) :
    (∀ taken, Predicate.textsFrom taken predicates = Predicate.textsFrom taken more) ∧
      (Predicate.valuesOf predicates).length = (Predicate.valuesOf more).length := by
  cases alike with
  | nil =>
      obtain rfl := Except.ok.inj compiled
      obtain rfl := Except.ok.inj compiled_more
      exact ⟨fun taken => rfl, rfl⟩
  | cons alike_part alike_rest =>
      obtain ⟨first, rest, compiled_part, compiled_rest, rfl⟩ := exists_of_compileAll_cons compiled
      obtain ⟨first', rest', compiled_part', compiled_rest', rfl⟩ :=
        exists_of_compileAll_cons compiled_more
      have part_alike := compile_alike alike_part compiled_part compiled_part'
      obtain ⟨texts, counts⟩ := compileAll_alike alike_rest compiled_rest compiled_rest'
      refine ⟨fun taken => ?_, ?_⟩
      · rw [Predicate.textsFrom, Predicate.textsFrom, part_alike.text, part_alike.count, texts]
      · rw [Predicate.valuesOf, Predicate.valuesOf, List.length_append, List.length_append,
          part_alike.count, counts]

end

end Scope

/-! ## Expansions -/

/-- Two `where` parameters that spell filters which differ in their values, or no filter. -/
def Filter.ReadAlike (isOperator : String → Bool) (first second : Option String) : Prop :=
  ∃ filter other, parseOptional isOperator first = .ok filter ∧
    parseOptional isOperator second = .ok other ∧ Option.Rel Alike filter other

/-- Expansions that differ in the values of their filters. -/
structure Expansion.Alike (first second : Expansion) : Prop where
  /-- They are for the same lists and operators. -/
  scope : first.scope = second.scope
  /-- They project the same. -/
  fragments : first.fragments = second.fragments
  /-- They use the same attributes. -/
  usedAttributes : first.usedAttributes = second.usedAttributes
  /-- They use the same lists. -/
  usedLists : first.usedLists = second.usedLists
  /-- Their filters differ in values. -/
  filter : Option.Rel Filter.Alike first.filter second.filter
  /-- Their predicates differ in values. -/
  predicate : Option.Rel Predicate.Alike first.predicate second.predicate

namespace Expansion.Alike

variable {first second : Expansion}

theorem usesAttribute_eq (alike : first.Alike second) :
    first.usesAttribute = second.usesAttribute := by
  funext key
  rw [usesAttribute, usesAttribute, alike.usedAttributes]

theorem usesList_eq (alike : first.Alike second) : first.usesList = second.usesList := by
  funext list
  rw [usesList, usesList, alike.usedLists]

theorem fragmentsOf_eq (alike : first.Alike second) : first.fragmentsOf = second.fragmentsOf := by
  funext lists
  rw [fragmentsOf, fragmentsOf, alike.fragments]

end Expansion.Alike

namespace Scope

variable {scope : Scope}

theorem addUses_alike {comparisons others : List Clause}
    (alike : List.Forall₂ Clause.Alike comparisons others) (projections : Projections) :
    scope.addUses projections comparisons = scope.addUses projections others := by
  induction alike generalizing projections with
  | nil => rfl
  | cons alike_clause _ induction => simp only [addUses, alike_clause.key, induction]

theorem clausesOf_alike {filter other : Option Filter}
    (alike : Option.Rel Filter.Alike filter other) :
    List.Forall₂ Clause.Alike (clausesOf filter) (clausesOf other) := by
  cases alike with
  | none => exact .nil
  | some alike_filter => exact alike_filter.clauses

theorem predicateOf_alike {preferred : Option String} {filter other : Option Filter}
    (alike : Option.Rel Filter.Alike filter other) {predicate predicate' : Option Predicate}
    (found : scope.predicateOf preferred filter = .ok predicate)
    (found' : scope.predicateOf preferred other = .ok predicate') :
    Option.Rel Predicate.Alike predicate predicate' := by
  cases alike with
  | none =>
      obtain rfl := Except.ok.inj found
      obtain rfl := Except.ok.inj found'
      exact .none
  | some alike_filter =>
      obtain ⟨compiled, compiled_eq, rfl⟩ := map_eq_ok_iff.mp found
      obtain ⟨compiled', compiled_eq', rfl⟩ := map_eq_ok_iff.mp found'
      exact .some (compile_alike alike_filter compiled_eq compiled_eq')

/-- An expansion depends on the values of a filter through the values of its predicate alone. -/
theorem Expands.alike {select conditions others : Option String} {distinct : Bool}
    (alike : Filter.ReadAlike scope.operators.isName conditions others)
    {expansion expansion' : Expansion} (known : scope.Expands select conditions distinct expansion)
    (known' : scope.Expands select others distinct expansion') : expansion.Alike expansion' := by
  obtain ⟨filter, other, read, read', alike_filters⟩ := alike
  have filter_eq : filter = expansion.filter := Except.ok.inj (read.symm.trans known.filter)
  have other_eq : other = expansion'.filter := Except.ok.inj (read'.symm.trans known'.filter)
  subst filter_eq other_eq
  obtain ⟨chosen, used, projected, uses, fragments_eq, attributes_eq, lists_eq⟩ := known.uses
  obtain ⟨chosen', used', projected', uses', fragments_eq', attributes_eq', lists_eq'⟩ :=
    known'.uses
  have same_uses : scope.addUses chosen (clausesOf expansion.filter) =
      scope.addUses chosen (clausesOf expansion'.filter) :=
    addUses_alike (clausesOf_alike alike_filters) chosen
  obtain rfl : chosen = chosen' := Except.ok.inj (projected.symm.trans projected')
  obtain rfl : used = used' := Except.ok.inj (uses.symm.trans (same_uses.trans uses'))
  exact {
    scope := known.within.trans known'.within.symm
    fragments := fragments_eq.trans fragments_eq'.symm
    usedAttributes := attributes_eq.trans attributes_eq'.symm
    usedLists := lists_eq.trans lists_eq'.symm
    filter := alike_filters
    predicate := predicateOf_alike alike_filters known.predicate known'.predicate }

end Scope

end StationGateway
