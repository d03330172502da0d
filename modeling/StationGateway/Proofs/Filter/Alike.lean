import Mathlib.Data.List.Forall2
import StationGateway.Filter.Basic

/-!
# Filters that differ in their values

Two filters are alike if they have the same shape and corresponding comparisons have the same
attribute, path and operator, and operands of the same kind. Their values may be any others of that
kind. -/

namespace StationGateway.Filter

/-- Comparisons that differ in their values, or in where they stand. -/
structure Clause.Alike (first second : Clause) : Prop where
  /-- The attribute is the same. -/
  key : first.key = second.key
  /-- The path is the same. -/
  path : first.path = second.path
  /-- The operator is the same. -/
  operator : first.operator = second.operator
  /-- Both operands are lists, or neither is. -/
  isList : first.operand.isList = second.operand.isList
  /-- The type of the operands is the same. -/
  valueType : first.operand.valueType = second.operand.valueType

mutual

/-- Filters that differ in their values. -/
inductive Alike : Filter → Filter → Prop where
  /-- Conjunctions of such filters. -/
  | all {parts others : List Filter} (alike : AllAlike parts others) :
      Alike (.all parts) (.all others)
  /-- Disjunctions of such filters. -/
  | any {parts others : List Filter} (alike : AllAlike parts others) :
      Alike (.any parts) (.any others)
  /-- Such comparisons. -/
  | clause {comparison other : Clause} (alike : comparison.Alike other) :
      Alike (.clause comparison) (.clause other)

/-- Lists of filters that differ in their values. -/
inductive AllAlike : List Filter → List Filter → Prop where
  /-- No filters. -/
  | nil : AllAlike [] []
  /-- One more filter. -/
  | cons {part other : Filter} {rest others : List Filter} (alike : Alike part other)
      (alike_rest : AllAlike rest others) : AllAlike (part :: rest) (other :: others)

end

mutual

/-- Filters that are alike compare the same things in the same order. -/
theorem Alike.clauses {first second : Filter} (alike : Alike first second) :
    List.Forall₂ Clause.Alike first.clauses second.clauses := by
  cases alike with
  | all alike_parts => exact alike_parts.clausesOf
  | any alike_parts => exact alike_parts.clausesOf
  | clause alike_clause => exact .cons alike_clause .nil

theorem AllAlike.clausesOf {parts others : List Filter} (alike : AllAlike parts others) :
    List.Forall₂ Clause.Alike (Filter.clausesOf parts) (Filter.clausesOf others) := by
  cases alike with
  | nil => exact .nil
  | cons alike_part alike_rest => exact List.rel_append alike_part.clauses alike_rest.clausesOf

end

end StationGateway.Filter
