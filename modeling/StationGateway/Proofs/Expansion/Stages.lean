import StationGateway.Expansion.Basic
import StationGateway.Proofs.Outcome

/-!
# Stages of an expansion

What is known about an expansion: it comes from the projections of the selection, the filter as it
has been read, the uses of its comparisons, and its predicate.
-/

namespace StationGateway

open StationGateway.Filter Outcome

/-- The filter of a `where` parameter, if there is one. -/
def Filter.parseOptional (isOperator : String → Bool) (conditions : Option String) :
    Except GatewayError (Option Filter) :=
  match conditions with
  | some text => parse isOperator text
  | none => .ok none

namespace Scope

/-- The predicate of a filter, if there is one. -/
def predicateOf (scope : Scope) (preferred : Option String) (filter : Option Filter) :
    Except GatewayError (Option Predicate) :=
  match filter with
  | some filter => (scope.compile preferred filter).map some
  | none => .ok none

/-- The comparisons of a filter, if there is one. -/
def clausesOf (filter : Option Filter) : List Clause :=
  filter.elim [] Filter.clauses

/-- An expansion of a `select` and a `where` parameter. -/
structure Expands (scope : Scope) (select conditions : Option String) (distinct : Bool)
    (expansion : Expansion) : Prop where
  /-- It is for the lists and operators it was resolved against. -/
  within : expansion.scope = scope
  /-- Its filter is the one that the text spells. -/
  filter : parseOptional scope.operators.isName conditions = .ok expansion.filter
  /-- Its predicate is the one of the filter. -/
  predicate : scope.predicateOf none expansion.filter = .ok expansion.predicate
  /-- It projects what is selected, and uses what is selected or compared. -/
  uses : ∃ chosen used, scope.projections (select.getD "") = .ok chosen ∧
    scope.addUses chosen (clausesOf expansion.filter) = .ok used ∧
    expansion.fragments = used.fragments ∧ expansion.usedAttributes = used.usedAttributes ∧
    expansion.usedLists = used.usedLists

/-- What remains to be done when the selection and the filter are known. -/
private def finish (scope : Scope) (distinct : Bool) (chosen : Projections)
    (filter : Option Filter) : Except GatewayError Expansion := do
  match filter with
  | none =>
      return { scope, fragments := chosen.fragments, usedAttributes := chosen.usedAttributes,
               usedLists := chosen.usedLists, filter := none, predicate := none, distinct }
  | some filter =>
      let used ← scope.addUses chosen filter.clauses
      let predicate ← scope.compile none filter
      return { scope, fragments := used.fragments, usedAttributes := used.usedAttributes,
               usedLists := used.usedLists, filter := some filter, predicate := some predicate,
               distinct }

private theorem expand_eq (scope : Scope) (select conditions : Option String) (distinct : Bool) :
    scope.expand select conditions distinct =
      scope.projections (select.getD "") >>= fun chosen =>
        parseOptional scope.operators.isName conditions >>= scope.finish distinct chosen := by
  cases conditions <;> rfl

theorem expands_of_expand {scope : Scope} {select conditions : Option String} {distinct : Bool}
    {expansion : Expansion} (expanded : scope.expand select conditions distinct = .ok expansion) :
    scope.Expands select conditions distinct expansion := by
  rw [expand_eq] at expanded
  obtain ⟨chosen, projected, more⟩ := bind_eq_ok_iff.mp expanded
  obtain ⟨filter, read, finished⟩ := bind_eq_ok_iff.mp more
  cases filter with
  | none =>
      obtain rfl := Except.ok.inj finished
      exact ⟨rfl, read, rfl, chosen, chosen, projected, rfl, rfl, rfl, rfl⟩
  | some filter =>
      obtain ⟨used, uses, more⟩ := bind_eq_ok_iff.mp finished
      obtain ⟨predicate, compiled, more⟩ := bind_eq_ok_iff.mp more
      obtain rfl := Except.ok.inj more
      have predicate_eq : scope.predicateOf none (some filter) = .ok (some predicate) :=
        map_eq_ok_iff.mpr ⟨predicate, compiled, rfl⟩
      exact ⟨rfl, read, predicate_eq, chosen, used, projected, uses, rfl, rfl, rfl⟩

/-- A predicate of a filter that a text spells comes from that filter. -/
theorem exists_filter_of_predicateOf {scope : Scope} {conditions preferred : Option String}
    {filter : Option Filter} (read : parseOptional scope.operators.isName conditions = .ok filter)
    {predicate : Predicate} (found : scope.predicateOf preferred filter = .ok (some predicate)) :
    ∃ text spelled, parse scope.operators.isName text = .ok (some spelled) ∧
      scope.compile preferred spelled = .ok predicate := by
  cases filter with
  | none => cases found
  | some spelled =>
      obtain ⟨compiled, compiled_eq, equal⟩ := map_eq_ok_iff.mp found
      obtain rfl := Option.some.inj equal
      cases conditions with
      | none => cases read
      | some text => exact ⟨text, spelled, read, compiled_eq⟩

end Scope

theorem Expansion.predicateFor_eq (expansion : Expansion) (preferred : String) :
    expansion.predicateFor preferred =
      expansion.scope.predicateOf (some preferred) expansion.filter := by
  cases filter : expansion.filter with
  | none => simp [predicateFor, Scope.predicateOf, filter]
  | some found => simp [predicateFor, Scope.predicateOf, filter]

theorem Expansion.comparisonsOf_eq (expansion : Expansion) (key : String) :
    expansion.comparisonsOf key =
      (Scope.clausesOf expansion.filter).filter fun comparison => comparison.key = key := by
  cases filter : expansion.filter with
  | none => simp [comparisonsOf, Scope.clausesOf, filter]
  | some found => simp [comparisonsOf, Scope.clausesOf, filter]

end StationGateway
