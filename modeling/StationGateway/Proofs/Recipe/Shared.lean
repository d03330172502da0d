import StationGateway.Proofs.Expansion.Form
import StationGateway.Proofs.Expansion.Stages
import StationGateway.Proofs.Recipe.Stages

/-!
# Values that selections share

The selections of a query for measurements read the filter against different lists, and all of them
refer to the same values. So it does not matter that their values are merged under one set of names. -/

namespace StationGateway.Recipe

open Outcome

/-- Merging the values of selections that refer to the same ones. -/
theorem mapOfList_of_shared {shared : Params} {branches : List Branch} (filled : branches ≠ [])
    (same : ∀ branch ∈ branches, branch.params = shared) (paging : Params) :
    Order.mapOfList (branches.flatMap Branch.params ++ paging) =
      Order.mapOfList (shared ++ paging) := by
  have once : ∀ branches : List Branch, (∀ branch ∈ branches, branch.params = shared) →
      Order.putAll (Order.mapOfList shared) (branches.flatMap Branch.params) =
        Order.mapOfList shared := by
    intro branches same
    induction branches with
    | nil => rfl
    | cons branch rest induction =>
        obtain ⟨branch_same, rest_same⟩ := List.forall_mem_cons.mp same
        rw [List.flatMap_cons, branch_same, Order.putAll, List.foldl_append, ← Order.putAll,
          ← Order.putAll, Order.mapOfList, ← Order.putAll,
          Order.putAll_putAll Order.ascending_nil]
        exact induction rest_same
  obtain ⟨branch, rest, rfl⟩ := List.exists_cons_of_ne_nil filled
  obtain ⟨branch_same, rest_same⟩ := List.forall_mem_cons.mp same
  have merged : Order.mapOfList ((branch :: rest).flatMap Branch.params) = Order.mapOfList shared := by
    rw [List.flatMap_cons, branch_same, Order.mapOfList, List.foldl_append]
    exact once rest rest_same
  rw [Order.mapOfList, List.foldl_append, ← Order.mapOfList, merged, Order.mapOfList, Order.mapOfList,
    List.foldl_append]

/-- What the predicate of a filter refers to does not depend on the list that is preferred. -/
theorem params_predicateOf {scope : Scope} {filter : Option Filter} {first second : Option String}
    {predicate other : Option Predicate} (compiled : scope.predicateOf first filter = .ok predicate)
    (compiled_other : scope.predicateOf second filter = .ok other) :
    predicate.map Predicate.params = other.map Predicate.params := by
  cases filter with
  | none =>
      obtain rfl := Except.ok.inj compiled
      obtain rfl := Except.ok.inj compiled_other
      rfl
  | some filter =>
      obtain ⟨found, found_eq, rfl⟩ := map_eq_ok_iff.mp compiled
      obtain ⟨found_other, other_eq, rfl⟩ := map_eq_ok_iff.mp compiled_other
      exact congrArg some
        ((Scope.params_of_compile found_eq).trans (Scope.params_of_compile other_eq).symm)

/-- Selections from different tables refer to the same values if their predicates do. -/
theorem params_measurementBranch (options : Options) (types datatypes : Option (List String))
    (window : Option Window) (expansion : Expansion) (access : List Condition)
    (values others : ValueTable) {predicate other : Option Predicate}
    (same : predicate.map Predicate.params = other.map Predicate.params) :
    (measurementBranch options types datatypes window expansion access values predicate).params =
      (measurementBranch options types datatypes window expansion access others other).params := by
  have filter_eq : ∀ predicate : Option Predicate,
      (filterCondition predicate).flatMap Condition.params =
        (predicate.map Predicate.params).getD [] := by
    rintro (_ | predicate)
    · rfl
    · exact List.flatMap_singleton ..
  simp only [Branch.params, measurementBranch, List.flatMap_append, filter_eq, same]

/-- All selections of a query for measurements refer to the same values, and so does the query. -/
theorem exists_shared_of_measurements {resources : Resources} {options : Options}
    {types datatypes : String} {window : Option Window} {prepared : Prepared}
    (compiled : measurements resources options types datatypes window = .ok prepared) :
    ∃ shared : Params, (∀ branch ∈ prepared.query.branches, branch.params = shared) ∧
      prepared.query.params = Order.mapOfList (shared ++ prepared.query.paging) := by
  obtain ⟨expansion, tables, access, branches, -, tables_eq, -, each, query_eq⟩ :=
    exists_of_measurements compiled
  have branches_eq : prepared.query.branches = branches := by rw [query_eq]; rfl
  obtain ⟨values, rest, rfl⟩ := List.exists_cons_of_ne_nil (valueTables_ne_nil tables_eq)
  obtain ⟨branch, others, ⟨predicate, found, rfl⟩, -, rfl⟩ := List.forall₂_cons_left_iff.mp each
  have same : ∀ branch ∈ prepared.query.branches, branch.params =
      (measurementBranch options (restriction? types) (restriction? datatypes) window expansion access
        values predicate).params := by
    rw [branches_eq]
    intro branch member
    obtain ⟨table, -, other, other_found, rfl⟩ := exists_of_mem_right each member
    rw [Expansion.predicateFor_eq] at found other_found
    exact params_measurementBranch _ _ _ _ _ _ _ _ (params_predicateOf other_found found)
  refine ⟨_, same, ?_⟩
  rw [Query.params, mapOfList_of_shared _ same]
  rw [branches_eq]
  exact List.cons_ne_nil _ _

end StationGateway.Recipe
