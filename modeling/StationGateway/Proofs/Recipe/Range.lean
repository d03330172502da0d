import Mathlib
import StationGateway.Proofs.Expansion.Alike
import StationGateway.Proofs.Order.Gather
import StationGateway.Proofs.Recipe.Branches

/-!
# Beginnings of ranges of time

A request for history that has a beginning puts every selection under a condition on the time of its
rows, and names the beginning as the value of that condition. A request without a beginning has
neither the condition nor the value.
-/

namespace StationGateway.Recipe

open Statement Outcome

variable {name : String} {value : SqlValue}

/-- The conditions that refer to a value of some name, each with the value. -/
def conditionsAbout (name : String) (conditions : List Condition) : List (String × SqlValue) :=
  conditions.filterMap fun
    | .about text found value => if found = name then some (text, value) else none
    | _ => none

/-- Whether a query selects rows from some instant on, judged by a column; from the first row on if
there is no instant. -/
structure Prepared.BeginsAt (prepared : Prepared) (column : String) (first : Option Time.Instant) :
    Prop where
  /-- Every selection has the condition, once and for that instant. -/
  conditions : ∀ branch ∈ prepared.query.branches, conditionsAbout "from" branch.conditions =
    first.toList.map fun moment => (column ++ " >= :from::timestamptz", .timestamp moment)
  /-- The condition refers to that instant. -/
  value : Order.find? "from" prepared.params = first.map .timestamp

/-! ## Conditions about a value -/

theorem conditionsAbout_append (first second : List Condition) :
    conditionsAbout name (first ++ second) =
      conditionsAbout name first ++ conditionsAbout name second :=
  List.filterMap_append

theorem conditionsAbout_oneOf {expression other : String} (ne : other ≠ name)
    (items : Option (List String)) : conditionsAbout name (oneOf expression other items) = [] := by
  cases items with
  | none => rfl
  | some items => simp [oneOf, conditionsAbout, ne]

theorem conditionsAbout_filterCondition (predicate : Option Predicate) :
    conditionsAbout name (filterCondition predicate) = [] := by
  cases predicate <;> rfl

theorem conditionsAbout_availableParent (expansion : Expansion) :
    conditionsAbout name (availableParent expansion) = [] := by
  rw [availableParent, onlyIf]
  split_ifs <;> rfl

theorem conditionsAbout_access {resources : Resources} {options : Options}
    {rows : Access.RowClass} {access : List Condition}
    (applies : resources.access options rows = .ok access) : conditionsAbout name access = [] := by
  rw [Resources.access] at applies
  split at applies
  · obtain rfl := Except.ok.inj applies
    next rule _ => cases rule <;> rfl
  · cases applies

theorem valueName_ne_from (number : Nat) : Predicate.valueName number ≠ "from" := by
  intro same
  have heads := congrArg (fun text => text.toList.head?) same
  simp [Predicate.valueName] at heads

/-- A value whose name is none of the filter's comes from the conditions about it. -/
theorem mem_params_iff (own : ∀ number, Predicate.valueName number ≠ name) {branch : Branch} :
    (name, value) ∈ branch.params ↔
      ∃ text, (text, value) ∈ conditionsAbout name branch.conditions := by
  rw [Branch.params, List.mem_flatMap]
  constructor
  · rintro ⟨condition, condition_in, member⟩
    cases condition with
    | fixed text => cases member
    | access rule => cases member
    | about text other given =>
        obtain ⟨rfl, rfl⟩ := Prod.mk.inj (List.mem_singleton.mp member)
        exact ⟨text, List.mem_filterMap.mpr ⟨_, condition_in, if_pos rfl⟩⟩
    | filter predicate =>
        have name_in : name ∈ predicate.params.map (·.1) := List.mem_map_of_mem member
        rw [Predicate.names_params, Order.mem_ofList] at name_in
        obtain ⟨number, -, same⟩ := List.mem_map.mp name_in
        exact absurd same (own number)
  · rintro ⟨text, member⟩
    obtain ⟨condition, condition_in, found⟩ := List.mem_filterMap.mp member
    cases condition with
    | fixed text => cases found
    | access rule => cases found
    | filter predicate => cases found
    | about text other given =>
        dsimp only at found
        split_ifs at found with same
        obtain ⟨rfl, rfl⟩ := Prod.mk.inj (Option.some.inj found)
        exact ⟨_, condition_in, same ▸ List.mem_singleton_self _⟩

/-! ## Requests for history -/

section

variable {resources : Resources} {options : Options} {prepared : Prepared}

/-- What the conditions are about is known once the selections are. -/
theorem beginsAt_of_branches {column : String} {first : Option Time.Instant}
    (some_branch : prepared.query.branches ≠ [])
    (conditions : ∀ branch ∈ prepared.query.branches, conditionsAbout "from" branch.conditions =
      first.toList.map fun moment => (column ++ " >= :from::timestamptz", .timestamp moment)) :
    prepared.BeginsAt column first := by
  have entry_iff : ∀ value, ("from", value) ∈
      prepared.query.branches.flatMap Branch.params ++ prepared.query.paging ↔
      ∃ moment ∈ first, value = .timestamp moment := by
    intro value
    have no_paging : ("from", value) ∉ prepared.query.paging := by
      rw [Query.paging]
      split_ifs <;> simp
    rw [List.mem_append, or_iff_left no_paging, List.mem_flatMap]
    constructor
    · rintro ⟨branch, branch_in, member⟩
      obtain ⟨text, about⟩ := (mem_params_iff valueName_ne_from).mp member
      rw [conditions branch branch_in] at about
      obtain ⟨moment, moment_in, same⟩ := List.mem_map.mp about
      exact ⟨moment, Option.mem_toList.mp moment_in, (Prod.mk.inj same).2.symm⟩
    · rintro ⟨moment, moment_in, rfl⟩
      obtain ⟨branch, branch_in⟩ := List.exists_mem_of_ne_nil _ some_branch
      refine ⟨branch, branch_in,
        (mem_params_iff valueName_ne_from).mpr ⟨column ++ " >= :from::timestamptz", ?_⟩⟩
      rw [conditions branch branch_in]
      exact List.mem_map.mpr ⟨moment, Option.mem_toList.mpr moment_in, rfl⟩
  refine ⟨conditions, ?_⟩
  cases first with
  | none =>
      refine Order.find?_eq_none_of_not_mem fun member => ?_
      rw [Prepared.params, Query.params, Order.keys_mapOfList, Order.mem_ofList] at member
      obtain ⟨⟨name, value⟩, entry_in, rfl⟩ := List.mem_map.mp member
      obtain ⟨moment, absent, -⟩ := (entry_iff value).mp entry_in
      cases absent
  | some moment =>
      have named : "from" ∈ prepared.params.map (·.1) := by
        rw [Prepared.params, Query.params, Order.keys_mapOfList, Order.mem_ofList]
        exact List.mem_map_of_mem ((entry_iff _).mpr ⟨moment, rfl, rfl⟩)
      obtain ⟨value, found⟩ := Option.isSome_iff_exists.mp (Order.find?_isSome_iff.mpr named)
      obtain ⟨known, is_known, rfl⟩ := (entry_iff value).mp
        (Order.mem_of_mem_mapOfList (Order.mem_of_find? found))
      obtain rfl := Option.some.inj is_known
      exact found

theorem beginsAt_of_measurements {types datatypes : String} {window : Window}
    (compiled : measurements resources options types datatypes (some window) = .ok prepared) :
    prepared.BeginsAt "me.timestamp" (some window.first) := by
  have request_compiled :
      (Request.measurements types datatypes (some window)).prepare resources options =
        .ok prepared := compiled
  obtain ⟨expansion, branches, -, some_branch, selects, query_eq⟩ :=
    exists_query_of_prepare request_compiled
  have branches_eq : prepared.query.branches = branches := by rw [query_eq]; rfl
  rw [← branches_eq] at some_branch selects
  refine beginsAt_of_branches some_branch fun branch branch_in => ?_
  cases selects branch branch_in with
  | measurements _ _ _ _ _ applies _ =>
      simp only [measurementBranch, conditionsAbout_append, conditionsAbout_access applies,
        conditionsAbout_availableParent, conditionsAbout_filterCondition,
        conditionsAbout_oneOf (show "stationtypes" ≠ "from" by decide),
        conditionsAbout_oneOf (show "datatypes" ≠ "from" by decide)]
      simp [conditionsAbout, availableStation, windowConditions]

theorem beginsAt_of_stationsWithHistory {types : String} {first last : Option Time.Instant}
    (compiled : stationsWithHistory resources options types first last = .ok prepared) :
    prepared.BeginsAt "mh.created_on" first := by
  obtain ⟨expansion, -, query_eq⟩ := exists_of_stationsWithHistory compiled
  have branches_eq : prepared.query.branches =
      [historyBranch options (restriction? types) first last expansion] := by
    rw [query_eq]
    rfl
  refine beginsAt_of_branches (branches_eq ▸ List.cons_ne_nil _ _) fun branch branch_in => ?_
  rw [branches_eq] at branch_in
  obtain rfl := List.mem_singleton.mp branch_in
  have before : conditionsAbout "from" (createdBefore last) = [] := by
    cases last <;> simp [createdBefore, conditionsAbout]
  simp only [historyBranch, conditionsAbout_append, conditionsAbout_availableParent,
    conditionsAbout_filterCondition, before,
    conditionsAbout_oneOf (show "stationtypes" ≠ "from" by decide)]
  cases first <;> simp [conditionsAbout, availableStation, createdFrom]

end

end StationGateway.Recipe
