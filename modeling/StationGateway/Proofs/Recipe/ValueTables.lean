import Mathlib
import StationGateway.Proofs.Expansion.Meaning
import StationGateway.Proofs.Expansion.Stages
import StationGateway.Proofs.Recipe.Stages

/-!
# Rows of the tables that are left out

The tables of measured values are chosen by the type that the value is compared with, wherever the
comparison stands. Rows of the other tables have no such value, so none of them fits a filter that
requires the comparison. If the comparison is only one of several alternatives, rows that fit
another one are left out with the tables.
-/

namespace StationGateway

open StationGateway.Filter Outcome

namespace Filter

/-! ## Comparisons that a filter requires -/

mutual

/-- Whether a filter can only hold if some comparison of an attribute does: a conjunction requires
what one of its parts requires, a disjunction what all of its parts require. -/
def requires (key : String) : Filter → Bool
  | all parts => anyRequires key parts
  | any parts => allRequire key parts
  | clause comparison => comparison.key = key

/-- Whether one of several filters requires a comparison of an attribute. -/
def anyRequires (key : String) : List Filter → Bool
  | [] => false
  | part :: rest => requires key part || anyRequires key rest

/-- Whether all of several filters require a comparison of an attribute. -/
def allRequire (key : String) : List Filter → Bool
  | [] => true
  | part :: rest => requires key part && allRequire key rest

end

/-- Whether no comparison of an attribute holds among some that are numbered from `next` on. -/
def Dismissed (key : String) (truth : Nat → Bool) (next : Nat) (comparisons : List Clause) : Prop :=
  ∀ numbered ∈ comparisons.zipIdx next, numbered.1.key = key → truth numbered.2 = false

/-- Whether every comparison of another attribute holds among some that are numbered from `next` on.
-/
def Granted (key : String) (truth : Nat → Bool) (next : Nat) (comparisons : List Clause) : Prop :=
  ∀ numbered ∈ comparisons.zipIdx next, numbered.1.key ≠ key → truth numbered.2 = true

variable {key : String} {truth : Nat → Bool}

theorem dismissed_append {next : Nat} {first second : List Clause} :
    Dismissed key truth next (first ++ second) ↔
      Dismissed key truth next first ∧ Dismissed key truth (next + first.length) second := by
  simp only [Dismissed, List.zipIdx_append, List.forall_mem_append]

theorem granted_append {next : Nat} {first second : List Clause} :
    Granted key truth next (first ++ second) ↔
      Granted key truth next first ∧ Granted key truth (next + first.length) second := by
  simp only [Granted, List.zipIdx_append, List.forall_mem_append]

mutual

/-- A filter does not hold without a comparison that it requires. -/
theorem holdsFrom_eq_false {filter : Filter} (required : filter.requires key = true)
    {next : Nat} (dismissed : Dismissed key truth next filter.clauses) :
    filter.holdsFrom truth next = false := by
  cases filter with
  | all parts => exact allHoldFrom_eq_false required dismissed
  | any parts => exact anyHoldsFrom_eq_false required dismissed
  | clause comparison =>
      exact dismissed (comparison, next) List.mem_cons_self (of_decide_eq_true required)

theorem allHoldFrom_eq_false {parts : List Filter} (required : anyRequires key parts = true)
    {next : Nat} (dismissed : Dismissed key truth next (clausesOf parts)) :
    allHoldFrom truth next parts = false := by
  cases parts with
  | nil => cases required
  | cons part rest =>
      obtain ⟨in_part, in_rest⟩ := dismissed_append.mp dismissed
      rw [allHoldFrom, Bool.and_eq_false_iff]
      rcases Bool.or_eq_true_iff.mp required with of_part | of_rest
      · exact .inl (holdsFrom_eq_false of_part in_part)
      · exact .inr (allHoldFrom_eq_false of_rest in_rest)

theorem anyHoldsFrom_eq_false {parts : List Filter} (required : allRequire key parts = true)
    {next : Nat} (dismissed : Dismissed key truth next (clausesOf parts)) :
    anyHoldsFrom truth next parts = false := by
  cases parts with
  | nil => rfl
  | cons part rest =>
      obtain ⟨in_part, in_rest⟩ := dismissed_append.mp dismissed
      obtain ⟨of_part, of_rest⟩ := Bool.and_eq_true_iff.mp required
      rw [anyHoldsFrom, Bool.or_eq_false_iff]
      exact ⟨holdsFrom_eq_false of_part in_part, anyHoldsFrom_eq_false of_rest in_rest⟩

end

mutual

/-- A filter can hold without the comparisons of an attribute that it does not require. -/
theorem holdsFrom_eq_true {filter : Filter} (free : filter.requires key = false)
    {next : Nat} (granted : Granted key truth next filter.clauses) :
    filter.holdsFrom truth next = true := by
  cases filter with
  | all parts => exact allHoldFrom_eq_true free granted
  | any parts => exact anyHoldsFrom_eq_true free granted
  | clause comparison =>
      exact granted (comparison, next) List.mem_cons_self (of_decide_eq_false free)

theorem allHoldFrom_eq_true {parts : List Filter} (free : anyRequires key parts = false)
    {next : Nat} (granted : Granted key truth next (clausesOf parts)) :
    allHoldFrom truth next parts = true := by
  cases parts with
  | nil => rfl
  | cons part rest =>
      obtain ⟨in_part, in_rest⟩ := granted_append.mp granted
      obtain ⟨of_part, of_rest⟩ := Bool.or_eq_false_iff.mp free
      rw [allHoldFrom, Bool.and_eq_true_iff]
      exact ⟨holdsFrom_eq_true of_part in_part, allHoldFrom_eq_true of_rest in_rest⟩

theorem anyHoldsFrom_eq_true {parts : List Filter} (free : allRequire key parts = false)
    {next : Nat} (granted : Granted key truth next (clausesOf parts)) :
    anyHoldsFrom truth next parts = true := by
  cases parts with
  | nil => cases free
  | cons part rest =>
      obtain ⟨in_part, in_rest⟩ := granted_append.mp granted
      rw [anyHoldsFrom, Bool.or_eq_true_iff]
      rcases Bool.and_eq_false_iff.mp free with of_part | of_rest
      · exact .inl (holdsFrom_eq_true of_part in_part)
      · exact .inr (anyHoldsFrom_eq_true of_rest in_rest)

end

/-- A filter fails whenever the comparisons of an attribute do exactly if it requires one of them.
-/
theorem requires_iff (key : String) (filter : Filter) :
    filter.requires key = true ↔
      ∀ truth, Dismissed key truth 0 filter.clauses → filter.holdsFrom truth 0 = false := by
  constructor
  · exact fun required truth dismissed => holdsFrom_eq_false required dismissed
  · intro fails
    by_contra free
    -- Every other comparison may hold.
    let others : Nat → Bool := fun index => filter.clauses[index]?.any fun found => found.key ≠ key
    have dismissed : Dismissed key others 0 filter.clauses := by
      intro numbered member same
      have found := List.mem_zipIdx_iff_getElem?.mp member
      simp [others, found, same]
    have granted : Granted key others 0 filter.clauses := by
      intro numbered member ne
      have found := List.mem_zipIdx_iff_getElem?.mp member
      simp [others, found, ne]
    have holds := holdsFrom_eq_true (Bool.not_eq_true _ ▸ free) granted
    rw [fails others dismissed] at holds
    cases holds

end Filter

namespace Recipe

/-! ## Tables that are left out -/

/-- The type of the values of a table, none if it has values of several types. -/
def ValueTable.valueType? : ValueTable → Option ValueType
  | double => some .number
  | string => some .string
  | json => none

/-- Whether values of a table can have the type that a comparison is about. Only JSON values have
paths, and every value can be compared with null. -/
def ValueTable.Fits (values : ValueTable) (comparison : Clause) : Prop :=
  if comparison.path = [] then
    comparison.operand.valueType = .null ∨ values.valueType? = some comparison.operand.valueType
  else values = .json

/-- The tables for a comparison are those whose values can have its type. -/
theorem mem_tablesFor_iff {comparison : Clause} {tables : List ValueTable}
    (chosen : tablesFor comparison = .ok tables) (values : ValueTable) :
    values ∈ tables ↔ values.Fits comparison := by
  rw [tablesFor] at chosen
  rw [ValueTable.Fits]
  split at chosen
  · cases chosen
  · cases chosen
  · next path_eq _ _ =>
    obtain rfl := Except.ok.inj chosen
    simp [path_eq]
  all_goals
    next given_eq path_eq =>
      obtain rfl := Except.ok.inj chosen
      cases values <;> simp [path_eq, given_eq, ValueTable.valueType?, ValueTable.all]

/-- A table is only left out for the one comparison of the value, whose type its values cannot
have. -/
theorem exists_of_not_mem_valueTables {expansion : Expansion} {tables : List ValueTable}
    (chosen : valueTables expansion = .ok tables) {values : ValueTable} (absent : values ∉ tables) :
    ∃ comparison, expansion.comparisonsOf valueAttribute = [comparison] ∧
      ¬values.Fits comparison := by
  rw [valueTables] at chosen
  split at chosen
  · obtain rfl := Except.ok.inj chosen
    cases values <;> exact absurd (by decide) absent
  · next comparison single =>
    exact ⟨comparison, single, fun fits => absent ((mem_tablesFor_iff chosen values).mpr fits)⟩
  · cases chosen

/-- A table that measurements are not read from has no values of the type that the value is compared
with. So none of its rows fits the filter exactly if the filter requires that comparison. -/
theorem requires_iff_of_left_out {resources : Resources} {options : Options}
    {types datatypes : String} {window : Option Window} {prepared : Prepared}
    (compiled : measurements resources options types datatypes window = .ok prepared)
    {values : ValueTable}
    (left_out : ∀ branch ∈ prepared.query.branches,
      branch.source.table ≠ values.table window.isSome) :
    ∃ filter comparison,
      parseOptional resources.operators.isName options.filter = .ok (some filter) ∧
      (filter.clauses.filter fun found => found.key = valueAttribute) = [comparison] ∧
      ¬values.Fits comparison ∧
      ((∀ truth, Dismissed valueAttribute truth 0 filter.clauses →
          filter.holdsFrom truth 0 = false) ↔ filter.requires valueAttribute = true) := by
  obtain ⟨expansion, tables, access, branches, expanded, chosen, -, made, query_eq⟩ :=
    exists_of_measurements compiled
  have absent : values ∉ tables := by
    intro member
    obtain ⟨branch, branch_in, predicate, -, branch_eq⟩ := exists_of_mem_left made member
    rw [query_eq] at left_out
    exact left_out branch branch_in (by rw [branch_eq, measurementBranch])
  obtain ⟨comparison, single, unfit⟩ := exists_of_not_mem_valueTables chosen absent
  have expands := Scope.expands_of_expand expanded
  rw [expansion.comparisonsOf_eq] at single
  cases filter_eq : expansion.filter with
  | none =>
      rw [filter_eq] at single
      cases single
  | some filter =>
      rw [filter_eq] at single
      have read := expands.filter
      rw [filter_eq] at read
      exact ⟨filter, comparison, read, single, unfit, (requires_iff valueAttribute filter).symm⟩

/-- The name of the type is an alternative to the comparison with a number. So the texts that are
left out have rows that fit the filter. -/
theorem requires_iff_of_left_out_alternative :
    let options : Options :=
      { representation := ⟨.node, .flat⟩, limit := 200, offset := 0, select := none,
        filter := some "or(mvalue.gt.10,tname.eq.occupied)", showNull := false, distinct := true,
        roles := ["GUEST"] }
    ∃ prepared filter,
      measurements Resources.bundled options "*" "*" none = .ok prepared ∧
      (∀ branch ∈ prepared.query.branches, branch.source.table ≠ ValueTable.string.table false) ∧
      parseOptional OperatorTable.standard.isName options.filter = .ok (some filter) ∧
      ∃ truth, Dismissed valueAttribute truth 0 filter.clauses ∧
        filter.holdsFrom truth 0 = true := by
  intro options
  have tables_eq : ((measurements Resources.bundled options "*" "*" none).toOption.map
      fun prepared => prepared.query.branches.map fun branch => branch.source.table) =
      some ["measurement"] := by
    decide +kernel
  have free : (parseOptional OperatorTable.standard.isName options.filter).toOption.map
      (fun filter => filter.map (requires valueAttribute)) = some (some false) := by
    decide +kernel
  obtain ⟨prepared, is_prepared, branches_eq⟩ := Option.map_eq_some_iff.mp tables_eq
  have compiled := toOption_eq_some_iff.mp is_prepared
  have left_out : ∀ branch ∈ prepared.query.branches,
      branch.source.table ≠ ValueTable.string.table false := by
    intro branch branch_in same
    have member := List.mem_map_of_mem (f := fun branch => branch.source.table) branch_in
    rw [branches_eq, same] at member
    exact absurd member (by decide)
  obtain ⟨filter, comparison, read, -, -, loses_none⟩ := requires_iff_of_left_out compiled left_out
  refine ⟨prepared, filter, compiled, left_out, read, ?_⟩
  have not_required : filter.requires valueAttribute = false := by
    have read_bundled : parseOptional OperatorTable.standard.isName options.filter =
        .ok (some filter) := read
    rw [read_bundled] at free
    exact Option.some.inj (Option.some.inj free)
  by_contra nothing
  refine absurd (loses_none.mp fun truth dismissed => ?_) (by rw [not_required]; decide)
  by_contra holds
  exact nothing ⟨truth, dismissed, Bool.not_eq_false _ ▸ holds⟩

end Recipe

end StationGateway
