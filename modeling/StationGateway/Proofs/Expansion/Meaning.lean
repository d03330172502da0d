import Mathlib
import StationGateway.Proofs.Expansion.Comparison

/-!
# What compiled filters say

The text of a compiled filter, read back as a condition, has the shape of the filter: every part
stands in parentheses, and `and` or `or` stands between the parts of a conjunction or disjunction,
in their order. A conjunction or disjunction of one part has no word to show, and is a pair of
parentheses around it. So whatever the comparisons are, the text is true exactly if the filter is.
-/

namespace StationGateway

open Text StationGateway.Filter StationGateway.Sql Outcome

namespace Filter

mutual

/-- A filter as the condition that stands for it, with every part in parentheses. -/
def formula : Filter → Formula Clause
  | all parts => .group (.joined .all (formulas parts))
  | any parts => .group (.joined .any (formulas parts))
  | clause comparison => .group (.atom comparison)

/-- Several filters as conditions. -/
def formulas : List Filter → List (Formula Clause)
  | [] => []
  | part :: rest => formula part :: formulas rest

end

mutual

/-- The value of a filter for given values of its comparisons, which are numbered from `next` on. -/
def holdsFrom (truth : Nat → Bool) (next : Nat) : Filter → Bool
  | all parts => allHoldFrom truth next parts
  | any parts => anyHoldsFrom truth next parts
  | clause _ => truth next

/-- Whether all of several filters hold. -/
def allHoldFrom (truth : Nat → Bool) (next : Nat) : List Filter → Bool
  | [] => true
  | part :: rest =>
      holdsFrom truth next part && allHoldFrom truth (next + (clauses part).length) rest

/-- Whether one of several filters holds. -/
def anyHoldsFrom (truth : Nat → Bool) (next : Nat) : List Filter → Bool
  | [] => false
  | part :: rest =>
      holdsFrom truth next part || anyHoldsFrom truth (next + (clauses part).length) rest

end

mutual

theorem atoms_formula (filter : Filter) : filter.formula.atoms = filter.clauses := by
  cases filter with
  | all parts => simp only [formula, Formula.atoms, Formula.atoms_joined_all, clauses,
      atomsOf_formulas parts]
  | any parts => simp only [formula, Formula.atoms, Formula.atoms_joined_any, clauses,
      atomsOf_formulas parts]
  | clause comparison => rfl

theorem atomsOf_formulas (parts : List Filter) :
    Formula.atomsOf (formulas parts) = clausesOf parts := by
  cases parts with
  | nil => rfl
  | cons part rest =>
      rw [formulas, Formula.atomsOf, clausesOf, atoms_formula part, atomsOf_formulas rest]

end

mutual

/-- The condition that stands for a filter has its value. -/
theorem holds_formula (truth : Nat → Bool) (next : Nat) (filter : Filter) :
    (filter.formula.numberFrom next).holds truth = filter.holdsFrom truth next := by
  cases filter with
  | all parts =>
      simp only [formula, Formula.numberFrom, Formula.numberFrom_joined_all, Formula.holds,
        Formula.holds_joined_all, holdsFrom, (holds_formulas truth next parts).1]
  | any parts =>
      simp only [formula, Formula.numberFrom, Formula.numberFrom_joined_any, Formula.holds,
        Formula.holds_joined_any, holdsFrom, (holds_formulas truth next parts).2]
  | clause comparison => rfl

theorem holds_formulas (truth : Nat → Bool) (next : Nat) (parts : List Filter) :
    Formula.allHold truth (Formula.numberAllFrom next (formulas parts)) =
        allHoldFrom truth next parts ∧
      Formula.anyHolds truth (Formula.numberAllFrom next (formulas parts)) =
        anyHoldsFrom truth next parts := by
  cases parts with
  | nil => exact ⟨rfl, rfl⟩
  | cons part rest =>
      have first := holds_formula truth next part
      have others := holds_formulas truth (next + (clauses part).length) rest
      simp only [formulas, Formula.numberAllFrom, Formula.allHold, Formula.anyHolds, allHoldFrom,
        anyHoldsFrom, atoms_formula, first, others, and_self]

end

end Filter

namespace Scope

/-- The texts of comparisons in order, when `taken` values have been numbered. -/
def comparisonTexts (scope : Scope) (preferred : Option String) :
    Nat → List Clause → List (Option String)
  | _, [] => []
  | taken, comparison :: rest =>
      scope.comparisonText preferred taken comparison ::
        scope.comparisonTexts preferred (taken + comparison.references) rest

theorem comparisonTexts_append (scope : Scope) (preferred : Option String) (taken : Nat)
    (first second : List Clause) :
    scope.comparisonTexts preferred taken (first ++ second) =
      scope.comparisonTexts preferred taken first ++
        scope.comparisonTexts preferred (taken + (first.map Clause.references).sum) second := by
  induction first generalizing taken with
  | nil => simp [comparisonTexts]
  | cons comparison rest induction =>
      rw [List.cons_append, comparisonTexts, induction, comparisonTexts, List.cons_append,
        List.map_cons, List.sum_cons, Nat.add_assoc]

theorem length_comparisonTexts (scope : Scope) (preferred : Option String) (taken : Nat)
    (comparisons : List Clause) :
    (scope.comparisonTexts preferred taken comparisons).length = comparisons.length := by
  induction comparisons generalizing taken with
  | nil => rfl
  | cons comparison rest induction => simp [comparisonTexts, induction]

end Scope

/-! ## Reading compiled filters -/

section

variable {scope : Scope} {preferred : Option String}

private theorem compileAll_ne_nil {parts : List Filter} {predicates : List Predicate}
    (compiled : scope.compileAll preferred parts = .ok predicates) (parts_ne : parts ≠ []) :
    predicates ≠ [] := by
  obtain ⟨part, rest, rfl⟩ := List.exists_cons_of_ne_nil parts_ne
  obtain ⟨first, others, -, -, rfl⟩ := Scope.exists_of_compileAll_cons compiled
  exact List.cons_ne_nil first others

private theorem textsFrom_ne_nil {predicates : List Predicate} (taken : Nat)
    (predicates_ne : predicates ≠ []) : Predicate.textsFrom taken predicates ≠ [] := by
  obtain ⟨first, others, rfl⟩ := List.exists_cons_of_ne_nil predicates_ne
  exact List.cons_ne_nil _ _

mutual

/-- A compiled filter is read as the condition that stands for it. -/
theorem exists_reads_of_compile (catalogue : scope.catalogue = Mobility.catalogue)
    (operators : scope.operators = .standard) {filter : Filter}
    (fine : filter.WellFormed scope.operators.isName) {predicate : Predicate}
    (compiled : scope.compile preferred filter = .ok predicate) (taken : Nat) :
    predicate.values.length = (filter.clauses.map Clause.references).sum ∧
      ∃ inner formula, predicate.textFrom taken = "(" ++ inner ++ ")" ∧ Reads inner formula ∧
        (∀ next, (Formula.group formula).numberFrom next = filter.formula.numberFrom next) ∧
        formula.atoms.map some = scope.comparisonTexts preferred taken filter.clauses := by
  cases filter with
  | all parts =>
      obtain ⟨predicates, compiled_parts, rfl⟩ := map_eq_ok_iff.mp compiled
      obtain ⟨count, formulas, reads, shape, atoms⟩ :=
        exists_reads_of_compileAll catalogue operators fine.2 compiled_parts taken
      have texts_ne := textsFrom_ne_nil taken (compileAll_ne_nil compiled_parts fine.1)
      refine ⟨count, _, .joined .all formulas, rfl, reads_and reads texts_ne, ?_, ?_⟩
      · intro next
        simp only [formula, Formula.numberFrom, Formula.numberFrom_joined_all, shape]
      · rw [Formula.atoms_joined_all, atoms, clauses]
  | any parts =>
      obtain ⟨predicates, compiled_parts, rfl⟩ := map_eq_ok_iff.mp compiled
      obtain ⟨count, formulas, reads, shape, atoms⟩ :=
        exists_reads_of_compileAll catalogue operators fine.2 compiled_parts taken
      have texts_ne := textsFrom_ne_nil taken (compileAll_ne_nil compiled_parts fine.1)
      refine ⟨count, _, .joined .any formulas, rfl, reads_or reads texts_ne, ?_, ?_⟩
      · intro next
        simp only [formula, Formula.numberFrom, Formula.numberFrom_joined_any, shape]
      · rw [Formula.atoms_joined_any, atoms, clauses]
  | clause comparison =>
      obtain ⟨text, text_eq, written, reads, count⟩ :=
        readsSingle_of_compileClause catalogue operators fine compiled taken
      refine ⟨by simp [count, clauses], text, .atom text, written, reads.reads, fun next => rfl, ?_⟩
      rw [clauses, Scope.comparisonTexts, text_eq]
      rfl

theorem exists_reads_of_compileAll (catalogue : scope.catalogue = Mobility.catalogue)
    (operators : scope.operators = .standard) {parts : List Filter}
    (fine : AllWellFormed scope.operators.isName parts) {predicates : List Predicate}
    (compiled : scope.compileAll preferred parts = .ok predicates) (taken : Nat) :
    (Predicate.valuesOf predicates).length = ((clausesOf parts).map Clause.references).sum ∧
      ∃ formulas, List.Forall₂ ReadsSingle (Predicate.textsFrom taken predicates) formulas ∧
        (∀ next, Formula.numberAllFrom next formulas =
          Formula.numberAllFrom next (Filter.formulas parts)) ∧
        (Formula.atomsOf formulas).map some =
          scope.comparisonTexts preferred taken (clausesOf parts) := by
  cases parts with
  | nil =>
      obtain rfl := Except.ok.inj compiled
      exact ⟨rfl, [], .nil, fun next => rfl, rfl⟩
  | cons part rest =>
      obtain ⟨first, others, compiled_part, compiled_rest, rfl⟩ := Scope.exists_of_compileAll_cons compiled
      obtain ⟨count, inner, formula, written, reads, shape, atoms⟩ :=
        exists_reads_of_compile catalogue operators fine.1 compiled_part taken
      obtain ⟨count_rest, formulas, reads_rest, shape_rest, atoms_rest⟩ :=
        exists_reads_of_compileAll catalogue operators fine.2 compiled_rest
          (taken + first.values.length)
      have same_length : formula.atoms.length = part.formula.atoms.length := by
        have lengths := congrArg List.length atoms
        rw [List.length_map, Scope.length_comparisonTexts, ← atoms_formula part] at lengths
        exact lengths
      have first_reads : ReadsSingle (first.textFrom taken) (.group formula) :=
        written ▸ reads.group
      refine ⟨?_, .group formula :: formulas, .cons first_reads reads_rest, fun next => ?_, ?_⟩
      · rw [Predicate.valuesOf, List.length_append, count, count_rest, clausesOf, List.map_append,
          List.sum_append]
      · rw [Formula.numberAllFrom, shape, shape_rest, Formula.atoms, same_length]
        rfl
      · rw [Formula.atomsOf, List.map_append, Formula.atoms, atoms, atoms_rest, clausesOf,
          Scope.comparisonTexts_append, count]

end

end

/-- Reading the text of a compiled filter gives back the filter: its conjunctions and disjunctions,
and in their order its comparisons, each the template of its operator with the places filled. So the
text and the filter are true for the same values of the comparisons. -/
theorem read_sql_of_compile {scope : Scope} (catalogue : scope.catalogue = Mobility.catalogue)
    (operators : scope.operators = .standard) {text : String} {filter : Filter}
    (parsed : parse scope.operators.isName text = .ok (some filter)) {preferred : Option String}
    {predicate : Predicate} (compiled : scope.compile preferred filter = .ok predicate) :
    ∃ formula, Sql.read predicate.sql = some formula ∧
      formula.numbered = filter.formula.numbered ∧
      formula.atoms.map some = scope.comparisonTexts preferred 0 filter.clauses ∧
      ∀ truth : Nat → Bool, formula.numbered.holds truth = filter.holdsFrom truth 0 := by
  obtain ⟨_, inner, formula, written, reads, shape, atoms⟩ :=
    exists_reads_of_compile catalogue operators (wellFormed_of_parse parsed) compiled 0
  have numbered : (Formula.group formula).numbered = filter.formula.numbered := shape 0
  have group_reads : Reads predicate.sql (.group formula) := by
    rw [Predicate.sql, written]
    exact reads.group.reads
  refine ⟨.group formula, group_reads.read_eq, numbered, atoms, fun truth => ?_⟩
  rw [numbered]
  exact holds_formula truth 0 filter

/-- A disjunction of a comparison and a conjunction of one comparison: the conjunction shows as a
pair of parentheses. -/
theorem read_sql_of_compile_nested :
    let scope : Scope := ⟨Mobility.catalogue, .standard, ["parent", "station"]⟩
    let filter : Filter :=
      .any [.clause ⟨"sname", [], "eq", .scalar (.text "a"), 3⟩,
        .all [.clause ⟨"smetadata", ["x"], "neq", .scalar .null, 20⟩]]
    parse scope.operators.isName "or(sname.eq.'a',and(smetadata.x.neq.null))" = .ok (some filter) ∧
      ∃ predicate, scope.compile none filter = .ok predicate ∧
        ∃ formula, Sql.read predicate.sql = some formula ∧
          formula.numbered = .group (.any [.group (.atom 0), .group (.group (.atom 1))]) := by
  intro scope filter
  have parsed : parse scope.operators.isName "or(sname.eq.'a',and(smetadata.x.neq.null))" =
      .ok (some filter) := by cbv
  have succeeds : (scope.compile none filter).isOk = true := by decide +kernel
  obtain ⟨predicate, compiled⟩ := exists_of_isOk succeeds
  obtain ⟨formula, reads, shape, _⟩ := read_sql_of_compile rfl rfl parsed compiled
  exact ⟨parsed, predicate, compiled, formula, reads, shape⟩

end StationGateway
