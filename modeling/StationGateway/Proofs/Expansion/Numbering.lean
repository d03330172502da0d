import StationGateway.Proofs.Expansion.Form
import StationGateway.Proofs.Expansion.References
import StationGateway.Proofs.Order.Numbered

/-!
# Numbers of values

The comparisons of a filter refer to their operands in the order of the text, each of them once. An
operand that is the word `null` stands in the text itself and takes no number, so a value has the
number of those before it. -/

namespace StationGateway

open Text StationGateway.Filter Outcome Statement

/-- The value that a comparison refers to, none if its operand is the word `null`. -/
def Filter.Clause.given? (clause : Clause) : Option SqlValue :=
  if clause.isNull then none else some (operandValue clause.operand none)

/-- The values that a filter refers to, in the order of the text. -/
def Filter.given (filter : Filter) : List SqlValue :=
  filter.clauses.filterMap Clause.given?

namespace Slot

/-- The operand in a place: the number of a value, or none for the word `null`. -/
def operand? : Slot → Option (Option Nat)
  | .null => some none
  | .reference number => some (some number)
  | _ => none

/-- The number of the value that a place refers to. -/
def number? (slot : Slot) : Option Nat :=
  slot.operand?.join

theorem filterMap_number? (slots : List Slot) :
    slots.filterMap number? = (slots.filterMap operand?).reduceOption := by
  rw [List.reduceOption, List.filterMap_filterMap]
  rfl

theorem operands_intercalate (word : String) (groups : List (List Slot)) :
    ([text word].intercalate groups).filterMap operand? =
      groups.flatMap fun group => group.filterMap operand? := by
  induction groups with
  | nil => rfl
  | cons group rest induction =>
      cases rest with
      | nil => rw [List.intercalate_singleton, List.flatMap_singleton]
      | cons next others =>
          rw [List.intercalate_cons_cons, List.filterMap_append, List.filterMap_append, induction,
            List.flatMap_cons]
          simp [operand?]

end Slot

namespace Predicate

/-- The names of values differ. -/
theorem valueName_injective : Function.Injective valueName := fun _ _ same =>
  Nat.repr_inj.mp ((String.append_right_inj "pwhere_").mp same)

/-- The values of a predicate by name. -/
theorem find?_params (predicate : Predicate) (name : String) (value : SqlValue) :
    Order.find? name predicate.params = some value ↔
      ∃ number, name = valueName number ∧ predicate.values[number]? = some value := by
  let entries := predicate.values.zipIdx.map fun entry => (valueName entry.2, entry.1)
  have params_eq : predicate.params = Order.mapOfList entries := rfl
  have names_eq : entries.map (·.1) = (List.range' 0 predicate.values.length).map valueName := by
    rw [← List.zipIdx_map_snd, List.map_map, List.map_map]
    rfl
  have nodup : (entries.map (·.1)).Nodup :=
    names_eq ▸ List.Nodup.map valueName_injective List.nodup_range'
  rw [params_eq, Order.find?_mapOfList nodup]
  constructor
  · intro found
    obtain ⟨⟨_, number⟩, member, same⟩ := List.mem_map.mp (Order.mem_of_find? found)
    obtain ⟨rfl, rfl⟩ := Prod.mk.inj same
    exact ⟨number, rfl, List.mk_mem_zipIdx_iff_getElem?.mp member⟩
  · rintro ⟨number, rfl, at_number⟩
    refine Order.find?_eq_some_of_mem nodup (List.mem_map.mpr ⟨(value, number), ?_, rfl⟩)
    exact List.mk_mem_zipIdx_iff_getElem?.mpr at_number

end Predicate

/-! ## Operands of forms -/

section

variable {scope : Scope}

/-- A comparison that takes its operand as a whole refers to that. -/
theorem values_of_whole {clauses : List Clause}
    (whole : ∀ clause ∈ clauses, slices (scope.partsOf clause) = [none]) :
    clauses.flatMap scope.valuesOf = (clauses.map Clause.given?).reduceOption := by
  induction clauses with
  | nil => rfl
  | cons clause rest induction =>
      obtain ⟨of_clause, of_rest⟩ := List.forall_mem_cons.mp whole
      rw [List.flatMap_cons, induction of_rest, Scope.valuesOf, of_clause,
        List.map_singleton, List.map_cons]
      cases null : clause.isNull with
      | true =>
          have no_value : clause.given? = none := if_pos null
          rw [no_value, List.reduceOption_cons_of_none]
          rfl
      | false =>
          have value : clause.given? = some (operandValue clause.operand none) :=
            if_neg (null ▸ Bool.false_ne_true)
          rw [value, List.reduceOption_cons_of_some]
          rfl

theorem operands_slots (clause : Clause) (taken : Nat) (parts : List TemplatePart) :
    (clause.slots taken parts).filterMap Slot.operand? =
      Order.numberFrom taken ((slices parts).map fun slice =>
        if clause.isNull then none else some (operandValue clause.operand slice)) := by
  induction parts generalizing taken with
  | nil => rfl
  | cons part parts induction =>
      cases part with
      | text kept =>
          rw [Clause.slots, slices_text]
          exact induction taken
      | column => exact induction taken
      | path => exact induction taken
      | value slice =>
          rw [Clause.slots, slices_value, List.map_cons]
          cases null : clause.isNull with
          | true =>
              have rest := induction taken
              rw [null] at rest
              rw [if_pos rfl, if_pos rfl, Order.numberFrom, ← rest]
              rfl
          | false =>
              have rest := induction (taken + 1)
              rw [null] at rest
              rw [if_neg Bool.false_ne_true, if_neg Bool.false_ne_true, Order.numberFrom, ← rest]
              rfl

mutual

/-- A filter whose comparisons take their operands as a whole has one place for each of them. -/
theorem operands_form {filter : Filter}
    (whole : ∀ clause ∈ filter.clauses, slices (scope.partsOf clause) = [none]) (taken : Nat) :
    (scope.form taken filter).filterMap Slot.operand? =
      Order.numberFrom taken (filter.clauses.map Clause.given?) := by
  cases filter with
  | all parts =>
      rw [Scope.form, List.filterMap_append, List.filterMap_cons, Slot.operands_intercalate,
        operands_forms whole]
      simp [Slot.operand?, clauses]
  | any parts =>
      rw [Scope.form, List.filterMap_append, List.filterMap_cons, Slot.operands_intercalate,
        operands_forms whole]
      simp [Slot.operand?, clauses]
  | clause comparison =>
      rw [Scope.form, List.filterMap_append, List.filterMap_cons, operands_slots,
        whole comparison (List.mem_singleton_self comparison)]
      simp [Slot.operand?, clauses, Clause.given?]

theorem operands_forms {parts : List Filter}
    (whole : ∀ clause ∈ Filter.clausesOf parts, slices (scope.partsOf clause) = [none]) (taken : Nat) :
    ((scope.forms taken parts).flatMap fun group => group.filterMap Slot.operand?) =
      Order.numberFrom taken ((Filter.clausesOf parts).map Clause.given?) := by
  cases parts with
  | nil => rfl
  | cons part rest =>
      obtain ⟨of_part, of_rest⟩ := List.forall_mem_append.mp whole
      rw [Scope.forms, List.flatMap_cons, operands_form of_part, operands_forms of_rest, Filter.clausesOf,
        List.map_append, Order.numberFrom_append, values_of_whole of_part]

end

/-! ## Compiled filters -/

variable {preferred : Option String}

mutual

/-- Every comparison of a compiled filter takes its operand as a whole. -/
theorem whole_of_compile (operators : scope.operators = .standard) {filter : Filter}
    {predicate : Predicate} (compiled : scope.compile preferred filter = .ok predicate) :
    ∀ clause ∈ filter.clauses, slices (scope.partsOf clause) = [none] := by
  cases filter with
  | all parts =>
      obtain ⟨predicates, compiled_parts, -⟩ := map_eq_ok_iff.mp compiled
      exact whole_of_compileAll operators compiled_parts
  | any parts =>
      obtain ⟨predicates, compiled_parts, -⟩ := map_eq_ok_iff.mp compiled
      exact whole_of_compileAll operators compiled_parts
  | clause comparison =>
      obtain ⟨_, operator, -, applies, template, -⟩ :=
        exists_filled_of_compileClause operators compiled 0
      intro clause member
      obtain rfl := List.mem_singleton.mp member
      rw [Scope.partsOf, applies]
      exact slices_of_isComparison template

theorem whole_of_compileAll (operators : scope.operators = .standard) {parts : List Filter}
    {predicates : List Predicate} (compiled : scope.compileAll preferred parts = .ok predicates) :
    ∀ clause ∈ Filter.clausesOf parts, slices (scope.partsOf clause) = [none] := by
  cases parts with
  | nil => exact fun _ member => absurd member List.not_mem_nil
  | cons part rest =>
      obtain ⟨first, others, compiled_part, compiled_rest, -⟩ := Scope.exists_of_compileAll_cons compiled
      exact List.forall_mem_append.mpr
        ⟨whole_of_compile operators compiled_part, whole_of_compileAll operators compiled_rest⟩

end

/-- The operands of a compiled filter are numbered in the order of the text, the word `null` left out,
and their numbers name their values. As statements are bound, the text refers to these names in order,
if no column refers to anything. -/
theorem compile_numbers_operands (operators : scope.operators = .standard) {filter : Filter}
    {predicate : Predicate} (compiled : scope.compile preferred filter = .ok predicate) :
    Slot.render? (scope.columnOf? preferred) (scope.form 0 filter) = some predicate.sql ∧
      (scope.form 0 filter).filterMap Slot.operand? =
        Order.numberFrom 0 (filter.clauses.map Clause.given?) ∧
      (scope.form 0 filter).filterMap Slot.number? = List.range filter.given.length ∧
      (∀ name value, Order.find? name predicate.params = some value ↔
        ∃ number, name = Predicate.valueName number ∧ filter.given[number]? = some value) ∧
      ∀ text, parse scope.operators.isName text = .ok (some filter) →
        (∀ key column, scope.columnOf? preferred key = some column → Silent column) →
          references predicate.sql = (List.range filter.given.length).map Predicate.valueName := by
  have whole := whole_of_compile operators compiled
  have given_eq : (filter.clauses.map Clause.given?).reduceOption = filter.given := by
    rw [List.reduceOption, List.filterMap_map]
    rfl
  have values_eq : predicate.values = filter.given :=
    (Scope.compile_form compiled).1.trans ((values_of_whole whole).trans given_eq)
  have operands_eq := operands_form whole 0
  refine ⟨(Scope.compile_form compiled).2 0, operands_eq, ?_, fun name value => ?_,
    fun text parsed silent => ?_⟩
  · rw [Slot.filterMap_number?, operands_eq, Order.reduceOption_numberFrom, given_eq,
      List.range_eq_range']
  · rw [Predicate.find?_params, values_eq]
  · obtain ⟨-, same⟩ :=
      references_of_compile silent operators (wellFormed_of_parse parsed) compiled 0
    rw [Predicate.sql, same, values_eq, List.range_eq_range']

theorem compile_numbers_operands_after_null :
    let scope : Scope := ⟨Mobility.catalogue, .standard, ["parent", "station"]⟩
    let filter : Filter :=
      .any [.clause ⟨"sname", [], "eq", .scalar .null, 3⟩,
        .all [.clause ⟨"scode", [], "in", .list [.text "a", .null], 21⟩,
          .clause ⟨"sname", [], "neq", .scalar (.text "b"), 41⟩]]
    parse scope.operators.isName "or(sname.eq.null,and(scode.in.('a',null),sname.neq.'b'))" =
        .ok (some filter) ∧
      ∃ predicate, scope.compile none filter = .ok predicate ∧
        references predicate.sql = ["pwhere_0", "pwhere_1"] ∧
        Order.find? "pwhere_0" predicate.params = some (.list [.text "a", .null]) := by
  intro scope filter
  have parsed : parse scope.operators.isName
      "or(sname.eq.null,and(scode.in.('a',null),sname.neq.'b'))" = .ok (some filter) := by cbv
  have succeeds : (scope.compile none filter).isOk = true := by decide +kernel
  obtain ⟨predicate, compiled⟩ := exists_of_isOk succeeds
  obtain ⟨-, -, -, values, refers⟩ := compile_numbers_operands rfl compiled
  refine ⟨parsed, predicate, compiled, ?_, (values _ _).mpr ⟨0, rfl, rfl⟩⟩
  rw [refers _ parsed fun _ _ => silent_of_columnOf? rfl]
  decide

end

end StationGateway
