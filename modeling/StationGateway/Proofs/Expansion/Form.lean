import StationGateway.Proofs.Expansion.Comparison
import StationGateway.Proofs.Order.Gather
import StationGateway.Statement.Draft

/-!
# The form of a predicate

A filter decides on everything in the text of its predicate but the columns: the words between
comparisons, the templates, the paths and the numbers of the values. Reading an attribute from another
list puts other columns in the same places, while the values and their names stay as they are. So
selections that share a filter can share its values. -/

namespace StationGateway

open Text StationGateway.Filter Outcome

/-- A place in the text of a predicate. -/
inductive Slot where
  /-- Text that stands there in any case. -/
  | text (text : String)
  /-- The column of an attribute. -/
  | column (key : String)
  /-- A path into the value of a column. -/
  | path (path : String)
  /-- The word `null` for an operand. -/
  | null
  /-- A reference to a value by its number. -/
  | reference (number : Nat)
  deriving DecidableEq, Repr

namespace Slot

variable {columns : String → Option String}

/-- The text in a place, for some choice of columns. -/
def text? (columns : String → Option String) : Slot → Option String
  | .text kept => some kept
  | .column key => columns key
  | .path inside => some inside
  | .null => some "null"
  | .reference number => some (":" ++ Predicate.valueName number)

/-- The text of places in a row. There is none if a column is missing. -/
def render? (columns : String → Option String) : List Slot → Option String
  | [] => some ""
  | slot :: rest => do
      let first ← slot.text? columns
      let others ← render? columns rest
      some (first ++ others)

theorem render?_cons {slot : Slot} {rest : List Slot} {first others : String}
    (slot_text : slot.text? columns = some first) (rest_text : render? columns rest = some others) :
    render? columns (slot :: rest) = some (first ++ others) := by
  rw [render?, slot_text, rest_text]
  rfl

theorem render?_append {slots more : List Slot} {before after : String}
    (slots_text : render? columns slots = some before)
    (more_text : render? columns more = some after) :
    render? columns (slots ++ more) = some (before ++ after) := by
  induction slots generalizing before with
  | nil =>
      obtain rfl := Option.some.inj slots_text
      rw [List.nil_append, more_text, String.empty_append]
  | cons slot rest induction =>
      simp only [render?, Option.bind_eq_bind, Option.bind_eq_some_iff] at slots_text
      obtain ⟨first, first_eq, others, others_eq, done⟩ := slots_text
      obtain rfl := Option.some.inj done
      rw [String.append_assoc]
      exact render?_cons first_eq (induction others_eq)

/-- Groups of places with a word between them. -/
theorem render?_intercalate (word : String) {groups : List (List Slot)} {texts : List String}
    (each : List.Forall₂ (fun group text => render? columns group = some text) groups texts) :
    render? columns ([text word].intercalate groups) = some (join word texts) := by
  induction each with
  | nil => rfl
  | @cons group first groups texts group_text others induction =>
      cases others with
      | nil => rwa [List.intercalate_singleton, join]
      | @cons next second groups texts _ _ =>
          rw [List.intercalate_cons_cons, join]
          exact render?_append (render?_append group_text (by simp [render?, text?])) induction

end Slot

/-! ## Forms -/

/-- The places of a template, when `taken` values have been numbered. -/
def Filter.Clause.slots (clause : Clause) (taken : Nat) : List TemplatePart → List Slot
  | [] => []
  | .text text :: rest => .text text :: clause.slots taken rest
  | .column :: rest => .column clause.key :: clause.slots taken rest
  | .path :: rest => .path clause.pathText :: clause.slots taken rest
  | .value _ :: rest =>
      if clause.isNull then .null :: clause.slots taken rest
      else .reference taken :: clause.slots (taken + 1) rest

namespace Scope

/-- The parts of the template for a comparison. -/
def partsOf (scope : Scope) (clause : Clause) : List TemplatePart :=
  ((scope.operatorOf clause).toOption.map fun operator => parseTemplate operator.template).getD []

/-- The values that a comparison refers to: what its template takes of the operand. -/
def valuesOf (scope : Scope) (clause : Clause) : List SqlValue :=
  if clause.isNull then [] else (slices (scope.partsOf clause)).map (operandValue clause.operand)

mutual

/-- The places in the text of a filter's predicate, when `taken` values have been numbered. -/
def form (scope : Scope) (taken : Nat) : Filter → List Slot
  | .all parts => .text "(" :: [.text " and "].intercalate (scope.forms taken parts) ++ [.text ")"]
  | .any parts => .text "(" :: [.text " or "].intercalate (scope.forms taken parts) ++ [.text ")"]
  | .clause comparison =>
      .text "(" :: comparison.slots taken (scope.partsOf comparison) ++ [.text ")"]

/-- The places in the texts of several predicates. -/
def forms (scope : Scope) (taken : Nat) : List Filter → List (List Slot)
  | [] => []
  | part :: rest =>
      scope.form taken part :: scope.forms (taken + (part.clauses.flatMap scope.valuesOf).length) rest

end

end Scope

section

variable {scope : Scope} {preferred : Option String}

theorem render?_group {columns : String → Option String} {slots : List Slot} {text : String}
    (slots_text : Slot.render? columns slots = some text) :
    Slot.render? columns (.text "(" :: slots ++ [.text ")"]) = some ("(" ++ text ++ ")") :=
  Slot.render?_append (Slot.render?_cons rfl slots_text) rfl

theorem render?_slots (clause : Clause) {columns : String → Option String} {column : String}
    (found : columns clause.key = some column) (taken : Nat) (parts : List TemplatePart) :
    Slot.render? columns (clause.slots taken parts) =
      some (String.join (Predicate.pieceTexts taken (parts.map (fillPart column clause)))) := by
  induction parts generalizing taken with
  | nil => rfl
  | cons part parts induction =>
      cases part with
      | text kept =>
          rw [Clause.slots, List.map_cons, fillPart, Predicate.pieceTexts, String.join_cons]
          exact Slot.render?_cons rfl (induction taken)
      | column =>
          rw [Clause.slots, List.map_cons, fillPart, Predicate.pieceTexts, String.join_cons]
          exact Slot.render?_cons found (induction taken)
      | path =>
          rw [Clause.slots, List.map_cons, fillPart, Predicate.pieceTexts, String.join_cons]
          exact Slot.render?_cons rfl (induction taken)
      | value slice =>
          rw [Clause.slots, List.map_cons, fillPart, Predicate.pieceTexts, isNull_operandValue]
          split_ifs with null
          · rw [String.join_cons]
            exact Slot.render?_cons rfl (induction taken)
          · rw [String.join_cons]
            exact Slot.render?_cons rfl (induction (taken + 1))

namespace Scope

theorem compileClause_form {clause : Clause} {predicate : Predicate}
    (compiled : scope.compileClause preferred clause = .ok predicate) :
    predicate.values = scope.valuesOf clause ∧ ∀ taken,
      Slot.render? (scope.columnOf? preferred) (scope.form taken (.clause clause)) =
        some (predicate.textFrom taken) := by
  obtain ⟨column, operator, found, applies, rfl⟩ := compileClause_eq_ok_iff.mp compiled
  have parts_eq : scope.partsOf clause = parseTemplate operator.template := by
    rw [partsOf, applies]
    rfl
  refine ⟨?_, fun taken => ?_⟩
  · rw [Predicate.values, pieceValues_fillPart, valuesOf, parts_eq]
  · rw [form, parts_eq, Predicate.textFrom]
    exact render?_group (render?_slots clause found taken _)

mutual

/-- A predicate has the values of its filter, and its text is the form of the filter with the columns
filled in. -/
theorem compile_form {filter : Filter} {predicate : Predicate}
    (compiled : scope.compile preferred filter = .ok predicate) :
    predicate.values = filter.clauses.flatMap scope.valuesOf ∧ ∀ taken,
      Slot.render? (scope.columnOf? preferred) (scope.form taken filter) =
        some (predicate.textFrom taken) := by
  cases filter with
  | all parts =>
      obtain ⟨predicates, compiled_parts, rfl⟩ := map_eq_ok_iff.mp compiled
      obtain ⟨values_eq, texts⟩ := compileAll_form compiled_parts
      exact ⟨values_eq, fun taken => render?_group (Slot.render?_intercalate " and " (texts taken))⟩
  | any parts =>
      obtain ⟨predicates, compiled_parts, rfl⟩ := map_eq_ok_iff.mp compiled
      obtain ⟨values_eq, texts⟩ := compileAll_form compiled_parts
      exact ⟨values_eq, fun taken => render?_group (Slot.render?_intercalate " or " (texts taken))⟩
  | clause comparison =>
      obtain ⟨values_eq, text⟩ := compileClause_form compiled
      exact ⟨values_eq.trans (List.flatMap_singleton ..).symm, text⟩

theorem compileAll_form {parts : List Filter} {predicates : List Predicate}
    (compiled : scope.compileAll preferred parts = .ok predicates) :
    Predicate.valuesOf predicates = (Filter.clausesOf parts).flatMap scope.valuesOf ∧ ∀ taken,
      List.Forall₂ (fun slots text => Slot.render? (scope.columnOf? preferred) slots = some text)
        (scope.forms taken parts) (Predicate.textsFrom taken predicates) := by
  cases parts with
  | nil =>
      obtain rfl := Except.ok.inj compiled
      exact ⟨rfl, fun _ => .nil⟩
  | cons part rest =>
      obtain ⟨first, others, compiled_part, compiled_rest, rfl⟩ := Scope.exists_of_compileAll_cons compiled
      obtain ⟨values_eq, text⟩ := compile_form compiled_part
      obtain ⟨others_eq, texts⟩ := compileAll_form compiled_rest
      refine ⟨?_, fun taken => ?_⟩
      · rw [Predicate.valuesOf, values_eq, others_eq, Filter.clausesOf, List.flatMap_append]
      · rw [forms, Predicate.textsFrom, values_eq]
        exact .cons (text taken) (texts _)

end

/-- The values of a predicate are named by the filter alone. -/
theorem params_of_compile {filter : Filter} {predicate : Predicate}
    (compiled : scope.compile preferred filter = .ok predicate) :
    predicate.params = Order.mapOfList
      ((filter.clauses.flatMap scope.valuesOf).zipIdx.map fun (value, number) =>
        (Predicate.valueName number, value)) := by
  rw [Predicate.params, (compile_form compiled).1]

theorem params_addPredicate (draft : Statement.Draft) (predicate : Predicate) :
    (draft.addPredicate (some predicate)).params = Order.putAll draft.params predicate.params := by
  have kept : ∀ piece, (draft.add piece).params = draft.params := fun piece => by
    simp only [Statement.Draft.add]
    split_ifs <;> rfl
  rw [Statement.Draft.addPredicate, kept]

/-- Predicates of one filter that read attributes from different lists have the same values by name,
and one form with different columns. Whatever else a draft refers to, the values of the second
predicate are there already when those of the first one are. -/
theorem compile_same_values_and_form {filter : Filter} {first second : Option String}
    {predicate other : Predicate} (compiled : scope.compile first filter = .ok predicate)
    (compiled_other : scope.compile second filter = .ok other) :
    predicate.params = other.params ∧
      Slot.render? (scope.columnOf? first) (scope.form 0 filter) = some predicate.sql ∧
      Slot.render? (scope.columnOf? second) (scope.form 0 filter) = some other.sql ∧
      (∀ draft : Statement.Draft, ∀ entry ∈ predicate.params,
        Order.find? entry.1 (draft.addPredicate (some predicate)).params = some entry.2) ∧
      ∀ draft : Statement.Draft, Order.Ascending draft.params →
        (∀ entry ∈ predicate.params, Order.find? entry.1 draft.params = some entry.2) →
          (draft.addPredicate (some other)).params = draft.params := by
  have same : predicate.params = other.params :=
    (params_of_compile compiled).trans (params_of_compile compiled_other).symm
  refine ⟨same, (compile_form compiled).2 0, (compile_form compiled_other).2 0,
    fun draft entry member => ?_, fun draft ascending present => ?_⟩
  · have nodup : (predicate.params.map (·.1)).Nodup :=
      Order.nodup_keys (Order.ascending_mapOfList _)
    rw [params_addPredicate, Order.find?_putAll nodup, Order.find?_eq_some_of_mem nodup member,
      Option.some_or]
  · rw [params_addPredicate, ← same]
    exact Order.putAll_of_find? ascending present

/-- A value is measured as a number or as text, and is read from either list. -/
theorem compile_same_values_and_form_of_measured_value :
    let scope : Scope := ⟨Mobility.catalogue, .standard,
      ["measurement", "measurementdouble", "measurementstring", "station"]⟩
    let filter : Filter :=
      .any [.clause ⟨"mvalue", [], "eq", .scalar .null, 3⟩,
        .all [.clause ⟨"mvalue", [], "in", .list [.text "a", .null], 18⟩,
          .clause ⟨"sactive", [], "eq", .scalar (.boolean true), 34⟩]]
    ∃ predicate other, scope.compile (some "measurementdouble") filter = .ok predicate ∧
      scope.compile (some "measurementstring") filter = .ok other ∧
      predicate.params = other.params ∧ predicate.sql ≠ other.sql := by
  intro scope filter
  have succeeds : (scope.compile (some "measurementdouble") filter).isOk = true := by decide +kernel
  have succeeds_other : (scope.compile (some "measurementstring") filter).isOk = true := by
    decide +kernel
  obtain ⟨predicate, compiled⟩ := exists_of_isOk succeeds
  obtain ⟨other, compiled_other⟩ := exists_of_isOk succeeds_other
  obtain ⟨same, text, text_other, -⟩ := compile_same_values_and_form compiled compiled_other
  refine ⟨predicate, other, compiled, compiled_other, same, fun same_text => ?_⟩
  rw [same_text, ← text_other] at text
  exact absurd text (by decide +kernel)

end Scope

end

end StationGateway
