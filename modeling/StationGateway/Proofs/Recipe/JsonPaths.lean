import Mathlib
import StationGateway.Proofs.Recipe.Needs

/-!
# Comparisons inside measured values

Only JSON values have places inside. So a filter that compares such a place, and the measured value
nowhere else, can only fit rows of the table of JSON values, and measurements are read from there. The
tables are chosen by the type of the operand first, though: truth values and lists of several types
are refused, which the operators for places inside values take.
-/

namespace StationGateway

open StationGateway.Filter Outcome

namespace Scope

variable {scope : Scope} {preferred : Option String}

/-! ## Filters that compile -/

/-- Whether the attribute of a comparison has a column, and its operator applies. -/
def Compiles (scope : Scope) (preferred : Option String) (clause : Clause) : Prop :=
  (∃ column, scope.columnOf? preferred clause.key = some column) ∧
    ∃ operator, scope.operatorOf clause = .ok operator

theorem compiles_iff {clause : Clause} :
    scope.Compiles preferred clause ↔
      ∃ predicate, scope.compileClause preferred clause = .ok predicate := by
  constructor
  · rintro ⟨⟨column, found⟩, operator, applies⟩
    exact ⟨_, compileClause_eq_ok_iff.mpr ⟨column, operator, found, applies, rfl⟩⟩
  · rintro ⟨predicate, compiled⟩
    obtain ⟨column, operator, found, applies, -⟩ := compileClause_eq_ok_iff.mp compiled
    exact ⟨⟨column, found⟩, operator, applies⟩

mutual

/-- A filter compiles exactly if all its comparisons do. -/
theorem forall_compiles_iff {filter : Filter} :
    (∀ clause ∈ filter.clauses, scope.Compiles preferred clause) ↔
      ∃ predicate, scope.compile preferred filter = .ok predicate := by
  cases filter with
  | all parts =>
      rw [clauses, forall_compiles_clausesOf_iff]
      exact ⟨fun ⟨predicates, compiled⟩ => ⟨_, map_eq_ok_iff.mpr ⟨predicates, compiled, rfl⟩⟩,
        fun ⟨_, compiled⟩ => (map_eq_ok_iff.mp compiled).imp fun _ made => made.1⟩
  | any parts =>
      rw [clauses, forall_compiles_clausesOf_iff]
      exact ⟨fun ⟨predicates, compiled⟩ => ⟨_, map_eq_ok_iff.mpr ⟨predicates, compiled, rfl⟩⟩,
        fun ⟨_, compiled⟩ => (map_eq_ok_iff.mp compiled).imp fun _ made => made.1⟩
  | clause comparison => rw [clauses, List.forall_mem_singleton, compiles_iff, compile]

theorem forall_compiles_clausesOf_iff {parts : List Filter} :
    (∀ clause ∈ Filter.clausesOf parts, scope.Compiles preferred clause) ↔
      ∃ predicates, scope.compileAll preferred parts = .ok predicates := by
  cases parts with
  | nil => simp [Filter.clausesOf, compileAll]
  | cons part rest =>
      rw [Filter.clausesOf, List.forall_mem_append, forall_compiles_iff,
        forall_compiles_clausesOf_iff]
      constructor
      · rintro ⟨⟨first, first_eq⟩, others, others_eq⟩
        exact ⟨_, bind_eq_ok_iff.mpr ⟨first, first_eq, bind_eq_ok_iff.mpr ⟨others, others_eq, rfl⟩⟩⟩
      · rintro ⟨predicates, compiled⟩
        obtain ⟨first, first_eq, more⟩ := bind_eq_ok_iff.mp compiled
        obtain ⟨others, others_eq, -⟩ := bind_eq_ok_iff.mp more
        exact ⟨⟨first, first_eq⟩, others, others_eq⟩

end

/-- Without a preferred list, the first one is chosen. -/
theorem chooseList_none (lists : List TargetList) : chooseList none lists = lists.head? := by
  have passed : (lists.find? fun list => (none : Option String) = some list.name) = none :=
    List.find?_eq_none.mpr (by simp)
  rw [chooseList, passed]

/-- The list that is preferred is chosen, or the one that is chosen anyway. -/
theorem chooseList_some (name : String) (lists : List TargetList) :
    (∃ list ∈ lists, list.name = name ∧ chooseList (some name) lists = some list) ∨
      chooseList (some name) lists = chooseList none lists := by
  rw [chooseList_none, chooseList]
  cases found : lists.find? fun list => some name = some list.name with
  | none => exact .inr rfl
  | some list =>
      have same : name = list.name := by simpa using List.find?_some found
      exact .inl ⟨list, List.mem_of_find?_eq_some found, same.symm, rfl⟩

end Scope

namespace Recipe

/-! ## Comparisons in the selection from a table -/

private theorem isSome_column?_checked : ∀ list ∈ Mobility.lists, ∀ values ∈ ValueTable.all,
    list.name = values.list → ∀ field ∈ list.attributes, field.column?.isSome = true := by
  decide +kernel

section

variable {options : Options} {expansion : Expansion}

/-- What is compared has a column in the selection from every table. -/
theorem exists_columnOf?_list {scope : Scope} (catalogue : scope.catalogue = Mobility.catalogue)
    {key column : String} (found : scope.columnOf? none key = some column) (values : ValueTable) :
    ∃ column, scope.columnOf? (some values.list) key = some column := by
  simp only [Scope.columnOf?, Option.bind_eq_bind, Option.bind_eq_some_iff] at found
  obtain ⟨lists, resolved, list, chosen, field, field_found, column_eq⟩ := found
  rcases Scope.chooseList_some values.list lists with
    ⟨other, other_in, name_eq, other_chosen⟩ | same
  · have defines := other_in
    rw [Scope.eq_definersAmong_of_resolve (toOption_eq_some_iff.mp resolved),
      Scope.definersAmong_eq] at defines
    obtain ⟨in_scope, defined⟩ := List.mem_filter.mp defines
    have in_catalogue : other ∈ scope.catalogue.lists := List.mem_of_mem_filter in_scope
    rw [catalogue] at in_catalogue
    obtain ⟨own, own_found⟩ := Option.isSome_iff_exists.mp defined
    have known : values ∈ ValueTable.all := by cases values <;> decide
    obtain ⟨own_column, own_eq⟩ := Option.isSome_iff_exists.mp <|
      isSome_column?_checked other in_catalogue values known name_eq own
        (List.mem_of_find?_eq_some own_found)
    refine ⟨own_column, ?_⟩
    simp only [Scope.columnOf?, resolved, other_chosen, own_found, own_eq, Option.bind_eq_bind,
      Option.bind_some]
  · refine ⟨column, ?_⟩
    simp only [Scope.columnOf?, resolved, same, chosen, field_found, column_eq, Option.bind_eq_bind,
      Option.bind_some]

/-- The comparisons of an expansion compile: their attributes have columns, and their operators apply.
-/
theorem compiles_of_expand {lists : List String}
    (expanded : Resources.bundled.expand options lists = .ok expansion) :
    ∀ clause ∈ Scope.clausesOf expansion.filter, expansion.scope.Compiles none clause := by
  have expands := Scope.expands_of_expand expanded
  have predicate := expands.predicate
  rw [← expands.within] at predicate
  cases filter_eq : expansion.filter with
  | none => exact fun clause member => absurd member List.not_mem_nil
  | some filter =>
      rw [filter_eq] at predicate
      obtain ⟨compiled, compiled_eq, -⟩ := map_eq_ok_iff.mp predicate
      exact Scope.forall_compiles_iff.mpr ⟨compiled, compiled_eq⟩

/-- The filter of an expansion has a predicate for the selection from every table. -/
theorem exists_predicateFor_list {lists : List String}
    (expanded : Resources.bundled.expand options lists = .ok expansion) (values : ValueTable) :
    ∃ predicate, expansion.predicateFor values.list = .ok predicate := by
  have catalogue : expansion.scope.catalogue = Mobility.catalogue := by
    rw [(Scope.expands_of_expand expanded).within]
    rfl
  have compiles := compiles_of_expand expanded
  rw [expansion.predicateFor_eq]
  cases filter_eq : expansion.filter with
  | none => exact ⟨none, rfl⟩
  | some filter =>
      rw [filter_eq] at compiles
      obtain ⟨predicate, predicate_eq⟩ := Scope.forall_compiles_iff.mp fun clause member =>
        (compiles clause member).imp_left fun ⟨column, found⟩ =>
          exists_columnOf?_list catalogue found values
      exact ⟨some predicate, map_eq_ok_iff.mpr ⟨predicate, predicate_eq, rfl⟩⟩

end

/-! ## Requests for measurements -/

/-- The tables of measured values, of the latest ones and of all. -/
def ValueTable.tables : List String :=
  ValueTable.all.flatMap fun values => [values.table false, values.table true]

/-- The tables of measured values that a selection reads. -/
def Branch.valueTables (branch : Branch) : List String :=
  (branch.source.table :: branch.joins.map fun join => join.source.table).filter
    (· ∈ ValueTable.tables)

section

variable {options : Options} {rules : Access.RuleFiles} {types datatypes : String}
  {window : Option Window} {expansion : Expansion} {access : List Condition}

/-- A selection of measurements reads one table of measured values. -/
theorem valueTables_measurementBranch (options : Options) (types datatypes : Option (List String))
    (window : Option Window) (expansion : Expansion) (access : List Condition)
    (values : ValueTable) (predicate : Option Predicate) :
    (measurementBranch options types datatypes window expansion access values predicate).valueTables =
      [values.table window.isSome] := by
  have joined_checked : ∀ needed ∈ datatypeTables ++ [provenanceTable],
      needed.join.source.table ∉ ValueTable.tables := by
    decide
  have known : ∀ history, values.table history ∈ ValueTable.tables := by
    intro history
    cases history <;> cases values <;> decide
  rw [Branch.valueTables,
    List.filter_cons_of_pos (by simpa [measurementBranch] using known window.isSome),
    joins_measurementBranch, List.filter_eq_nil_iff.mpr]
  · rfl
  · intro table table_in
    obtain ⟨join, join_in, rfl⟩ := List.mem_map.mp table_in
    obtain ⟨needed, needed_in, rfl⟩ := List.mem_map.mp join_in
    simpa using joined_checked needed (List.mem_of_mem_filter needed_in)

/-- Measurements that the caller may ask for are read from the tables that are chosen. -/
theorem exists_measurements_of_valueTables {tables : List ValueTable}
    (node : options.representation.dataset = .node)
    (expanded : Resources.expand ⟨Mobility.catalogue, .standard, rules⟩ options measurementLists =
      .ok expansion)
    (applies : Resources.access ⟨Mobility.catalogue, .standard, rules⟩ options .stations = .ok access)
    (chosen : valueTables expansion = .ok tables) :
    ∃ prepared, measurements ⟨Mobility.catalogue, .standard, rules⟩ options types datatypes window =
        .ok prepared ∧
      prepared.query.branches.map Branch.valueTables =
        tables.map fun values => [values.table window.isSome] := by
  have succeeds : ∀ values ∈ tables, ∃ branch, (do
      let predicate ← expansion.predicateFor values.list
      Except.ok (measurementBranch options (restriction? types) (restriction? datatypes) window
        expansion access values predicate)) = .ok branch := by
    intro values _
    obtain ⟨predicate, predicate_eq⟩ := exists_predicateFor_list expanded values
    exact ⟨_, bind_eq_ok_iff.mpr ⟨predicate, predicate_eq, rfl⟩⟩
  obtain ⟨branches, branches_eq⟩ := exists_mapM succeeds
  refine ⟨_, bind_eq_ok_iff.mpr ⟨(), if_pos node, bind_eq_ok_iff.mpr ⟨expansion, expanded,
    bind_eq_ok_iff.mpr ⟨tables, chosen, bind_eq_ok_iff.mpr ⟨access, applies,
      bind_eq_ok_iff.mpr ⟨branches, branches_eq, rfl⟩⟩⟩⟩⟩, ?_⟩
  rw [← List.forall₂_eq_eq_eq, List.forall₂_map_left_iff, List.forall₂_map_right_iff]
  refine ((forall₂_of_mapM branches_eq).imp fun values branch made => ?_).flip
  obtain ⟨predicate, -, equal⟩ := bind_eq_ok_iff.mp made
  rw [← Except.ok.inj equal]
  exact valueTables_measurementBranch _ _ _ _ _ _ _ _

/-- No measurements are read if no tables can be chosen. -/
theorem measurements_eq_error_of_valueTables {error : GatewayError}
    (node : options.representation.dataset = .node)
    (expanded : Resources.expand ⟨Mobility.catalogue, .standard, rules⟩ options measurementLists =
      .ok expansion)
    (refused : valueTables expansion = .error error) :
    measurements ⟨Mobility.catalogue, .standard, rules⟩ options types datatypes window =
      .error error :=
  bind_eq_error_iff.mpr <| .inr ⟨(), if_pos node, bind_eq_error_iff.mpr <|
    .inr ⟨expansion, expanded, bind_eq_error_iff.mpr (.inl refused)⟩⟩

/-- The tables for a comparison inside the measured value: that of JSON values, unless the type of the
operand is refused. -/
theorem tablesFor_of_path {comparison : Clause} (inside : comparison.path ≠ []) :
    tablesFor comparison =
      if comparison.operand.valueType ∈ [ValueType.boolean, .mixed] then
        .error (.invalidWhereDataType valueAttribute comparison.operand.valueType.name)
      else .ok [.json] := by
  obtain ⟨first, rest, path_eq⟩ := List.exists_cons_of_ne_nil inside
  rw [tablesFor, path_eq]
  cases type_eq : comparison.operand.valueType <;> simp

/-- A filter that compares a place inside the measured value, and the value nowhere else, reads the
table of JSON values and no other one, unless the operand is a truth value or a list of several types.
Then it is refused, although there is an operator for it. -/
theorem measurements_of_path (types datatypes : String) (window : Option Window)
    {comparison : Clause}
    (node : options.representation.dataset = .node)
    (expanded : Resources.expand ⟨Mobility.catalogue, .standard, rules⟩ options measurementLists =
      .ok expansion)
    (applies : Resources.access ⟨Mobility.catalogue, .standard, rules⟩ options .stations = .ok access)
    (single : expansion.comparisonsOf valueAttribute = [comparison])
    (inside : comparison.path ≠ []) :
    (∃ operator, expansion.scope.operatorOf comparison = .ok operator) ∧
      if comparison.operand.valueType ∈ [ValueType.boolean, .mixed] then
        measurements ⟨Mobility.catalogue, .standard, rules⟩ options types datatypes window =
          .error (.invalidWhereDataType valueAttribute comparison.operand.valueType.name)
      else
        ∃ prepared,
          measurements ⟨Mobility.catalogue, .standard, rules⟩ options types datatypes window =
            .ok prepared ∧
          prepared.query.branches.map Branch.valueTables =
            [[ValueTable.json.table window.isSome]] := by
  have chosen : valueTables expansion = tablesFor comparison := by rw [valueTables, single]
  rw [tablesFor_of_path inside] at chosen
  refine ⟨?_, ?_⟩
  · have member : comparison ∈ Scope.clausesOf expansion.filter := by
      have found : comparison ∈ expansion.comparisonsOf valueAttribute := by simp [single]
      rw [expansion.comparisonsOf_eq] at found
      exact List.mem_of_mem_filter found
    exact (compiles_of_expand expanded comparison member).2
  · split_ifs at chosen ⊢ with refused
    · exact measurements_eq_error_of_valueTables node expanded chosen
    · exact exists_measurements_of_valueTables node expanded applies chosen

/-- The place is compared with a truth value, which the operators take and the choice of the tables
does not. -/
theorem measurements_of_path_boolean :
    let options : Options :=
      { representation := ⟨.node, .flat⟩, limit := 200, offset := 0, select := some "mvalue",
        filter := some "mvalue.a.eq.true", showNull := false, distinct := true, roles := ["GUEST"] }
    let clause : Clause := ⟨"mvalue", ["a"], "eq", .scalar (.boolean true), 0⟩
    clause.path ≠ [] ∧
      (∃ operator, Scope.operatorOf ⟨Mobility.catalogue, .standard, Order.ofList measurementLists⟩
        clause = .ok operator) ∧
      measurements Resources.bundled options "*" "*" none =
        .error (.invalidWhereDataType "mvalue" "BOOLEAN") := by
  intro options clause
  have single : ((Resources.bundled.expand options measurementLists).toOption.map fun expansion =>
      expansion.comparisonsOf valueAttribute) = some [clause] := by
    decide +kernel
  obtain ⟨expansion, is_expanded, single⟩ := Option.map_eq_some_iff.mp single
  have expanded := toOption_eq_some_iff.mp is_expanded
  have succeeds : (Resources.bundled.access options .stations).isOk = true := by decide +kernel
  obtain ⟨access, applies⟩ := exists_of_isOk succeeds
  have inside : clause.path ≠ [] := List.cons_ne_nil _ _
  obtain ⟨applicable, refused⟩ :=
    measurements_of_path "*" "*" none rfl expanded applies single inside
  rw [(Scope.expands_of_expand expanded).within] at applicable
  exact ⟨inside, applicable, refused⟩

end

end Recipe

end StationGateway
