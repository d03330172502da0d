import Mathlib
import StationGateway.Proofs.Expansion.Alike
import StationGateway.Proofs.Order.Entries
import StationGateway.Proofs.Recipe.Stages

/-!
# Values in statements

Requests that differ in their values alone have the same statement, which refers to values under the
same names. The values are the items of path segments, instants, the limit and the offset, and what
a filter compares with. None of them stands in the text. -/

namespace StationGateway.Recipe

open Text StationGateway.Filter Outcome

/-! ## Queries -/

/-- Conditions with the same text, which refers to the same names. -/
structure Condition.Alike (first second : Condition) : Prop where
  /-- The text is the same. -/
  text : first.text = second.text
  /-- The names are the same. -/
  names : first.params.map (·.1) = second.params.map (·.1)

/-- Selections with conditions that are alike. -/
structure Branch.Alike (first second : Branch) : Prop where
  /-- The hidden columns are the same. -/
  hidden : first.hidden = second.hidden
  /-- The projections are the same. -/
  fragments : first.fragments = second.fragments
  /-- The first table is the same. -/
  source : first.source = second.source
  /-- The further tables are the same. -/
  joins : first.joins = second.joins
  /-- The conditions are alike. -/
  conditions : List.Forall₂ Condition.Alike first.conditions second.conditions

/-- Queries with selections that are alike, and with the same kind of paging. -/
structure Query.Alike (first second : Query) : Prop where
  /-- What stands in front is the same. -/
  prelude : first.prelude = second.prelude
  /-- Repeated rows are treated in the same way. -/
  distinct : first.distinct = second.distinct
  /-- The selections are alike. -/
  branches : List.Forall₂ Branch.Alike first.branches second.branches
  /-- The order is the same. -/
  order : first.order = second.order
  /-- Both are limited, or neither is. -/
  limit : 0 < first.limit ↔ 0 < second.limit
  /-- Both skip rows, or neither does. -/
  offset : 0 ≤ first.offset ↔ 0 ≤ second.offset

/-- Lists whose members are related have the same image under what relation preserves. -/
private theorem map_eq_map {α β : Type} {relation : α → α → Prop} {function : α → β}
    (preserves : ∀ first second, relation first second → function first = function second)
    {list others : List α} (related : List.Forall₂ relation list others) :
    list.map function = others.map function := by
  induction related with
  | nil => rfl
  | cons holds _ induction => rw [List.map_cons, List.map_cons, preserves _ _ holds, induction]

namespace Branch.Alike

variable {first second : Branch}

theorem text_eq (alike : first.Alike second) (word : String) :
    first.text word = second.text word := by
  have conditions_eq : first.conditions.map Condition.text = second.conditions.map Condition.text :=
    map_eq_map (fun _ _ holds => holds.text) alike.conditions
  obtain ⟨hidden, fragments, source, joins, conditions⟩ := first
  obtain ⟨rfl, rfl, rfl, rfl, _⟩ := alike
  rw [text, text, parts, parts, conditions_eq]
  rfl

theorem names_eq (alike : first.Alike second) :
    first.params.map (·.1) = second.params.map (·.1) := by
  have names : ∀ branch : Branch, branch.params.map (·.1) =
      (branch.conditions.map fun condition => condition.params.map (·.1)).flatten := by
    intro branch
    rw [params, List.map_flatMap, List.flatMap_def]
  rw [names, names, map_eq_map (fun _ _ holds => holds.names) alike.conditions]

end Branch.Alike

namespace Query.Alike

variable {first second : Query}

theorem sql_eq (alike : first.Alike second) : first.sql = second.sql := by
  have branches_eq : ∀ word, (first.branches.map fun branch => branch.text word) =
      second.branches.map fun branch => branch.text word := fun word =>
    map_eq_map (fun _ _ holds => holds.text_eq word) alike.branches
  obtain ⟨prelude, distinct, branches, order, limit, offset⟩ := first
  obtain ⟨rfl, rfl, _, rfl, same_limit, same_offset⟩ := alike
  simp only [sql, closing, gt_iff_lt, ge_iff_le, branches_eq, same_limit, same_offset]

theorem names_eq (alike : first.Alike second) :
    first.params.map (·.1) = second.params.map (·.1) := by
  have names : ∀ query : Query, (query.branches.flatMap Branch.params).map (·.1) =
      (query.branches.map fun branch => branch.params.map (·.1)).flatten := by
    intro query
    rw [List.map_flatMap, List.flatMap_def]
  have paging_eq : first.paging.map (·.1) = second.paging.map (·.1) := by
    simp only [paging, gt_iff_lt, ge_iff_le, List.map_append, apply_ite (List.map Prod.fst),
      List.map_cons, List.map_nil, alike.limit, alike.offset]
  rw [params, params, Order.keys_mapOfList, Order.keys_mapOfList, List.map_append, List.map_append,
    names, names, map_eq_map (fun _ _ holds => holds.names_eq) alike.branches, paging_eq]

end Query.Alike

/-! ## Conditions -/

theorem Condition.Alike.refl (condition : Condition) : condition.Alike condition :=
  ⟨rfl, rfl⟩

theorem conditions_refl (conditions : List Condition) :
    List.Forall₂ Condition.Alike conditions conditions :=
  List.forall₂_same.mpr fun condition _ => .refl condition

/-- Conditions on something that both requests give, or neither, are alike if they are for whatever
is given. -/
private theorem conditions_alike_of_isSome {α : Type} {conditions : Option α → List Condition}
    (given : ∀ first other,
      List.Forall₂ Condition.Alike (conditions (some first)) (conditions (some other)))
    {first other : Option α} (same : first.isSome = other.isSome) :
    List.Forall₂ Condition.Alike (conditions first) (conditions other) := by
  cases first <;> cases other
  · exact conditions_refl _
  · cases same
  · cases same
  · exact given _ _

theorem oneOf_alike (expression name : String) {items others : Option (List String)}
    (same : items.isSome = others.isSome) :
    List.Forall₂ Condition.Alike (oneOf expression name items) (oneOf expression name others) :=
  conditions_alike_of_isSome (fun _ _ => .cons ⟨rfl, rfl⟩ .nil) same

theorem filterCondition_alike {predicate other : Option Predicate}
    (alike : Option.Rel Predicate.Alike predicate other) :
    List.Forall₂ Condition.Alike (filterCondition predicate) (filterCondition other) := by
  cases alike with
  | none => exact .nil
  | some alike_predicate =>
      refine .cons ⟨alike_predicate.text 0, ?_⟩ .nil
      rw [Condition.params, Condition.params, Predicate.names_params, Predicate.names_params,
        alike_predicate.count]

theorem createdFrom_alike {first other : Option Time.Instant} (same : first.isSome = other.isSome) :
    List.Forall₂ Condition.Alike (createdFrom first) (createdFrom other) :=
  conditions_alike_of_isSome (fun _ _ => .cons ⟨rfl, rfl⟩ .nil) same

theorem createdBefore_alike {last other : Option Time.Instant} (same : last.isSome = other.isSome) :
    List.Forall₂ Condition.Alike (createdBefore last) (createdBefore other) :=
  conditions_alike_of_isSome (fun _ _ => .cons ⟨rfl, rfl⟩ .nil) same

theorem windowConditions_alike {window other : Option Window}
    (same : window.isSome = other.isSome) :
    List.Forall₂ Condition.Alike (windowConditions window) (windowConditions other) :=
  conditions_alike_of_isSome (fun _ _ => .cons ⟨rfl, rfl⟩ (.cons ⟨rfl, rfl⟩ .nil)) same

/-- Windows of events of one kind. -/
inductive EventWindow.Alike : EventWindow → EventWindow → Prop where
  /-- All events. -/
  | all : Alike .all .all
  /-- The latest events. -/
  | latest : Alike .latest .latest
  /-- Events that have not ended before some instant. -/
  | since (first other : Time.Instant) : Alike (.since first) (.since other)
  /-- Events whose interval meets some range. -/
  | between (first last other_first other_last : Time.Instant) :
      Alike (.between first last) (.between other_first other_last)

theorem EventWindow.Alike.latest_iff {window other : EventWindow} (alike : window.Alike other) :
    window = .latest ↔ other = .latest := by
  cases alike <;> simp

theorem eventConditions_alike {window other : EventWindow} (alike : window.Alike other) :
    List.Forall₂ Condition.Alike (eventConditions window) (eventConditions other) := by
  cases alike with
  | all => exact conditions_refl _
  | latest => exact conditions_refl _
  | since => exact .cons ⟨rfl, rfl⟩ .nil
  | between => exact .cons ⟨rfl, rfl⟩ (.cons ⟨rfl, rfl⟩ .nil)

/-! ## Requests -/

/-- What requests ask of every recipe, when they differ in the values of the limit and the offset
and in those of the filter. -/
structure Options.Alike (isOperator : String → Bool) (first second : Options) : Prop where
  /-- The dataset and the shape are the same. -/
  representation : first.representation = second.representation
  /-- The limit is the same, or both are positive. -/
  limit : first.limit = second.limit ∨ 0 < first.limit ∧ 0 < second.limit
  /-- The offset is the same, or neither is negative. -/
  offset : first.offset = second.offset ∨ 0 ≤ first.offset ∧ 0 ≤ second.offset
  /-- The selection is the same. -/
  select : first.select = second.select
  /-- The filters differ in their values. -/
  filter : ReadAlike isOperator first.filter second.filter
  /-- Nulls are shown by both, or by neither. -/
  showNull : first.showNull = second.showNull
  /-- Repeated rows are treated in the same way. -/
  distinct : first.distinct = second.distinct
  /-- The roles are the same. -/
  roles : first.roles = second.roles

/-- Whether two segments restrict what is asked for, or neither does. -/
def SegmentsAlike (first second : String) : Prop :=
  (restriction? first).isSome = (restriction? second).isSome

/-- Requests for the same kind of rows that differ in the items of segments and in instants. -/
inductive Request.Alike : Request → Request → Prop where
  /-- Stations. -/
  | stations {types others : String} (same_types : SegmentsAlike types others) :
      Alike (.stations types) (.stations others)
  /-- Stations with the history of their metadata. -/
  | stationsWithHistory {types others : String}
      {first last other_first other_last : Option Time.Instant}
      (same_types : SegmentsAlike types others) (same_first : first.isSome = other_first.isSome)
      (same_last : last.isSome = other_last.isSome) :
      Alike (.stationsWithHistory types first last)
        (.stationsWithHistory others other_first other_last)
  /-- Stations with the types of their data. -/
  | stationsWithTypes {types others datatypes other_datatypes : String}
      (same_types : SegmentsAlike types others)
      (same_datatypes : SegmentsAlike datatypes other_datatypes) :
      Alike (.stationsWithTypes types datatypes) (.stationsWithTypes others other_datatypes)
  /-- Measurements. -/
  | measurements {types others datatypes other_datatypes : String} {window other : Option Window}
      (same_types : SegmentsAlike types others)
      (same_datatypes : SegmentsAlike datatypes other_datatypes)
      (same_window : window.isSome = other.isSome) :
      Alike (.measurements types datatypes window) (.measurements others other_datatypes other)
  /-- Edges. -/
  | edges {types others : String} (same_types : SegmentsAlike types others) :
      Alike (.edges types) (.edges others)
  /-- Events. -/
  | events {origins others : String} {window other : EventWindow}
      (same_origins : SegmentsAlike origins others) (same_window : window.Alike other) :
      Alike (.events origins window) (.events others other)

theorem pagedQuery_alike {isOperator : String → Bool} {options others : Options}
    (alike : options.Alike isOperator others) {branches other_branches : List Branch}
    (alike_branches : List.Forall₂ Branch.Alike branches other_branches) (order : List String) :
    (pagedQuery options branches order).Alike (pagedQuery others other_branches order) where
  prelude := rfl
  distinct := alike.distinct
  branches := alike_branches
  order := rfl
  limit := by
    rcases alike.limit with same | ⟨positive, other_positive⟩
    · simp only [pagedQuery, same]
    · exact iff_of_true positive other_positive
  offset := by
    rcases alike.offset with same | ⟨nonnegative, other_nonnegative⟩
    · simp only [pagedQuery, same]
    · exact iff_of_true nonnegative other_nonnegative

section

variable {resources : Resources} {options others : Options}
  {expansion other : Expansion}

theorem expand_alike (alike : options.Alike resources.operators.isName others) {lists : List String}
    (expanded : resources.expand options lists = .ok expansion)
    (expanded_other : resources.expand others lists = .ok other) : expansion.Alike other := by
  rw [Resources.expand] at expanded expanded_other
  rw [← alike.select, ← alike.distinct] at expanded_other
  generalize scope_eq :
    Scope.mk resources.catalogue resources.operators (Order.ofList lists) = scope
    at expanded expanded_other
  have operators_eq : resources.operators = scope.operators := by rw [← scope_eq]
  have alike_filters := alike.filter
  rw [operators_eq] at alike_filters
  exact (Scope.expands_of_expand expanded).alike alike_filters
    (Scope.expands_of_expand expanded_other)

private theorem isTree_eq {isOperator : String → Bool} (alike : options.Alike isOperator others) :
    options.isTree = others.isTree := by
  rw [Options.isTree, Options.isTree, alike.representation]

private theorem treeKeys_eq {isOperator : String → Bool} (alike : options.Alike isOperator others) :
    treeKeys options = treeKeys others := by
  funext keys
  rw [treeKeys, treeKeys, isTree_eq alike]

private theorem treeOrder_eq {isOperator : String → Bool}
    (alike : options.Alike isOperator others) :
    treeOrder options = treeOrder others := by
  funext keys
  rw [treeOrder, treeOrder, isTree_eq alike]

/-- Access rules depend on the roles alone. -/
private theorem access_alike {isOperator : String → Bool} (alike : options.Alike isOperator others)
    {rows : Access.RowClass} {access other_access : List Condition}
    (applies : resources.access options rows = .ok access)
    (applies_other : resources.access others rows = .ok other_access) : access = other_access := by
  rw [Resources.access, alike.roles] at applies
  exact Except.ok.inj (applies.symm.trans applies_other)

private theorem stationJoins_alike (alike : expansion.Alike other) :
    stationJoins expansion = stationJoins other := by
  rw [stationJoins, stationJoins, alike.usesAttribute_eq, alike.usesList_eq]

private theorem datatypeJoins_alike (alike : expansion.Alike other) :
    datatypeJoins expansion = datatypeJoins other := by
  rw [datatypeJoins, datatypeJoins, alike.usesAttribute_eq]

private theorem availableParent_alike (alike : expansion.Alike other) :
    List.Forall₂ Condition.Alike (availableParent expansion) (availableParent other) := by
  rw [availableParent, availableParent, alike.usesList_eq]
  exact conditions_refl _

variable {isOperator : String → Bool}

theorem stationBranch_alike (alike : options.Alike isOperator others)
    {types other_types : Option (List String)} (same_types : types.isSome = other_types.isSome)
    (alike_expansion : expansion.Alike other) :
    (stationBranch options types expansion).Alike (stationBranch others other_types other) where
  hidden := by rw [stationBranch, treeKeys_eq alike, stationBranch]
  fragments := by rw [stationBranch, alike_expansion.fragmentsOf_eq, stationBranch]
  source := rfl
  joins := stationJoins_alike alike_expansion
  conditions :=
    List.rel_append
      (List.rel_append (List.rel_append (conditions_refl _) (availableParent_alike alike_expansion))
        (oneOf_alike _ _ same_types))
      (filterCondition_alike alike_expansion.predicate)

theorem historyBranch_alike (alike : options.Alike isOperator others)
    {types other_types : Option (List String)} (same_types : types.isSome = other_types.isSome)
    {first last other_first other_last : Option Time.Instant}
    (same_first : first.isSome = other_first.isSome) (same_last : last.isSome = other_last.isSome)
    (alike_expansion : expansion.Alike other) :
    (historyBranch options types first last expansion).Alike
      (historyBranch others other_types other_first other_last other) where
  hidden := by rw [historyBranch, treeKeys_eq alike, historyBranch]
  fragments := by rw [historyBranch, alike_expansion.fragmentsOf_eq, historyBranch]
  source := rfl
  joins := by rw [historyBranch, stationJoins_alike alike_expansion, historyBranch]
  conditions :=
    List.rel_append
      (List.rel_append
        (List.rel_append
          (List.rel_append
            (List.rel_append (conditions_refl _) (availableParent_alike alike_expansion))
            (oneOf_alike _ _ same_types))
          (createdFrom_alike same_first))
        (createdBefore_alike same_last))
      (filterCondition_alike alike_expansion.predicate)

theorem typeBranch_alike (alike : options.Alike isOperator others)
    {types datatypes other_types other_datatypes : Option (List String)}
    (same_types : types.isSome = other_types.isSome)
    (same_datatypes : datatypes.isSome = other_datatypes.isSome)
    (alike_expansion : expansion.Alike other) (table : String) :
    (typeBranch options types datatypes expansion table).Alike
      (typeBranch others other_types other_datatypes other table) where
  hidden := by rw [typeBranch, treeKeys_eq alike, typeBranch]
  fragments := by rw [typeBranch, alike_expansion.fragmentsOf_eq, typeBranch]
  source := rfl
  joins := by
    rw [typeBranch, stationJoins_alike alike_expansion, datatypeJoins_alike alike_expansion,
      typeBranch]
  conditions :=
    List.rel_append
      (List.rel_append
        (List.rel_append
          (List.rel_append (conditions_refl _) (availableParent_alike alike_expansion))
          (oneOf_alike _ _ same_types))
        (oneOf_alike _ _ same_datatypes))
      (filterCondition_alike alike_expansion.predicate)

theorem measurementBranch_alike (alike : options.Alike isOperator others)
    {types datatypes other_types other_datatypes : Option (List String)}
    (same_types : types.isSome = other_types.isSome)
    (same_datatypes : datatypes.isSome = other_datatypes.isSome)
    {window other_window : Option Window}
    (same_window : window.isSome = other_window.isSome) (alike_expansion : expansion.Alike other)
    (access : List Condition) (values : ValueTable) {predicate other_predicate : Option Predicate}
    (alike_predicate : Option.Rel Predicate.Alike predicate other_predicate) :
    (measurementBranch options types datatypes window expansion access values predicate).Alike
      (measurementBranch others other_types other_datatypes other_window other access values
        other_predicate) where
  hidden := by rw [measurementBranch, isTree_eq alike, measurementBranch]
  fragments := by rw [measurementBranch, alike_expansion.fragmentsOf_eq, measurementBranch]
  source := by rw [measurementBranch, same_window, measurementBranch]
  joins := by
    rw [measurementBranch, stationJoins_alike alike_expansion, datatypeJoins_alike alike_expansion,
      alike_expansion.usesList_eq, measurementBranch]
  conditions :=
    List.rel_append
      (List.rel_append
        (List.rel_append
          (List.rel_append
            (List.rel_append (conditions_refl _) (availableParent_alike alike_expansion))
            (oneOf_alike _ _ same_types))
          (oneOf_alike _ _ same_datatypes))
        (windowConditions_alike same_window))
      (filterCondition_alike alike_predicate)

theorem edgeBranch_alike (alike : options.Alike isOperator others)
    {types other_types : Option (List String)} (same_types : types.isSome = other_types.isSome)
    (alike_expansion : expansion.Alike other) :
    (edgeBranch options types expansion).Alike (edgeBranch others other_types other) where
  hidden := by rw [edgeBranch, treeKeys_eq alike, edgeBranch]
  fragments := by rw [edgeBranch, alike_expansion.fragmentsOf_eq, edgeBranch]
  source := rfl
  joins := by simp only [edgeBranch, endJoins, alike_expansion.usesList_eq]
  conditions := by
    simp only [edgeBranch, availableEnds, alike_expansion.usesList_eq]
    exact List.rel_append
      (List.rel_append (conditions_refl _) (oneOf_alike _ _ same_types))
      (filterCondition_alike alike_expansion.predicate)

theorem eventBranch_alike (alike : options.Alike isOperator others)
    {origins other_origins : Option (List String)}
    (same_origins : origins.isSome = other_origins.isSome) {window other_window : EventWindow}
    (alike_window : window.Alike other_window) (alike_expansion : expansion.Alike other)
    (access : List Condition) :
    (eventBranch options origins window expansion access).Alike
      (eventBranch others other_origins other_window other access) where
  hidden := by
    simp only [eventBranch, treeKeys_eq alike, alike_expansion.usesList_eq]
  fragments := by rw [eventBranch, alike_expansion.fragmentsOf_eq, eventBranch]
  source := rfl
  joins := by
    simp only [eventBranch, eventJoins, alike_expansion.usesList_eq,
      alike_expansion.usesAttribute_eq, alike_window.latest_iff]
  conditions :=
    List.rel_append
      (List.rel_append
        (List.rel_append (conditions_refl _) (eventConditions_alike alike_window))
        (oneOf_alike _ _ same_origins))
      (filterCondition_alike alike_expansion.predicate)

theorem comparisonsOf_alike (alike : expansion.Alike other) (key : String) :
    List.Forall₂ Clause.Alike (expansion.comparisonsOf key) (other.comparisonsOf key) := by
  rw [expansion.comparisonsOf_eq, other.comparisonsOf_eq]
  have related := Scope.clausesOf_alike alike.filter
  generalize Scope.clausesOf expansion.filter = comparisons at related
  generalize Scope.clausesOf other.filter = more at related
  induction related with
  | nil => exact .nil
  | cons alike_clause _ induction =>
      rw [List.filter_cons, List.filter_cons, alike_clause.key]
      split
      · exact .cons alike_clause induction
      · exact induction

/-- The types of values decide which tables can have rows. -/
theorem valueTables_alike (alike : expansion.Alike other) {tables other_tables : List ValueTable}
    (found : valueTables expansion = .ok tables)
    (found_other : valueTables other = .ok other_tables) :
    tables = other_tables := by
  have same_type : ∀ {comparison compared : Clause}, comparison.Alike compared →
      tablesFor comparison = tablesFor compared := by
    intro comparison compared alike_clause
    simp only [tablesFor, alike_clause.valueType, alike_clause.path]
  have related := comparisonsOf_alike alike valueAttribute
  rw [valueTables] at found found_other
  generalize expansion.comparisonsOf valueAttribute = comparisons at related found
  generalize other.comparisonsOf valueAttribute = more at related found_other
  cases related with
  | nil => exact Except.ok.inj (found.symm.trans found_other)
  | cons alike_clause rest =>
      cases rest with
      | nil =>
          simp only [same_type alike_clause] at found
          exact Except.ok.inj (found.symm.trans found_other)
      | cons => cases found

end

/-- The text of a statement and the names of its values do not depend on the values that a client
gives. -/
theorem sql_eq_of_alike {resources : Resources} {options others : Options}
    (alike_options : options.Alike resources.operators.isName others) {request other : Request}
    (alike : request.Alike other) {prepared other_prepared : Prepared}
    (compiled : request.prepare resources options = .ok prepared)
    (compiled_other : other.prepare resources others = .ok other_prepared) :
    prepared.sql = other_prepared.sql ∧
      prepared.params.map (·.1) = other_prepared.params.map (·.1) := by
  suffices queries : prepared.query.Alike other_prepared.query from
    ⟨queries.sql_eq, queries.names_eq⟩
  cases alike with
  | stations same_types =>
      obtain ⟨expansion, expanded, query_eq⟩ := exists_of_stations compiled
      obtain ⟨expansion', expanded', query_eq'⟩ := exists_of_stations compiled_other
      have alike_expansion := expand_alike alike_options expanded expanded'
      rw [query_eq, query_eq', treeOrder_eq alike_options]
      exact pagedQuery_alike alike_options
        (.cons (stationBranch_alike alike_options same_types alike_expansion) .nil) _
  | stationsWithHistory same_types same_first same_last =>
      obtain ⟨expansion, expanded, query_eq⟩ := exists_of_stationsWithHistory compiled
      obtain ⟨expansion', expanded', query_eq'⟩ := exists_of_stationsWithHistory compiled_other
      have alike_expansion := expand_alike alike_options expanded expanded'
      rw [query_eq, query_eq', treeOrder_eq alike_options]
      exact pagedQuery_alike alike_options
        (.cons (historyBranch_alike alike_options same_types same_first same_last alike_expansion)
          .nil) _
  | stationsWithTypes same_types same_datatypes =>
      obtain ⟨expansion, expanded, query_eq⟩ := exists_of_stationsWithTypes compiled
      obtain ⟨expansion', expanded', query_eq'⟩ := exists_of_stationsWithTypes compiled_other
      have alike_expansion := expand_alike alike_options expanded expanded'
      rw [query_eq, query_eq', treeOrder_eq alike_options]
      refine pagedQuery_alike alike_options ?_ _
      rw [List.forall₂_map_left_iff, List.forall₂_map_right_iff, List.forall₂_same]
      exact fun table _ =>
        typeBranch_alike alike_options same_types same_datatypes alike_expansion table
  | measurements same_types same_datatypes same_window =>
      obtain ⟨expansion, tables, access, branches, expanded, tables_eq, applies, made, query_eq⟩ :=
        exists_of_measurements compiled
      obtain ⟨expansion', tables', access', branches', expanded', tables_eq', applies', made',
        query_eq'⟩ := exists_of_measurements compiled_other
      have alike_expansion := expand_alike alike_options expanded expanded'
      obtain rfl := valueTables_alike alike_expansion tables_eq tables_eq'
      obtain rfl := access_alike alike_options applies applies'
      rw [query_eq, query_eq', isTree_eq alike_options]
      refine pagedQuery_alike alike_options (forall₂_of_common made made' ?_) _
      rintro values branch branch' ⟨predicate, found, rfl⟩ ⟨predicate', found', rfl⟩
      rw [Expansion.predicateFor_eq] at found found'
      rw [alike_expansion.scope] at found
      exact measurementBranch_alike alike_options same_types same_datatypes same_window
        alike_expansion access values (Scope.predicateOf_alike alike_expansion.filter found found')
  | edges same_types =>
      obtain ⟨expansion, expanded, query_eq⟩ := exists_of_edges compiled
      obtain ⟨expansion', expanded', query_eq'⟩ := exists_of_edges compiled_other
      have alike_expansion := expand_alike alike_options expanded expanded'
      rw [query_eq, query_eq', treeOrder_eq alike_options]
      exact pagedQuery_alike alike_options
        (.cons (edgeBranch_alike alike_options same_types alike_expansion) .nil) _
  | events same_origins same_window =>
      obtain ⟨expansion, access, expanded, applies, query_eq⟩ := exists_of_events compiled
      obtain ⟨expansion', access', expanded', applies', query_eq'⟩ :=
        exists_of_events compiled_other
      have alike_expansion := expand_alike alike_options expanded expanded'
      obtain rfl := access_alike alike_options applies applies'
      rw [query_eq, query_eq', treeOrder_eq alike_options, alike_expansion.usesList_eq]
      have paged := pagedQuery_alike alike_options
        (.cons
          (eventBranch_alike alike_options same_origins same_window alike_expansion access) .nil)
        (treeOrder others (eventKeys (expansion'.usesList "location")))
      exact { paged with prelude := by simp only [same_window.latest_iff] }

/-- Stations of one type and of two, with another limit and other values to compare with. -/
theorem sql_eq_of_alike_stations :
    let options : Options :=
      { representation := ⟨.node, .tree⟩, limit := 10, offset := 0, select := some "scode",
        filter := some "or(scode.eq.'a',sactive.eq.true)", showNull := false, distinct := true,
        roles := ["GUEST"] }
    let others : Options :=
      { options with limit := 200, filter := some "or(scode.eq.'b;c',sactive.eq.false)" }
    let request : Request := .stations "Weather"
    let other : Request := .stations "Parking, Bike"
    options.Alike Resources.bundled.operators.isName others ∧ request.Alike other ∧
      ∃ prepared other_prepared, request.prepare Resources.bundled options = .ok prepared ∧
        other.prepare Resources.bundled others = .ok other_prepared ∧
        prepared.sql = other_prepared.sql ∧
        prepared.params.map (·.1) = other_prepared.params.map (·.1) := by
  intro options others request other
  have read : parseOptional Resources.bundled.operators.isName options.filter = .ok (some
      (.any [.clause ⟨"scode", [], "eq", .scalar (.text "a"), 3⟩,
        .clause ⟨"sactive", [], "eq", .scalar (.boolean true), 16⟩])) := by cbv
  have read_other : parseOptional Resources.bundled.operators.isName others.filter = .ok (some
      (.any [.clause ⟨"scode", [], "eq", .scalar (.text "b;c"), 3⟩,
        .clause ⟨"sactive", [], "eq", .scalar (.boolean false), 18⟩])) := by cbv
  have alike_filters :
      ReadAlike Resources.bundled.operators.isName options.filter others.filter := by
    refine ⟨_, _, read, read_other, .some (.any (.cons (.clause ?_) (.cons (.clause ?_) .nil)))⟩
    · exact ⟨rfl, rfl, rfl, rfl, rfl⟩
    · exact ⟨rfl, rfl, rfl, rfl, rfl⟩
  have alike_options : options.Alike Resources.bundled.operators.isName others :=
    { representation := rfl, limit := .inr (by decide), offset := .inl rfl, select := rfl,
      filter := alike_filters, showNull := rfl, distinct := rfl, roles := rfl }
  have alike : request.Alike other := by
    refine .stations ?_
    rw [SegmentsAlike]
    decide +kernel
  have succeeds : (request.prepare Resources.bundled options).isOk = true := by decide +kernel
  have succeeds_other : (other.prepare Resources.bundled others).isOk = true := by decide +kernel
  obtain ⟨prepared, compiled⟩ := exists_of_isOk succeeds
  obtain ⟨other_prepared, compiled_other⟩ := exists_of_isOk succeeds_other
  exact ⟨alike_options, alike, prepared, other_prepared, compiled, compiled_other,
    sql_eq_of_alike alike_options alike compiled compiled_other⟩

end StationGateway.Recipe
