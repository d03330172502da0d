import Mathlib
import StationGateway.Proofs.Expansion.References
import StationGateway.Proofs.Filter.WellFormed
import StationGateway.Proofs.Recipe.Needs

/-!
# Binding of statements

What the statement of a request refers to: the values of its conditions, all of them, and whatever is
spelled by the places inside values that the request selects. The path of such a place stands in a
label, where the binder looks for references, so a path with a colon in it may refer to no value. -/

namespace StationGateway.Recipe

open Text StationGateway.Filter Statement Outcome

/-! ## Parts of queries -/

/-- Whether the text of a condition refers to its values and to nothing else. -/
def Condition.RefersToValues (condition : Condition) : Prop :=
  Closed condition.text ∧
    ∀ name, name ∈ references condition.text ↔ name ∈ condition.params.map (·.1)

/-- Whether nothing of a selection but its conditions and projections refers to anything. -/
structure Branch.RefersToValues (branch : Branch) : Prop where
  /-- Hidden columns refer to nothing. -/
  hidden : ∀ column ∈ branch.hidden, Silent column.text
  /-- The first table refers to nothing. -/
  source : Silent branch.source.text
  /-- The further tables refer to nothing. -/
  joins : ∀ join ∈ branch.joins, Silent join.text
  /-- Conditions refer to their values. -/
  conditions : ∀ condition ∈ branch.conditions, condition.RefersToValues

/-- Whether nothing of a query but its conditions and projections refers to anything. -/
structure Query.RefersToValues (query : Query) : Prop where
  /-- What stands in front refers to nothing. -/
  prelude : ∀ text ∈ query.prelude, Silent text
  /-- Selections refer to the values of their conditions. -/
  branches : ∀ branch ∈ query.branches, branch.RefersToValues
  /-- The order refers to nothing. -/
  order : ∀ column ∈ query.order, Silent column

/-- The references of joined texts are those of any of them. -/
theorem mem_references_join {separator : String} (separates : Separates separator)
    {texts : List String} (closed : ∀ text ∈ texts, Closed text) :
    Closed (join separator texts) ∧ ∀ name,
      name ∈ references (join separator texts) ↔ ∃ text ∈ texts, name ∈ references text := by
  obtain ⟨join_closed, same⟩ := references_join separates closed
  refine ⟨join_closed, fun name => ?_⟩
  rw [same, List.mem_flatMap]

private theorem separates_blank : Separates " " := separates_of_isSeparator (by decide)

private theorem separates_comma : Separates ", " := separates_of_isSeparator (by decide)

private theorem separates_and : Separates " and " := separates_of_isSeparator (by decide)

/-- A word before a text adds no references. -/
theorem references_word {word text : String} (word_silent : Silent word) (closed : Closed text) :
    Closed (word ++ " " ++ text) ∧ references (word ++ " " ++ text) = references text := by
  refine ⟨(word_silent.1.append separates_blank.1).append closed, ?_⟩
  rw [separates_blank.2 _ _ word_silent.1, word_silent.2, List.nil_append]

section

variable {branch : Branch} {query : Query} {word : String}

/-- The projections of a selection refer to what any of them does. -/
theorem Branch.RefersToValues.references_columns (refers : branch.RefersToValues)
    (closed : ∀ fragment ∈ branch.fragments, Closed fragment.text) :
    Closed (join ", " branch.columns) ∧ ∀ name, name ∈ references (join ", " branch.columns) ↔
      ∃ fragment ∈ branch.fragments, name ∈ references fragment.text := by
  have columns_closed : ∀ column ∈ branch.columns, Closed column := by
    intro column member
    rcases List.mem_append.mp member with is_hidden | is_shown
    · obtain ⟨hidden, hidden_in, rfl⟩ := List.mem_map.mp is_hidden
      exact (refers.hidden hidden hidden_in).1
    · obtain ⟨fragment, fragment_in, rfl⟩ := List.mem_map.mp is_shown
      exact closed fragment fragment_in
  obtain ⟨all_closed, same⟩ := mem_references_join separates_comma columns_closed
  refine ⟨all_closed, fun name => (same name).trans ⟨?_, ?_⟩⟩
  · rintro ⟨column, member, name_in⟩
    rcases List.mem_append.mp member with is_hidden | is_shown
    · obtain ⟨hidden, hidden_in, rfl⟩ := List.mem_map.mp is_hidden
      rw [(refers.hidden hidden hidden_in).2] at name_in
      cases name_in
    · obtain ⟨fragment, fragment_in, rfl⟩ := List.mem_map.mp is_shown
      exact ⟨fragment, fragment_in, name_in⟩
  · rintro ⟨fragment, fragment_in, name_in⟩
    exact ⟨fragment.text, List.mem_append_right _ (List.mem_map_of_mem fragment_in), name_in⟩

/-- The conditions of a selection refer to their values. -/
theorem Branch.RefersToValues.references_conditions (refers : branch.RefersToValues) :
    Closed (join " and " (branch.conditions.map Condition.text)) ∧
      ∀ name, name ∈ references (join " and " (branch.conditions.map Condition.text)) ↔
        name ∈ branch.params.map (·.1) := by
  have conditions_closed : ∀ text ∈ branch.conditions.map Condition.text, Closed text :=
    List.forall_mem_map.mpr fun condition member => (refers.conditions condition member).1
  obtain ⟨all_closed, same⟩ := mem_references_join separates_and conditions_closed
  refine ⟨all_closed, fun name => (same name).trans ?_⟩
  rw [Branch.params, List.map_flatMap, List.mem_flatMap]
  constructor
  · rintro ⟨text, member, name_in⟩
    obtain ⟨condition, condition_in, rfl⟩ := List.mem_map.mp member
    exact ⟨condition, condition_in, ((refers.conditions condition condition_in).2 name).mp name_in⟩
  · rintro ⟨condition, condition_in, name_in⟩
    exact ⟨condition.text, List.mem_map_of_mem condition_in,
      ((refers.conditions condition condition_in).2 name).mpr name_in⟩

theorem Branch.mem_parts {part : String} :
    part ∈ branch.parts word ↔ part = word ∨ branch.columns ≠ [] ∧ part = join ", " branch.columns ∨
      part = "from" ++ " " ++ branch.source.text ∨ (∃ join ∈ branch.joins, join.text = part) ∨
        part = "where" ++ " " ++ join " and " (branch.conditions.map Condition.text) := by
  have from_eq : "from " = "from" ++ " " := rfl
  have where_eq : "where " = "where" ++ " " := rfl
  rw [Branch.parts, from_eq, where_eq]
  by_cases no_columns : branch.columns = []
  · simp [no_columns]
  · simp [no_columns]

/-- A selection refers to what its projections do and to the values of its conditions. -/
theorem Branch.RefersToValues.references_text (refers : branch.RefersToValues)
    (closed : ∀ fragment ∈ branch.fragments, Closed fragment.text) (word_silent : Silent word) :
    Closed (branch.text word) ∧ ∀ name, name ∈ references (branch.text word) ↔
      (∃ fragment ∈ branch.fragments, name ∈ references fragment.text) ∨
        name ∈ branch.params.map (·.1) := by
  obtain ⟨columns_closed, in_columns⟩ := refers.references_columns closed
  obtain ⟨conditions_closed, in_conditions⟩ := refers.references_conditions
  have from_silent : Silent "from" := by decide
  have where_silent : Silent "where" := by decide
  obtain ⟨source_closed, source_same⟩ := references_word from_silent refers.source.1
  obtain ⟨where_closed, where_same⟩ := references_word where_silent conditions_closed
  have parts_closed : ∀ part ∈ branch.parts word, Closed part := by
    intro part member
    rcases Branch.mem_parts.mp member with rfl | ⟨-, rfl⟩ | rfl | ⟨join, join_in, rfl⟩ | rfl
    · exact word_silent.1
    · exact columns_closed
    · exact source_closed
    · exact (refers.joins join join_in).1
    · exact where_closed
  obtain ⟨text_closed, same⟩ := mem_references_join separates_blank parts_closed
  refine ⟨text_closed, fun name => (same name).trans ⟨?_, ?_⟩⟩
  · rintro ⟨part, member, name_in⟩
    rcases Branch.mem_parts.mp member with rfl | ⟨-, rfl⟩ | rfl | ⟨join, join_in, rfl⟩ | rfl
    · rw [word_silent.2] at name_in
      cases name_in
    · exact .inl ((in_columns name).mp name_in)
    · rw [source_same, refers.source.2] at name_in
      cases name_in
    · rw [(refers.joins join join_in).2] at name_in
      cases name_in
    · rw [where_same] at name_in
      exact .inr ((in_conditions name).mp name_in)
  · rintro (⟨fragment, fragment_in, name_in⟩ | in_params)
    · have filled : branch.columns ≠ [] := List.ne_nil_of_mem
        (List.mem_append_right _ (List.mem_map_of_mem fragment_in))
      exact ⟨_, Branch.mem_parts.mpr (.inr (.inl ⟨filled, rfl⟩)),
        (in_columns name).mpr ⟨fragment, fragment_in, name_in⟩⟩
    · refine ⟨_, Branch.mem_parts.mpr (.inr (.inr (.inr (.inr rfl)))), ?_⟩
      rw [where_same]
      exact (in_conditions name).mpr in_params

/-- The paging of a statement refers to its values. -/
theorem Query.references_closing (order_silent : ∀ column ∈ query.order, Silent column) :
    (∀ part ∈ query.closing, Closed part) ∧ ∀ name,
      (∃ part ∈ query.closing, name ∈ references part) ↔ name ∈ query.paging.map (·.1) := by
  have order_word : Silent "order by" := by decide
  have columns_closed : ∀ column ∈ query.order, Closed column := fun column member =>
    (order_silent column member).1
  obtain ⟨columns_closed, in_columns⟩ := mem_references_join separates_comma columns_closed
  obtain ⟨order_closed, order_same⟩ := references_word order_word columns_closed
  have order_eq : "order by " = "order by" ++ " " := rfl
  rw [← order_eq] at order_closed order_same
  have limit_closed : Closed "limit :limit" := by decide
  have limit_same : references "limit :limit" = ["limit"] := by decide
  have offset_closed : Closed "offset :offset" := by decide
  have offset_same : references "offset :offset" = ["offset"] := by decide
  have none_ordered : references ("order by " ++ join ", " query.order) = [] := by
    refine List.eq_nil_iff_forall_not_mem.mpr fun name name_in => ?_
    rw [order_same] at name_in
    obtain ⟨column, column_in, name_in⟩ := (in_columns name).mp name_in
    rw [(order_silent column column_in).2] at name_in
    cases name_in
  rw [Query.closing, Query.paging]
  constructor
  · intro part member
    simp only [List.mem_append] at member
    rcases member with (in_order | in_limit) | in_offset
    · split_ifs at in_order
      · cases in_order
      · exact List.mem_singleton.mp in_order ▸ order_closed
    · split_ifs at in_limit
      · exact List.mem_singleton.mp in_limit ▸ limit_closed
      · cases in_limit
    · split_ifs at in_offset
      · exact List.mem_singleton.mp in_offset ▸ offset_closed
      · cases in_offset
  · intro name
    by_cases no_order : query.order.isEmpty <;> by_cases limited : query.limit > 0 <;>
      by_cases skips : query.offset ≥ 0 <;>
        simp [no_order, limited, skips, none_ordered, limit_same, offset_same]

/-- A statement refers to what its projections do and to its values, each of them. -/
theorem Query.RefersToValues.mem_references_sql (refers : query.RefersToValues)
    (closed : ∀ branch ∈ query.branches, ∀ fragment ∈ branch.fragments, Closed fragment.text)
    (name : String) :
    name ∈ references query.sql ↔
      (∃ branch ∈ query.branches, ∃ fragment ∈ branch.fragments, name ∈ references fragment.text) ∨
        name ∈ query.params.map (·.1) := by
  have word_silent : Silent (selectWord query.distinct) := by
    cases query.distinct <;> decide
  have separates_union : Separates " union all " := separates_of_isSeparator (by decide)
  have branch_refers := fun branch member =>
    (refers.branches branch member).references_text (closed branch member) word_silent
  have in_branch := fun branch member => (branch_refers branch member).2
  have texts_closed : ∀ text ∈ query.branches.map (·.text (selectWord query.distinct)), Closed text :=
    List.forall_mem_map.mpr fun branch member => (branch_refers branch member).1
  obtain ⟨union_closed, in_union⟩ := mem_references_join separates_union texts_closed
  obtain ⟨closing_closed, in_closing⟩ := query.references_closing refers.order
  have parts_closed : ∀ part ∈ query.prelude.toList ++
      [join " union all " (query.branches.map (·.text (selectWord query.distinct)))] ++ query.closing,
      Closed part := by
    intro part member
    simp only [List.mem_append, List.mem_singleton, Option.mem_toList] at member
    rcases member with (in_prelude | rfl) | at_end
    · exact (refers.prelude part in_prelude).1
    · exact union_closed
    · exact closing_closed part at_end
  have in_sql := (mem_references_join separates_blank parts_closed).2 name
  have sql_eq : query.sql = join " " (query.prelude.toList ++
      [join " union all " (query.branches.map (·.text (selectWord query.distinct)))] ++
        query.closing) := rfl
  have in_params : name ∈ query.params.map (·.1) ↔
      (∃ branch ∈ query.branches, name ∈ branch.params.map (·.1)) ∨
        name ∈ query.paging.map (·.1) := by
    rw [Query.params, Order.keys_mapOfList, Order.mem_ofList, List.map_append, List.mem_append,
      List.map_flatMap, List.mem_flatMap]
  rw [sql_eq, in_sql, in_params, ← in_closing name]
  constructor
  · rintro ⟨part, member, name_in⟩
    simp only [List.mem_append, List.mem_singleton, Option.mem_toList] at member
    rcases member with (in_prelude | rfl) | at_end
    · rw [(refers.prelude part in_prelude).2] at name_in
      cases name_in
    · obtain ⟨text, text_in, name_in⟩ := (in_union name).mp name_in
      obtain ⟨branch, branch_in, rfl⟩ := List.mem_map.mp text_in
      rcases (in_branch branch branch_in name).mp name_in with in_fragment | in_branch_params
      · exact .inl ⟨branch, branch_in, in_fragment⟩
      · exact .inr (.inl ⟨branch, branch_in, in_branch_params⟩)
    · exact .inr (.inr ⟨part, at_end, name_in⟩)
  · have of_branch : ∀ branch ∈ query.branches,
        name ∈ references (branch.text (selectWord query.distinct)) →
          ∃ part ∈ query.prelude.toList ++
            [join " union all " (query.branches.map (·.text (selectWord query.distinct)))] ++
              query.closing, name ∈ references part := by
      intro branch branch_in name_in
      exact ⟨_, List.mem_append_left _ (List.mem_append_right _ (List.mem_singleton.mpr rfl)),
        (in_union name).mpr ⟨_, List.mem_map_of_mem branch_in, name_in⟩⟩
    rintro (⟨branch, branch_in, in_fragment⟩ | ⟨branch, branch_in, in_branch_params⟩ |
      ⟨part, at_end, name_in⟩)
    · exact of_branch branch branch_in ((in_branch branch branch_in name).mpr (.inl in_fragment))
    · exact of_branch branch branch_in ((in_branch branch branch_in name).mpr (.inr in_branch_params))
    · exact ⟨part, List.mem_append_right _ at_end, name_in⟩

end

/-! ## Tables and conditions of requests -/

theorem silent_source {source : Source} (table : Silent source.table) (name : Silent source.name) :
    Silent source.text :=
  table.append separates_blank name

/-- A further table refers to nothing if its parts do not. -/
theorem silent_of_parts {join : Join}
    (parts : Silent join.source.table ∧ Silent join.source.name ∧ Silent join.condition) :
    Silent join.text := by
  have kind_eq : ∃ word, Silent word ∧ join.kind.text = word ++ " " := by
    cases join.kind with
    | inner => exact ⟨"join", by decide, rfl⟩
    | left => exact ⟨"left join", by decide, rfl⟩
  obtain ⟨word, word_silent, kind_eq⟩ := kind_eq
  have separates_on : Separates " on " := separates_of_isSeparator (by decide)
  have source_silent := silent_source parts.1 parts.2.1
  rw [Join.text, kind_eq]
  exact (word_silent.append separates_blank source_silent).append separates_on parts.2.2

private theorem joins_silent : ∀ needed ∈ everyJoin, Silent needed.join.source.table ∧
    Silent needed.join.source.name ∧ Silent needed.join.condition := by
  decide +kernel

private theorem conditions_refer : ∀ needed ∈ everyCondition,
    Closed needed.text ∧ references needed.text = needed.value.toList := by
  decide +kernel

theorem refersToValues_fixed {text : String} (silent : Silent text) :
    (Condition.fixed text).RefersToValues := by
  refine ⟨silent.1, fun name => ?_⟩
  rw [Condition.text, silent.2]
  rfl

/-- The program's own conditions refer to their values. -/
theorem refersToValues_needed {needed : NeededCondition} (known : needed ∈ everyCondition)
    {condition : Condition} (gives : needed.Gives condition) : condition.RefersToValues := by
  obtain ⟨closed, references_eq⟩ := conditions_refer needed known
  obtain ⟨text_eq, -, params_eq⟩ := gives.eq
  refine ⟨text_eq ▸ closed, fun name => ?_⟩
  rw [text_eq, references_eq, params_eq]

/-- An access rule has no values. -/
theorem refersToValues_access {options : Options} {rows : Access.RowClass} {access : List Condition}
    (applies : Resources.bundled.access options rows = .ok access) {condition : Condition}
    (member : condition ∈ access) : condition.RefersToValues := by
  have guest_silent : Silent (guestRule rows) := by
    cases rows <;> exact silent_ofList (by decide)
  have separates_or : Separates " or " := separates_of_isSeparator (by decide)
  obtain ⟨rule, rfl, rfl | ⟨predicates, all_guest, rfl⟩⟩ := exists_rule_of_mem_access applies member
  · exact @refersToValues_fixed "(false)" (by decide)
  · obtain ⟨closed, same⟩ := @references_joined _ separates_or predicates
      fun predicate member => all_guest predicate member ▸ guest_silent.1
    refine @refersToValues_fixed ("(" ++ join " or " predicates ++ ")") ⟨closed, ?_⟩
    rw [same]
    exact List.flatMap_eq_nil_iff.mpr fun predicate member =>
      all_guest predicate member ▸ guest_silent.2

/-- A compiled filter refers to its values. -/
theorem refersToValues_filter {scope : Scope} (catalogue : scope.catalogue = Mobility.catalogue)
    (operators : scope.operators = .standard) {conditions preferred : Option String}
    {filter : Option Filter} (read : parseOptional scope.operators.isName conditions = .ok filter)
    {predicate : Option Predicate} (found : scope.predicateOf preferred filter = .ok predicate)
    {condition : Condition} (member : condition ∈ filterCondition predicate) :
    condition.RefersToValues := by
  obtain ⟨compiled, rfl, rfl⟩ := mem_filterCondition.mp member
  obtain ⟨text, spelled, parsed, compiles⟩ := Scope.exists_filter_of_predicateOf read found
  obtain ⟨closed, same⟩ :=
    references_of_compile (fun _ _ => silent_of_columnOf? catalogue) operators
      (wellFormed_of_parse parsed) compiles 0
  refine ⟨closed, fun name => ?_⟩
  have text_eq : (Condition.filter compiled).text = compiled.textFrom 0 := rfl
  rw [text_eq, same, Condition.params, Predicate.names_params, Order.mem_ofList,
    List.range_eq_range']

/-! ## Queries of requests -/

private theorem keys_silent : ∀ column ∈ everyKey,
    Silent column.expression ∧ Silent column.label := by
  decide +kernel

private theorem latestPrelude_silent : Silent latestPrelude := by
  have spelled : latestPrelude =
      "with latest as (select e.id, row_number() over(partition by e.origin, e.event_series_uuid" ++
        " " ++ "order by e.event_interval desc) as rank from event e)" := by
    decide +kernel
  rw [spelled]
  exact (silent_ofList (by decide)).append separates_blank (silent_ofList (by decide))

section

variable {options : Options} {expansion : Expansion} {request : Request} {branch : Branch}
  {prepared : Prepared}

theorem silent_of_mem_hidden {column : HiddenColumn}
    (member : column ∈ request.hidden options expansion) : Silent column.text := by
  have separates_as : Separates " as " := separates_of_isSeparator (by decide)
  obtain ⟨expression_silent, label_silent⟩ :=
    keys_silent column (request.hiddenColumns_subset (request.hidden_subset member))
  exact expression_silent.append separates_as label_silent

theorem silent_of_mem_order {column : String}
    (member : column ∈ request.order options expansion) : Silent column := by
  have asc_silent : Silent "asc" := by decide
  have asc_eq : " asc" = " " ++ "asc" := rfl
  obtain ⟨key, key_in, spelled⟩ := Request.exists_key_of_mem_order member
  obtain ⟨-, label_silent⟩ := keys_silent key (request.hiddenColumns_subset key_in)
  rcases spelled with rfl | rfl
  · exact label_silent
  · rw [asc_eq, ← String.append_assoc]
    exact label_silent.append separates_blank asc_silent

theorem silent_prelude {text : String} (member : text ∈ request.prelude) : Silent text := by
  cases request with
  | events origins window =>
      rw [Request.prelude] at member
      split_ifs at member with is_latest
      · exact Option.mem_some.mp member ▸ latestPrelude_silent
      · cases member
  | stations types => cases member
  | stationsWithHistory types first last => cases member
  | stationsWithTypes types datatypes => cases member
  | measurements types datatypes window => cases member
  | edges types => cases member

private theorem table_silent (history : Bool) (values : ValueTable) : Silent (values.table history) := by
  cases history <;> cases values <;> decide

private theorem currentTables_silent : ∀ table ∈ currentTables, Silent table := by
  decide

/-- The tables of a selection refer to nothing. -/
theorem Selects.silent_tables
    (selects : Selects Resources.bundled options expansion request branch) :
    Silent branch.source.text ∧ ∀ join ∈ branch.joins, Silent join.text := by
  constructor
  · cases selects with
    | stations types => exact (by decide : Silent (Source.text ⟨"station", "s"⟩))
    | stationsWithHistory types first last =>
        exact (by decide : Silent (Source.text ⟨"station", "s"⟩))
    | stationsWithTypes types datatypes table_in =>
        exact silent_source (currentTables_silent _ table_in) (by decide : Silent "me")
    | measurements types datatypes window tables_eq values_in applies compiled =>
        exact silent_source (table_silent _ _) (by decide : Silent "me")
    | edges types => exact (by decide : Silent (Source.text ⟨"edge", "e"⟩))
    | events origins window applies => exact (by decide : Silent (Source.text ⟨"event", "ev"⟩))
  · intro join member
    rw [selects.joins_eq] at member
    obtain ⟨needed, needed_in, rfl⟩ := List.mem_map.mp member
    exact silent_of_parts
      (joins_silent needed (request.joins_subset (List.mem_of_mem_filter needed_in)))

/-- The conditions of a selection refer to their values. -/
theorem Selects.refersToValues_condition
    (selects : Selects Resources.bundled options expansion request branch)
    (expanded : Resources.bundled.expand options request.lists = .ok expansion) {condition : Condition}
    (member : condition ∈ branch.conditions) : condition.RefersToValues := by
  have known := Scope.expands_of_expand expanded
  rcases selects.mem_conditions expanded member with
    ⟨needed, needed_in, -, gives⟩ | ⟨rows, access, -, applies, in_access⟩ |
      ⟨preferred, predicate, compiled, in_filter⟩
  · exact refersToValues_needed (request.conditions_subset needed_in) gives
  · exact refersToValues_access applies in_access
  · rw [known.within] at compiled
    exact refersToValues_filter rfl rfl known.filter compiled in_filter

/-- The query of a request refers to its values, and to what its projections refer to. -/
theorem refersToValues_of_prepare
    (compiled : request.prepare Resources.bundled options = .ok prepared) :
    prepared.query.RefersToValues := by
  obtain ⟨expansion, branches, expanded, -, selects, query_eq⟩ := exists_query_of_prepare compiled
  rw [query_eq]
  refine ⟨fun text member => silent_prelude member, fun branch member => ?_, fun column member =>
    silent_of_mem_order member⟩
  obtain ⟨source_silent, joins_silent⟩ := (selects branch member).silent_tables
  refine ⟨fun column column_in => ?_, source_silent, joins_silent, fun condition condition_in =>
    (selects branch member).refersToValues_condition expanded condition_in⟩
  rw [(selects branch member).hidden_eq] at column_in
  exact silent_of_mem_hidden column_in

section

variable {fragment : Fragment}

/-- Every projection of a query reads an attribute with a column. -/
theorem exists_field_of_prepare (compiled : request.prepare Resources.bundled options = .ok prepared)
    (member : branch ∈ prepared.query.branches) (fragment_in : fragment ∈ branch.fragments) :
    ∃ list ∈ Mobility.lists, fragment.field ∈ list.attributes ∧ fragment.field.isPointer = false := by
  obtain ⟨expansion, branches, expanded, -, selects, query_eq⟩ := exists_query_of_prepare compiled
  have branches_eq : prepared.query.branches = branches := by rw [query_eq]; rfl
  obtain ⟨shown, fragments_eq⟩ := (selects branch (branches_eq ▸ member)).exists_fragments
  exact exists_field_of_mem_fragmentsOf expanded (fragments_eq ▸ fragment_in)

/-- A projection of a whole value refers to nothing. -/
theorem silent_fragment_of_prepare
    (compiled : request.prepare Resources.bundled options = .ok prepared)
    (member : branch ∈ prepared.query.branches) (fragment_in : fragment ∈ branch.fragments)
    (whole : fragment.path = none) : Silent fragment.text := by
  obtain ⟨list, list_in, field_in, not_pointer⟩ := exists_field_of_prepare compiled member fragment_in
  obtain ⟨field, path⟩ := fragment
  obtain rfl := whole
  exact silent_text_whole list_in field_in not_pointer

/-- A projection closes the literals that it opens if the path of its place does. -/
theorem closed_fragment_of_prepare
    (compiled : request.prepare Resources.bundled options = .ok prepared)
    (member : branch ∈ prepared.query.branches) (fragment_in : fragment ∈ branch.fragments)
    (closed : fragment.field.scalarOnly = true → ∀ path ∈ fragment.path, Closed path) :
    Closed fragment.text := by
  obtain ⟨list, list_in, field_in, not_pointer⟩ := exists_field_of_prepare compiled member fragment_in
  obtain ⟨field, path⟩ := fragment
  cases path with
  | none => exact (silent_fragment_of_prepare compiled member fragment_in rfl).1
  | some path =>
      exact closed_text_place list_in field_in not_pointer fun scalar => closed scalar path rfl

end

/-- The statement of a request refers to each of its values. It can be bound if and only if whatever
the selected places inside values spell refers to values, too; so it can if no path of such a place
has a colon. Where it cannot, a place spells a reference to no value. Only paths into scalar values
are to close the literals that they open: other paths stand in the statement twice. -/
theorem exists_bind_iff_of_prepare
    (compiled : request.prepare Resources.bundled options = .ok prepared)
    (closed : ∀ branch ∈ prepared.query.branches, ∀ fragment ∈ branch.fragments,
      fragment.field.scalarOnly = true → ∀ path ∈ fragment.path, Closed path) :
    (∀ name ∈ prepared.params.map (·.1), name ∈ references prepared.sql) ∧
    ((∃ bound, Statement.bind prepared.sql prepared.params = .ok bound) ↔
      ∀ branch ∈ prepared.query.branches, ∀ fragment ∈ branch.fragments, fragment.path.isSome →
        ∀ name ∈ references fragment.text, name ∈ prepared.params.map (·.1)) ∧
    ((∀ branch ∈ prepared.query.branches, ∀ fragment ∈ branch.fragments, ∀ path ∈ fragment.path,
      ':' ∉ path.toList) → ∃ bound, Statement.bind prepared.sql prepared.params = .ok bound) ∧
    ∀ error, Statement.bind prepared.sql prepared.params = .error error →
      ∃ branch ∈ prepared.query.branches, ∃ fragment ∈ branch.fragments, fragment.path.isSome ∧
        ∃ name ∈ references fragment.text, name ∉ prepared.params.map (·.1) ∧
          error = .internal s!"statement references unbound parameter :{name}" := by
  have spelled := (refersToValues_of_prepare compiled).mem_references_sql
    fun branch member fragment fragment_in =>
      closed_fragment_of_prepare compiled member fragment_in (closed branch member fragment fragment_in)
  have of_place : ∀ branch ∈ prepared.query.branches, ∀ fragment ∈ branch.fragments,
      ∀ name ∈ references fragment.text, fragment.path.isSome := by
    intro branch member fragment fragment_in name name_in
    cases path_eq : fragment.path with
    | none =>
        rw [(silent_fragment_of_prepare compiled member fragment_in path_eq).2] at name_in
        cases name_in
    | some path => rfl
  have bound_iff : (∃ bound, Statement.bind prepared.sql prepared.params = .ok bound) ↔
      ∀ branch ∈ prepared.query.branches, ∀ fragment ∈ branch.fragments, fragment.path.isSome →
        ∀ name ∈ references fragment.text, name ∈ prepared.params.map (·.1) := by
    rw [exists_bind_iff]
    constructor
    · intro bound branch member fragment fragment_in _ name name_in
      exact bound name ((spelled name).mpr (.inl ⟨branch, member, fragment, fragment_in, name_in⟩))
    · intro bound name name_in
      rcases (spelled name).mp name_in with ⟨branch, member, fragment, fragment_in, in_text⟩ | is_value
      · exact bound branch member fragment fragment_in
          (of_place branch member fragment fragment_in name in_text) name in_text
      · exact is_value
  refine ⟨fun name is_value => (spelled name).mpr (.inr is_value), bound_iff, ?_, ?_⟩
  · intro tame
    refine bound_iff.mpr ?_
    rintro branch member ⟨field, path⟩ fragment_in is_place name name_in
    obtain ⟨path, rfl⟩ := Option.isSome_iff_exists.mp is_place
    obtain ⟨list, list_in, field_in, not_pointer⟩ :=
      exists_field_of_prepare compiled member fragment_in
    rw [references_text_place list_in field_in not_pointer
      (tame branch member _ fragment_in path rfl)] at name_in
    cases name_in
  · intro error failed
    obtain ⟨name, name_in, no_value, error_eq⟩ := exists_of_bind_error failed
    obtain ⟨branch, member, fragment, fragment_in, in_text⟩ :=
      ((spelled name).mp name_in).resolve_right no_value
    exact ⟨branch, member, fragment, fragment_in, of_place branch member fragment fragment_in name
      in_text, name, in_text, no_value, error_eq⟩

end

/-- A place with a colon in its path refers to no value, and the statement cannot be bound. -/
theorem exists_bind_iff_of_prepare_colon :
    let options : Options :=
      { representation := ⟨.node, .flat⟩, limit := 200, offset := 0, select := some "smetadata.a:b",
        filter := none, showNull := false, distinct := true, roles := ["GUEST"] }
    let request : Request := .stations "*"
    ∃ prepared, request.prepare Resources.bundled options = .ok prepared ∧
      (∀ branch ∈ prepared.query.branches, ∀ fragment ∈ branch.fragments,
        fragment.field.scalarOnly = true → ∀ path ∈ fragment.path, Closed path) ∧
      (∀ name ∈ prepared.params.map (·.1), name ∈ references prepared.sql) ∧
      ¬∃ bound, Statement.bind prepared.sql prepared.params = .ok bound := by
  intro options request
  have checked : ((request.prepare Resources.bundled options).toOption.any fun prepared =>
      (prepared.query.branches.all fun branch => branch.fragments.all fun fragment =>
        !fragment.field.scalarOnly) &&
      (prepared.query.branches.any fun branch => branch.fragments.any fun fragment =>
        fragment.path.isSome && decide ("b" ∈ references fragment.text)) &&
      decide ("b" ∉ prepared.params.map (·.1))) = true := by
    decide +kernel
  obtain ⟨prepared, found, fine⟩ := (Option.any_eq_true _ _).mp checked
  have compiled := toOption_eq_some_iff.mp found
  simp only [Bool.and_eq_true, List.all_eq_true, List.any_eq_true, Bool.not_eq_true',
    decide_eq_true_eq] at fine
  obtain ⟨⟨no_scalar, branch, member, fragment, fragment_in, is_place, name_in⟩, no_value⟩ := fine
  have closed : ∀ branch ∈ prepared.query.branches, ∀ fragment ∈ branch.fragments,
      fragment.field.scalarOnly = true → ∀ path ∈ fragment.path, Closed path := by
    intro branch member fragment fragment_in scalar
    rw [no_scalar branch member fragment fragment_in] at scalar
    cases scalar
  obtain ⟨referenced, bound_iff, -⟩ := exists_bind_iff_of_prepare compiled closed
  refine ⟨prepared, compiled, closed, referenced, fun bound => no_value ?_⟩
  exact bound_iff.mp bound branch member fragment fragment_in is_place "b" name_in

end StationGateway.Recipe
