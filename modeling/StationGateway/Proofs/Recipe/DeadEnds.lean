import Mathlib
import StationGateway.Proofs.Recipe.Branches

/-!
# Selections without columns

A pointer stands for the attributes of the lists it points to, as far as the request may use these.
Where it may use none of them, the pointer stands for nothing. A request that selects only such
pointers, and no columns of its own that clients do not see, has a selection without columns, which is
no statement of the database. Every other request that is ready for the database selects something.
-/

namespace StationGateway.Recipe

open Text Outcome

/-! ## Dead ends -/

/-- The pointers of the lists of a request that lead to none of these lists. -/
def Request.deadEnds : Request → List String
  | stations _ => ["sdatatypes", "smetadatahistory"]
  | stationsWithHistory .. => ["sdatatypes"]
  | stationsWithTypes .. => ["smetadatahistory", "tmeasurements"]
  | measurements .. => ["smetadatahistory"]
  | edges _ => []
  | events .. => []

/-- Whether all lists among some that define an attribute have it as a pointer that leads to none of
them. -/
def LeadsNowhere (lists : List String) (name : String) : Prop :=
  ∀ list ∈ Mobility.lists, list.name ∈ lists → ∀ field ∈ list.find? name,
    field.isPointer = true ∧ ∀ child ∈ field.children, child ∉ lists

instance (lists : List String) (name : String) : Decidable (LeadsNowhere lists name) :=
  inferInstanceAs (Decidable (∀ list ∈ Mobility.lists, _))

/-- Whether the attributes with some names are the dead ends among the attributes of some lists, each
of which has a column. -/
structure EndsAt (lists names : List String) : Prop where
  /-- The attributes of these names lead nowhere. -/
  dead : ∀ name ∈ names, LeadsNowhere lists name
  /-- No other attribute leads nowhere. -/
  only : ∀ list ∈ Mobility.lists, list.name ∈ lists → ∀ field ∈ list.attributes,
    LeadsNowhere lists field.finalName → field.finalName ∈ names
  /-- Every list has a column. -/
  column : ∀ list ∈ Mobility.lists, list.name ∈ lists → ∃ field ∈ list.attributes,
    list.find? field.finalName = some field ∧ field.isPointer = false
  /-- There are lists of these names. -/
  known : lists ≠ [] ∧ ∀ name ∈ lists, ∃ list ∈ Mobility.lists, list.name = name
  /-- The word for all attributes is no name. -/
  named : "*" ∉ names

instance (lists names : List String) : Decidable (EndsAt lists names) :=
  decidable_of_iff
    ((∀ name ∈ names, LeadsNowhere lists name) ∧
      (∀ list ∈ Mobility.lists, list.name ∈ lists → ∀ field ∈ list.attributes,
        LeadsNowhere lists field.finalName → field.finalName ∈ names) ∧
      (∀ list ∈ Mobility.lists, list.name ∈ lists → ∃ field ∈ list.attributes,
        list.find? field.finalName = some field ∧ field.isPointer = false) ∧
      (lists ≠ [] ∧ ∀ name ∈ lists, ∃ list ∈ Mobility.lists, list.name = name) ∧ "*" ∉ names)
    ⟨fun ⟨dead, only, column, known, named⟩ => ⟨dead, only, column, known, named⟩,
      fun ends => ⟨ends.dead, ends.only, ends.column, ends.known, ends.named⟩⟩

theorem Request.endsAt (request : Request) : EndsAt request.lists request.deadEnds := by
  have stations : EndsAt ["station", "parent"] ["sdatatypes", "smetadatahistory"] := by
    decide +kernel
  have history : EndsAt ["station", "parent", "metadatahistory"] ["sdatatypes"] := by
    decide +kernel
  have datatypes : EndsAt ["station", "parent", "datatype"] ["smetadatahistory", "tmeasurements"] := by
    decide +kernel
  have measurements : EndsAt measurementLists ["smetadatahistory"] := by decide +kernel
  have edges : EndsAt ["edge", "stationbegin", "stationend"] [] := by decide +kernel
  have events : EndsAt ["event", "location", "provenanceevent"] [] := by decide +kernel
  cases request with
  | stations types => exact stations
  | stationsWithHistory types first last => exact history
  | stationsWithTypes types segment => exact datatypes
  | measurements types segment window => exact measurements
  | edges types => exact edges
  | events origins window => exact events

section

variable {options : Options} {expansion : Expansion} {request : Request} {prepared : Prepared}
  {branch : Branch} {lists names : List String}

/-! ## What is projected -/

theorem mem_scope_lists_iff (expanded : Resources.bundled.expand options lists = .ok expansion)
    {list : TargetList} :
    list ∈ expansion.scope.lists ↔ list ∈ Mobility.lists ∧ list.name ∈ lists := by
  rw [Scope.mem_lists, (Scope.expands_of_expand expanded).within]
  exact and_congr_right fun _ => Order.mem_ofList

/-- A selector that can be reached and names a column is projected. -/
theorem fragmentsOf_eq_nil_iff (expanded : Resources.bundled.expand options lists = .ok expansion) :
    expansion.fragmentsOf [] = [] ↔
      ∀ selector, expansion.scope.Reached (options.select.getD "") selector →
        ∀ list ∈ expansion.scope.lists, Scope.projection? list selector = none := by
  obtain ⟨all, gathered, reached_iff⟩ :=
    Expansion.exists_gathered_reached Mobility.names_ascending expanded
  rw [← (Scope.expands_of_expand expanded).within] at reached_iff
  rw [gathered.fragmentsOf_eq, List.flatMap_eq_nil_iff]
  simp only [List.mem_filter, List.isEmpty_nil, Bool.true_or, and_true, List.filterMap_eq_nil_iff,
    reached_iff]
  exact ⟨fun nothing selector reached list list_in => nothing list list_in selector reached,
    fun nothing list list_in selector reached => nothing selector reached list list_in⟩

/-- A column of a list is projected by its own name. -/
theorem EndsAt.exists_projection (ends : EndsAt lists names) {list : TargetList}
    (list_in : list ∈ Mobility.lists) (allowed : list.name ∈ lists) :
    ∃ name ∈ list.finalNames, Scope.projection? list (.whole name) ≠ none := by
  obtain ⟨field, field_in, found, not_pointer⟩ := ends.column list list_in allowed
  refine ⟨field.finalName, List.mem_map_of_mem field_in, Option.ne_none_iff_exists'.mpr
    ⟨⟨field, none⟩, ?_⟩⟩
  exact Scope.projection?_eq_some_iff.mpr ⟨found, not_pointer, rfl⟩

/-- What is selected is asked for, unless everything is. -/
theorem asksFor_iff {scope : Scope} {select : String} (filled : Scope.spelled select ≠ [])
    (no_star : ∀ selector ∈ Scope.spelled select, selector.name ≠ "*") (selector : Selector) :
    scope.AsksFor select selector ↔ selector ∈ Scope.spelled select := by
  rw [Scope.AsksFor, if_neg]
  rintro (blank | ⟨other, other_in, is_star⟩)
  · exact filled blank
  · exact no_star other other_in is_star

/-- If nothing is projected, no list has all its attributes reached: one of them is a column. -/
theorem EndsAt.not_all_reached (ends : EndsAt lists names)
    (expanded : Resources.bundled.expand options lists = .ok expansion)
    (nothing : expansion.fragmentsOf [] = []) {list : TargetList}
    (list_in : list ∈ expansion.scope.lists) :
    ¬∀ name ∈ list.finalNames,
      expansion.scope.Reached (options.select.getD "") (.whole name) := by
  intro reached
  obtain ⟨in_catalogue, allowed⟩ := (mem_scope_lists_iff expanded).mp list_in
  obtain ⟨name, named, projected⟩ := ends.exists_projection in_catalogue allowed
  exact projected ((fragmentsOf_eq_nil_iff expanded).mp nothing _ (reached name named) list list_in)

/-- If nothing is projected, something is selected, and not everything. -/
theorem EndsAt.selects_some (ends : EndsAt lists names)
    (expanded : Resources.bundled.expand options lists = .ok expansion)
    (nothing : expansion.fragmentsOf [] = []) :
    Scope.spelled (options.select.getD "") ≠ [] ∧
      ∀ selector ∈ Scope.spelled (options.select.getD ""), selector.name ≠ "*" := by
  by_contra for_all
  have asks_for_all : Scope.spelled (options.select.getD "") = [] ∨
      ∃ other ∈ Scope.spelled (options.select.getD ""), other.name = "*" := by
    simpa [or_iff_not_imp_left] using for_all
  obtain ⟨name, allowed⟩ := List.exists_mem_of_ne_nil _ ends.known.1
  obtain ⟨list, in_catalogue, rfl⟩ := ends.known.2 name allowed
  have list_in := (mem_scope_lists_iff expanded).mpr ⟨in_catalogue, allowed⟩
  refine ends.not_all_reached expanded nothing list_in fun name named => .asked ?_
  rw [Scope.AsksFor, if_pos asks_for_all]
  exact ⟨list, list_in, name, named, rfl⟩

/-- If nothing is projected, what is selected leads nowhere: it is no column, and no pointer to a list
that the request may use, which would have one. -/
theorem EndsAt.leadsNowhere (ends : EndsAt lists names)
    (expanded : Resources.bundled.expand options lists = .ok expansion)
    (nothing : expansion.fragmentsOf [] = []) {selector : Selector}
    (asks : expansion.scope.AsksFor (options.select.getD "") selector) :
    LeadsNowhere lists selector.name := by
  intro list in_catalogue allowed field found
  have list_in := (mem_scope_lists_iff expanded).mpr ⟨in_catalogue, allowed⟩
  refine ⟨?_, fun child child_in child_allowed => ?_⟩
  · by_contra not_pointer
    have projected : Scope.projection? list selector = some ⟨field, selector.path⟩ :=
      Scope.projection?_eq_some_iff.mpr ⟨found, Bool.eq_false_iff.mpr not_pointer, rfl⟩
    rw [(fragmentsOf_eq_nil_iff expanded).mp nothing selector (.asked asks) list list_in]
      at projected
    cases projected
  · obtain ⟨target, target_known, rfl⟩ := ends.known.2 child child_allowed
    have target_in := (mem_scope_lists_iff expanded).mpr ⟨target_known, child_allowed⟩
    exact ends.not_all_reached expanded nothing target_in fun name named => .led (.asked asks)
      ⟨list, list_in, field, found, target, target_in, child_in, name, named, rfl⟩

/-- What is asked for is an attribute of a list that the request may use. -/
theorem exists_field_of_asksFor
    (expanded : Resources.bundled.expand options lists = .ok expansion) {selector : Selector}
    (asks : expansion.scope.AsksFor (options.select.getD "") selector) :
    ∃ list ∈ Mobility.lists, list.name ∈ lists ∧ ∃ field ∈ list.attributes,
      field.finalName = selector.name := by
  have sorted : (Mobility.catalogue.lists.map (·.name)).Nodup :=
    Mobility.names_ascending.imp fun lt => lt.ne
  obtain ⟨within, -, -, chosen, used, projected, -⟩ := Scope.expands_of_expand expanded
  rw [within] at asks
  obtain ⟨list, list_in, defines⟩ := Scope.defines_of_projections sorted projected asks
  rw [← within] at list_in
  obtain ⟨in_catalogue, allowed⟩ := (mem_scope_lists_iff expanded).mp list_in
  obtain ⟨field, found⟩ := Option.isSome_iff_exists.mp defines
  exact ⟨list, in_catalogue, allowed, field, List.mem_of_find?_eq_some found,
    Scope.finalName_of_find? found⟩

/-- From dead ends, nothing but dead ends is reached. -/
theorem EndsAt.leadsNowhere_of_reached (ends : EndsAt lists names)
    (expanded : Resources.bundled.expand options lists = .ok expansion)
    (dead : ∀ selector, expansion.scope.AsksFor (options.select.getD "") selector →
      selector.name ∈ names) {selector : Selector}
    (reached : expansion.scope.Reached (options.select.getD "") selector) :
    LeadsNowhere lists selector.name := by
  induction reached with
  | asked asks => exact ends.dead _ (dead _ asks)
  | led _ leads nowhere =>
      obtain ⟨list, list_in, field, found, child, child_in, points, -⟩ := leads
      obtain ⟨in_catalogue, allowed⟩ := (mem_scope_lists_iff expanded).mp list_in
      exact absurd ((mem_scope_lists_iff expanded).mp child_in).2
        ((nowhere list in_catalogue allowed field found).2 _ points)

/-- Nothing is projected exactly if dead ends are selected and nothing else. -/
theorem EndsAt.fragmentsOf_eq_nil_iff (ends : EndsAt lists names)
    (expanded : Resources.bundled.expand options lists = .ok expansion) :
    expansion.fragmentsOf [] = [] ↔ Scope.spelled (options.select.getD "") ≠ [] ∧
      ∀ selector ∈ Scope.spelled (options.select.getD ""), selector.name ∈ names := by
  constructor
  · intro nothing
    obtain ⟨filled, no_star⟩ := ends.selects_some expanded nothing
    refine ⟨filled, fun selector spelled => ?_⟩
    have asks : expansion.scope.AsksFor (options.select.getD "") selector :=
      (asksFor_iff filled no_star selector).mpr spelled
    have nowhere := ends.leadsNowhere expanded nothing asks
    obtain ⟨list, in_catalogue, allowed, field, field_in, name_eq⟩ :=
      exists_field_of_asksFor expanded asks
    rw [← name_eq] at nowhere ⊢
    exact ends.only list in_catalogue allowed field field_in nowhere
  · rintro ⟨filled, all_dead⟩
    have no_star : ∀ selector ∈ Scope.spelled (options.select.getD ""), selector.name ≠ "*" :=
      fun selector spelled is_star => ends.named (is_star ▸ all_dead selector spelled)
    rw [Recipe.fragmentsOf_eq_nil_iff expanded]
    intro selector reached list list_in
    have nowhere := ends.leadsNowhere_of_reached expanded
      (fun other asks => all_dead other ((asksFor_iff filled no_star other).mp asks)) reached
    obtain ⟨in_catalogue, allowed⟩ := (mem_scope_lists_iff expanded).mp list_in
    rw [Scope.projection?]
    cases found : list.find? selector.name with
    | none => rfl
    | some field => exact if_pos (nowhere list in_catalogue allowed field found).1

/-! ## Selections -/

/-- The text between the word that begins a selection and its first table. -/
def Branch.selectText (branch : Branch) : String :=
  join ", " branch.columns

/-- A selection begins with its columns, if it has any, and its first table. -/
theorem Branch.text_eq_join (branch : Branch) (word : String) :
    branch.text word = join " " ([word] ++
      (if branch.columns = [] then [] else [branch.selectText]) ++
        ["from " ++ branch.source.text] ++ branch.joins.map Join.text ++
          ["where " ++ join " and " (branch.conditions.map Condition.text)]) := by
  simp only [Branch.text, Branch.parts, Branch.selectText, List.isEmpty_iff]

/-- The columns of a selection have texts, so that there is one unless there are no columns. -/
theorem Selects.selectText_eq_empty_iff {resources : Resources}
    (selects : Selects resources options expansion request branch)
    (expanded : Resources.bundled.expand options request.lists = .ok expansion) :
    branch.selectText = "" ↔ branch.columns = [] := by
  rw [Branch.selectText, join_eq_empty_iff]
  intro text text_in
  rcases List.mem_append.mp text_in with in_hidden | in_fragments
  · obtain ⟨column, -, rfl⟩ := List.mem_map.mp in_hidden
    simp [HiddenColumn.text]
  · obtain ⟨fragment, fragment_in, rfl⟩ := List.mem_map.mp in_fragments
    obtain ⟨shown, fragments_eq⟩ := selects.exists_fragments
    obtain ⟨list, list_in, field_in, not_pointer⟩ :=
      exists_field_of_mem_fragmentsOf expanded (fragments_eq ▸ fragment_in)
    exact Mobility.text_ne_empty list_in field_in not_pointer fragment.path

/-- A selection that is not of measurements projects from all lists. -/
theorem Selects.fragments_eq {resources : Resources} (others : request.measures = false)
    (selects : Selects resources options expansion request branch) :
    branch.fragments = expansion.fragmentsOf [] := by
  cases selects with
  | measurements => cases others
  | _ => rfl

/-- Columns that clients do not see are missing outside trees, unless measurements are asked for. -/
theorem Request.hidden_eq_nil_iff :
    request.hidden options expansion = [] ↔ options.isTree = false ∧ request.measures = false := by
  cases shape : options.isTree <;>
    cases request <;>
      simp [Request.hidden, shape, Request.keys, Request.flatKeys, Request.measures, stationKeys,
        datatypeKeys, edgeKeys, eventKeys]

/-! ## Empty selections -/

/-- Whether a request selects dead ends only, and is not given columns that clients do not see. -/
def Request.SelectsNothing (options : Options) (request : Request) : Prop :=
  options.isTree = false ∧ request.measures = false ∧
    Scope.spelled (options.select.getD "") ≠ [] ∧
    ∀ selector ∈ Scope.spelled (options.select.getD ""), selector.name ∈ request.deadEnds

instance (options : Options) (request : Request) : Decidable (request.SelectsNothing options) :=
  inferInstanceAs (Decidable (_ ∧ _ ∧ _ ∧ _))

/-- The selections of a request are without columns exactly if it selects dead ends only. -/
theorem Selects.columns_eq_nil_iff {resources : Resources}
    (selects : Selects resources options expansion request branch)
    (expanded : Resources.bundled.expand options request.lists = .ok expansion) :
    branch.columns = [] ↔ request.SelectsNothing options := by
  rw [Branch.columns, List.append_eq_nil_iff, List.map_eq_nil_iff, List.map_eq_nil_iff,
    selects.hidden_eq, Request.hidden_eq_nil_iff, Request.SelectsNothing, and_assoc]
  refine and_congr_right fun _ => and_congr_right fun others => ?_
  rw [selects.fragments_eq others, request.endsAt.fragmentsOf_eq_nil_iff expanded]

/-- The selections of a request that is ready for the database have columns between the word they
begin with and their first table. If the request selects dead ends only, nothing stands there. -/
theorem selectText_eq_empty_iff_of_prepare {rules : Access.RuleFiles}
    (compiled : request.prepare ⟨Mobility.catalogue, .standard, rules⟩ options = .ok prepared) :
    prepared.query.branches ≠ [] ∧ ∀ branch ∈ prepared.query.branches,
      (branch.selectText = "" ↔ request.SelectsNothing options) ∧
        ∀ word, branch.text word = join " " ([word] ++
          (if branch.selectText = "" then [] else [branch.selectText]) ++
            ["from " ++ branch.source.text] ++ branch.joins.map Join.text ++
              ["where " ++ join " and " (branch.conditions.map Condition.text)]) := by
  obtain ⟨expansion, branches, expanded, branches_ne, all_select, query_eq⟩ :=
    exists_query_of_prepare compiled
  rw [query_eq]
  refine ⟨branches_ne, fun branch branch_in => ?_⟩
  have selects := all_select branch branch_in
  have no_columns := selects.selectText_eq_empty_iff expanded
  refine ⟨no_columns.trans (selects.columns_eq_nil_iff expanded), fun word => ?_⟩
  simp only [Branch.text_eq_join, no_columns]

/-- Stations may not use the types of their data. So nothing is selected of a station for which only
these are asked, and its first table follows at once. -/
theorem selectText_eq_empty_iff_of_prepare_datatypes :
    let options : Options :=
      { representation := ⟨.node, .flat⟩, limit := 200, offset := 0, select := some "sdatatypes",
        filter := none, showNull := false, distinct := true, roles := ["GUEST"] }
    ∃ prepared, (Request.stations "*").prepare Resources.bundled options = .ok prepared ∧
      (∃ branch ∈ prepared.query.branches, branch.selectText = "") ∧
      prepared.sql = "select distinct from station s where s.available = true " ++
        "limit :limit offset :offset" := by
  intro options
  have sql_eq : ((Request.stations "*").prepare Resources.bundled options).toOption.map
      (fun prepared => prepared.sql) =
      some ("select distinct from station s where s.available = true " ++
        "limit :limit offset :offset") := by
    decide +kernel
  obtain ⟨prepared, is_prepared, text_eq⟩ := Option.map_eq_some_iff.mp sql_eq
  have compiled := toOption_eq_some_iff.mp is_prepared
  obtain ⟨filled, selects⟩ := selectText_eq_empty_iff_of_prepare compiled
  obtain ⟨branch, branch_in⟩ := List.exists_mem_of_ne_nil _ filled
  exact ⟨prepared, compiled, ⟨branch, branch_in,
    (selects branch branch_in).1.mpr (by decide +kernel)⟩, text_eq⟩

end

end StationGateway.Recipe
