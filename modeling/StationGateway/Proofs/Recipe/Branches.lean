import Mathlib
import StationGateway.Proofs.Expansion.Columns
import StationGateway.Proofs.Expansion.Gathered
import StationGateway.Proofs.Expansion.Outputs
import StationGateway.Proofs.Recipe.Stages

/-!
# Selections of requests

Which lists a request may use, which selections it has for the expansion of its parameters, and what
its query is made of. -/

namespace StationGateway.Recipe

open Text Access Outcome

namespace Request

/-- The lists that a request may use. -/
def lists : Request → List String
  | stations _ => ["station", "parent"]
  | stationsWithHistory .. => ["station", "parent", "metadatahistory"]
  | stationsWithTypes .. => ["station", "parent", "datatype"]
  | measurements .. => measurementLists
  | edges _ => ["edge", "stationbegin", "stationend"]
  | events .. => ["event", "location", "provenanceevent"]

/-- What stands in front of the selections of a request. -/
def prelude : Request → Option String
  | events _ window => if window = .latest then some latestPrelude else none
  | _ => none

/-- The columns that nest the rows of a request, for what is in use. -/
def keys (expansion : Expansion) : Request → List HiddenColumn
  | stations _ => stationKeys
  | stationsWithHistory .. => stationKeys
  | stationsWithTypes .. => datatypeKeys
  | measurements .. => datatypeKeys
  | edges _ => edgeKeys
  | events .. => eventKeys (expansion.usesList "location")

/-- The columns that order the rows of a request outside trees. -/
def flatKeys : Request → List HiddenColumn
  | measurements .. => [timeKey]
  | _ => []

/-- The columns that clients do not see. -/
def hidden (options : Options) (expansion : Expansion) (request : Request) : List HiddenColumn :=
  if options.isTree then request.keys expansion else request.flatKeys

/-- What the rows of a request are ordered by. -/
def order (options : Options) (expansion : Expansion) (request : Request) : List String :=
  if options.isTree then (request.keys expansion).map HiddenColumn.label
  else request.flatKeys.map fun key => key.label ++ " asc"

end Request

namespace Branch

/-- The columns of the answer, hidden ones first. -/
def outputs (branch : Branch) : List Output :=
  (branch.hidden.map fun column => ⟨column.expression, column.label⟩) ++
    branch.fragments.flatMap Fragment.outputs

/-- The labels of the columns, hidden ones first. -/
def labels (branch : Branch) : List String :=
  branch.outputs.map fun output => output.label

end Branch

/-- The selections of a request. -/
inductive Selects (resources : Resources) (options : Options) (expansion : Expansion) :
    Request → Branch → Prop where
  /-- Stations. -/
  | stations (types : String) : Selects resources options expansion (.stations types)
      (stationBranch options (restriction? types) expansion)
  /-- Stations with the history of their metadata. -/
  | stationsWithHistory (types : String) (first last : Option Time.Instant) :
      Selects resources options expansion (.stationsWithHistory types first last)
        (historyBranch options (restriction? types) first last expansion)
  /-- Stations with the types of their data, from one table. -/
  | stationsWithTypes (types datatypes : String) {table : String} (member : table ∈ currentTables) :
      Selects resources options expansion (.stationsWithTypes types datatypes)
        (typeBranch options (restriction? types) (restriction? datatypes) expansion table)
  /-- Measurements from one table. -/
  | measurements (types datatypes : String) (window : Option Window) {tables : List ValueTable}
      (tables_eq : valueTables expansion = .ok tables) {values : ValueTable}
      (member : values ∈ tables) {access : List Condition}
      (applies : resources.access options .stations = .ok access) {predicate : Option Predicate}
      (compiled : expansion.predicateFor values.list = .ok predicate) :
      Selects resources options expansion (.measurements types datatypes window)
        (measurementBranch options (restriction? types) (restriction? datatypes) window expansion
          access values predicate)
  /-- Edges. -/
  | edges (types : String) : Selects resources options expansion (.edges types)
      (edgeBranch options (restriction? types) expansion)
  /-- Events. -/
  | events (origins : String) (window : EventWindow) {access : List Condition}
      (applies : resources.access options .events = .ok access) :
      Selects resources options expansion (.events origins window)
        (eventBranch options (restriction? origins) window expansion access)

section

variable {resources : Resources} {options : Options} {expansion : Expansion} {request : Request}
  {prepared : Prepared} {branch : Branch}

/-- A request that is ready for the database has a query made of its selections. -/
theorem exists_query_of_prepare (compiled : request.prepare resources options = .ok prepared) :
    ∃ expansion branches, resources.expand options request.lists = .ok expansion ∧ branches ≠ [] ∧
      (∀ branch ∈ branches, Selects resources options expansion request branch) ∧
      prepared.query =
        { pagedQuery options branches (request.order options expansion) with
          prelude := request.prelude } := by
  cases request with
  | stations types =>
      obtain ⟨expansion, expanded, query_eq⟩ := exists_of_stations compiled
      exact ⟨expansion, _, expanded, List.cons_ne_nil _ _,
        List.forall_mem_singleton.mpr (.stations types), query_eq⟩
  | stationsWithHistory types first last =>
      obtain ⟨expansion, expanded, query_eq⟩ := exists_of_stationsWithHistory compiled
      exact ⟨expansion, _, expanded, List.cons_ne_nil _ _,
        List.forall_mem_singleton.mpr (.stationsWithHistory types first last), query_eq⟩
  | stationsWithTypes types datatypes =>
      obtain ⟨expansion, expanded, query_eq⟩ := exists_of_stationsWithTypes compiled
      exact ⟨expansion, _, expanded, by simp [currentTables],
        List.forall_mem_map.mpr fun table member => .stationsWithTypes types datatypes member, query_eq⟩
  | measurements types datatypes window =>
      obtain ⟨expansion, tables, access, branches, expanded, tables_eq, applies, made, query_eq⟩ :=
        exists_of_measurements compiled
      refine ⟨expansion, branches, expanded, ?_, fun branch member => ?_, query_eq⟩
      · rintro rfl
        cases made
        exact valueTables_ne_nil tables_eq rfl
      · obtain ⟨values, values_in, predicate, predicate_eq, rfl⟩ := exists_of_mem_right made member
        exact .measurements types datatypes window tables_eq values_in applies predicate_eq
  | edges types =>
      obtain ⟨expansion, expanded, query_eq⟩ := exists_of_edges compiled
      exact ⟨expansion, _, expanded, List.cons_ne_nil _ _,
        List.forall_mem_singleton.mpr (.edges types), query_eq⟩
  | events origins window =>
      obtain ⟨expansion, access, expanded, applies, query_eq⟩ := exists_of_events compiled
      exact ⟨expansion, _, expanded, List.cons_ne_nil _ _,
        List.forall_mem_singleton.mpr (.events origins window applies), query_eq⟩

theorem Selects.hidden_eq (selects : Selects resources options expansion request branch) :
    branch.hidden = request.hidden options expansion := by
  cases selects <;> rfl

/-- A selection projects what the expansion projects from some lists. -/
theorem Selects.exists_fragments (selects : Selects resources options expansion request branch) :
    ∃ shown, branch.fragments = expansion.fragmentsOf shown := by
  cases selects <;> exact ⟨_, rfl⟩

/-- An expansion of a request for the API gathers the columns of some selectors. -/
theorem exists_gathered_of_expand {lists : List String}
    (expanded : Resources.bundled.expand options lists = .ok expansion) :
    ∃ all, expansion.Gathered all :=
  Expansion.exists_gathered Mobility.names_ascending expanded

/-- The lists that an expansion may use are those of the request. -/
theorem mem_scope_lists (expanded : Resources.bundled.expand options request.lists = .ok expansion)
    {list : TargetList} (member : list ∈ expansion.scope.lists) :
    list ∈ Mobility.lists ∧ list.name ∈ request.lists := by
  rw [Scope.lists, (Scope.expands_of_expand expanded).within] at member
  obtain ⟨in_catalogue, allowed⟩ := List.mem_filter.mp member
  exact ⟨in_catalogue, Order.mem_ofList.mp (List.contains_iff_mem.mp allowed)⟩

/-- What an expansion projects are columns of the API. -/
theorem exists_field_of_mem_fragmentsOf {lists shown : List String}
    (expanded : Resources.bundled.expand options lists = .ok expansion) {fragment : Fragment}
    (member : fragment ∈ expansion.fragmentsOf shown) :
    ∃ list ∈ Mobility.lists, fragment.field ∈ list.attributes ∧ fragment.field.isPointer = false := by
  obtain ⟨all, gathered⟩ := exists_gathered_of_expand expanded
  obtain ⟨list, list_in, -, ⟨selector, -, projected⟩, -⟩ := gathered.exists_of_mem member
  obtain ⟨found, not_pointer, -⟩ := Scope.projection?_eq_some_iff.mp projected
  have in_catalogue := List.mem_of_mem_filter list_in
  rw [(Scope.expands_of_expand expanded).within] at in_catalogue
  exact ⟨list, in_catalogue, List.mem_of_find?_eq_some found, not_pointer⟩

/-! ## Access rules -/

/-- What guests see of the rows that have rules. -/
def guestRule : RowClass → String
  | .stations => "(s.origin is null or s.origin not like 'CLOSED/%')"
  | .events => "(ev.origin is null or ev.origin not like 'CLOSED/%')"

/-- Only guests have a rule. -/
theorem rules_eq (rows : RowClass) :
    RuleFiles.standard.rules rows = .ok [("GUEST", guestRule rows)] := by
  have found : (RuleFiles.standard.rules rows).toOption = some [("GUEST", guestRule rows)] := by
    cases rows <;> decide +kernel
  exact toOption_eq_some_iff.mp found

/-- The access rule of a caller lets nothing through, or what guests see. -/
theorem exists_rule_of_mem_access {rows : RowClass} {access : List Condition}
    (applies : Resources.bundled.access options rows = .ok access) {condition : Condition}
    (member : condition ∈ access) :
    ∃ rule, condition = .access rule ∧ (rule = "(false)" ∨ ∃ predicates,
      (∀ predicate ∈ predicates, predicate = guestRule rows) ∧
        rule = "(" ++ join " or " predicates ++ ")") := by
  rw [Resources.access] at applies
  split at applies
  next rule found =>
    obtain rfl := Except.ok.inj applies
    obtain ⟨text, text_in, rfl⟩ := List.mem_map.mp member
    rw [Option.mem_toList] at text_in
    subst text_in
    refine ⟨text, rfl, ?_⟩
    have bundled : Resources.bundled.rules = RuleFiles.standard := rfl
    rw [bundled, RuleFiles.condition?] at found
    split_ifs at found with is_admin
    · cases found
    rw [rules_eq] at found
    simp only [Bind.bind, Except.bind] at found
    split at found
    · exact .inl (Option.some.inj (Except.ok.inj found)).symm
    · refine .inr ⟨_, fun predicate in_found => ?_, (Option.some.inj (Except.ok.inj found)).symm⟩
      obtain ⟨role, -, role_found⟩ := List.mem_filterMap.mp in_found
      obtain ⟨-, same⟩ := Prod.mk.inj (List.mem_singleton.mp (Order.mem_of_find? role_found))
      exact same
  next => cases applies

/-- The access rule of a caller names no columns but those of the rule for guests. -/
theorem columnsIn_of_mem_access {rows : RowClass} {access : List Condition}
    (applies : Resources.bundled.access options rows = .ok access) {condition : Condition}
    (member : condition ∈ access) :
    ∃ rule, condition = .access rule ∧
      ∀ column ∈ Sql.columnsIn rule, column ∈ Sql.columnsIn (guestRule rows) := by
  have guest_closed : Statement.Closed (guestRule rows) := by
    cases rows <;> exact (Statement.silent_ofList (by decide)).1
  have or_closed : Statement.Closed "or" := by decide
  have no_columns : Sql.columnsIn "or" = [] := by decide
  have separator_eq : " or " = " " ++ "or" ++ " " := by decide
  have separates_or : Statement.Separates " or " := Statement.separates_of_isSeparator (by decide)
  obtain ⟨rule, rfl, rfl | ⟨predicates, all_guest, rfl⟩⟩ := exists_rule_of_mem_access applies member
  · have nothing : Sql.columnsIn "(false)" = [] := by decide
    refine ⟨_, rfl, fun column column_in => ?_⟩
    rw [nothing] at column_in
    cases column_in
  · have closed : ∀ predicate ∈ predicates, Statement.Closed predicate := fun predicate found =>
      all_guest predicate found ▸ guest_closed
    refine ⟨_, rfl, fun column column_in => ?_⟩
    rw [Sql.columnsIn_group (Statement.references_join separates_or closed).1, separator_eq]
      at column_in
    obtain ⟨predicate, found, in_predicate⟩ :=
      Sql.mem_columnsIn_join or_closed no_columns closed column_in
    exact all_guest predicate found ▸ in_predicate

end

end StationGateway.Recipe
