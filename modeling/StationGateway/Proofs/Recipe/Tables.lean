import Mathlib
import StationGateway.Proofs.Recipe.Needs

/-!
# Tables of selections

The columns that a selection names are qualified with the names that its tables go by. A table is
joined only if a list or an attribute of it is in use, so whatever stands in a selection must be
there for the same need as the tables that it names. This is so for each list of the catalogue and
each condition, and what is selected or filtered marks its list and its attribute as in use. -/

namespace StationGateway.Recipe

open Text Access StationGateway.Sql Outcome

/-! ## Names of tables -/

/-- The names that the tables of a selection go by, in the order in which they are introduced. -/
def Branch.names (branch : Branch) : List String :=
  branch.source.name :: branch.joins.map fun join => join.source.name

/-- Whether a text names columns of some tables only. -/
def Within (names : List String) (text : String) : Prop :=
  ∀ column ∈ columnsIn text, qualifier column ∈ names

/-- Whether tables are joined on their own columns and those of tables before them. -/
def Join.InOrder (names : List String) : List Join → Prop
  | [] => True
  | join :: rest =>
      Within (join.source.name :: names) join.condition ∧ InOrder (join.source.name :: names) rest

/-- A selection that names columns of its own tables only, when it projects and compares what an
expansion does and is ordered by some texts. -/
structure Branch.Joined (branch : Branch) (expansion : Expansion) (order : List String) : Prop where
  /-- No two tables go by one name. -/
  distinct : branch.names.Nodup
  /-- Tables are joined on columns of tables that are there already. -/
  joins : Join.InOrder [branch.source.name] branch.joins
  /-- The attributes that are projected are columns of its tables. -/
  projected : ∀ fragment ∈ branch.fragments, ∀ column ∈ fragment.field.column?,
    Within branch.names column
  /-- The attributes that the filter compares are columns of its tables, in all lists. -/
  compared : ∀ clause ∈ Scope.clausesOf expansion.filter, ∀ list ∈ expansion.scope.lists,
    ∀ field ∈ list.find? clause.key, ∀ column ∈ field.column?, Within branch.names column
  /-- The access rule, the filter and all other conditions are about its tables. -/
  conditions : ∀ condition ∈ branch.conditions, ∀ column ∈ condition.columns,
    qualifier column ∈ branch.names
  /-- The columns that clients do not see are columns of its tables. -/
  hidden : ∀ column ∈ branch.hidden, Within branch.names column.expression
  /-- The order is about its tables. -/
  order : ∀ text ∈ order, Within branch.names text

/-- A name of a table, and what the table is needed for. -/
structure NeededName where
  /-- What the table is needed for. -/
  need : Need
  /-- The name. -/
  name : String
  deriving DecidableEq

/-- The name of a table that is joined. -/
def NeededJoin.named (needed : NeededJoin) : NeededName :=
  ⟨needed.need, needed.join.source.name⟩

/-- The names among some that an expansion needs. -/
def namesFor (expansion : Expansion) (names : List NeededName) : List String :=
  (names.filter fun needed => needed.need.holds expansion).map NeededName.name

/-- The names of the tables that a request may need. -/
def Request.names (request : Request) : List NeededName :=
  ⟨.rows, request.entry⟩ :: request.joins.map NeededJoin.named

/-- What there is a need for as soon as there is a given one. -/
def Need.implied : Need → List Need
  | rows => [rows]
  | list name => [rows, list name]
  | field owner key => [rows, list owner, field owner key]

/-- Whether the tables that a text names are there as soon as the text is. -/
def Covered (names : List NeededName) (need : Need) (text : String) : Prop :=
  ∀ column ∈ columnsIn text, ∃ needed ∈ names,
    needed.name = qualifier column ∧ needed.need ∈ need.implied

theorem Covered.mono {names others : List NeededName} {need : Need} {text : String}
    (covered : Covered names need text) (within : names ⊆ others) : Covered others need text := by
  intro column column_in
  obtain ⟨needed, needed_in, same, implied⟩ := covered column column_in
  exact ⟨needed, within needed_in, same, implied⟩

theorem covered_iff {names : List NeededName} {need : Need} {text : String} :
    Covered names need text ↔ ∀ column ∈ columnsFrom false [] text.toList, ∃ needed ∈ names,
      needed.name.toList = column.takeWhile (fun char => char ≠ '.') ∧
        needed.need ∈ need.implied := by
  have same : ∀ (needed : NeededName) (column : List Char),
      needed.name = qualifier (String.ofList column) ↔
        needed.name.toList = column.takeWhile (fun char => char ≠ '.') := fun needed column => by
    rw [qualifier, String.toList_ofList, ← String.toList_inj, String.toList_ofList]
  simp only [Covered, columnsIn, List.forall_mem_map, same]

instance (names : List NeededName) (need : Need) (text : String) :
    Decidable (Covered names need text) :=
  decidable_of_iff _ covered_iff.symm

/-- Whether the tables that are joined are joined in order, whichever of them are there. -/
def NeededJoin.InOrder (names : List NeededName) : List NeededJoin → Prop
  | [] => True
  | needed :: rest =>
      Covered (needed.named :: names) needed.need needed.join.condition ∧
        InOrder (needed.named :: names) rest

instance NeededJoin.decidableInOrder (names : List NeededName) :
    ∀ joins, Decidable (NeededJoin.InOrder names joins)
  | [] => isTrue trivial
  | needed :: rest =>
      have := decidableInOrder (needed.named :: names) rest
      inferInstanceAs (Decidable (_ ∧ _))

/-- Whether an attribute that there is a need for belongs to one list only. -/
def Need.Owned (lists : List String) : Need → Prop
  | field owner key => ∀ list ∈ Mobility.lists, list.name ∈ lists → (list.find? key).isSome →
      list.name = owner
  | _ => True

instance (lists : List String) : ∀ need : Need, Decidable (need.Owned lists)
  | .rows => isTrue trivial
  | .list _ => isTrue trivial
  | .field _ _ => inferInstanceAs (Decidable (∀ list ∈ Mobility.lists, _))

/-- The names that the columns of lists are qualified with. -/
def listNames : List (String × List NeededName) :=
  [ ("station", [⟨.rows, "s"⟩, ⟨.field "station" "smetadata", "m"⟩]),
    ("parent", [⟨.list "parent", "p"⟩, ⟨.field "parent" "pmetadata", "pm"⟩]),
    ("metadatahistory", [⟨.rows, "mh"⟩]),
    ("datatype", [⟨.rows, "t"⟩, ⟨.field "datatype" "tmetadata", "tm"⟩]),
    ("measurement", [⟨.rows, "me"⟩]),
    ("measurementdouble", [⟨.rows, "me"⟩]),
    ("measurementstring", [⟨.rows, "me"⟩]),
    ("measurementjson", [⟨.rows, "me"⟩]),
    ("provenance", [⟨.list "provenance", "pr"⟩]),
    ("edge", [⟨.rows, "e"⟩, ⟨.rows, "i"⟩]),
    ("stationbegin", [⟨.list "stationbegin", "o"⟩]),
    ("stationend", [⟨.list "stationend", "d"⟩]),
    ("event", [⟨.rows, "ev"⟩, ⟨.field "event" "evmetadata", "evm"⟩]),
    ("location", [⟨.list "location", "loc"⟩]),
    ("provenanceevent", [⟨.list "provenanceevent", "pr"⟩]) ]

private theorem listNames_checked : ∀ list ∈ Mobility.lists, ∀ known ∈ listNames,
    known.1 = list.name → ∀ field ∈ list.attributes, ∀ column ∈ field.column?,
      Covered known.2 (.field list.name field.finalName) column := by
  decide +kernel

/-- Tables that have the columns of some lists, of some conditions and of some keys. -/
structure Serves (entry : String) (joins : List NeededJoin) (lists : List String)
    (conditions : List NeededCondition) (keys : List HiddenColumn) : Prop where
  /-- No two tables go by one name. -/
  distinct : (entry :: joins.map fun needed => needed.join.source.name).Nodup
  /-- Tables are joined on columns of tables that are there already. -/
  joined : NeededJoin.InOrder [⟨.rows, entry⟩] joins
  /-- An attribute that a table is needed for belongs to one list only. -/
  owned : ∀ needed ∈ joins, needed.need.Owned lists
  /-- An attribute that a condition is needed for belongs to one list only. -/
  required : ∀ needed ∈ conditions, needed.need.Owned lists
  /-- The columns of lists are those of the tables. -/
  columns : ∀ name ∈ lists, ∃ known ∈ listNames, known.1 = name ∧
    ∀ needed ∈ known.2, needed ∈ (⟨.rows, entry⟩ : NeededName) :: joins.map NeededJoin.named
  /-- Conditions are about the tables. -/
  conditions : ∀ needed ∈ conditions,
    Covered (⟨.rows, entry⟩ :: joins.map NeededJoin.named) needed.need needed.text
  /-- Keys are columns of tables that are always there. -/
  keys : ∀ key ∈ keys, Covered (⟨.rows, entry⟩ :: joins.map NeededJoin.named) .rows key.expression

instance (entry : String) (joins : List NeededJoin) (lists : List String)
    (conditions : List NeededCondition) (keys : List HiddenColumn) :
    Decidable (Serves entry joins lists conditions keys) :=
  decidable_of_iff (_ ∧ _ ∧ _ ∧ _ ∧ _ ∧ _ ∧ _)
    ⟨fun ⟨distinct, joined, owned, required, columns, conditions, keys⟩ =>
      ⟨distinct, joined, owned, required, columns, conditions, keys⟩,
      fun serves => ⟨serves.distinct, serves.joined, serves.owned, serves.required,
        serves.columns, serves.conditions, serves.keys⟩⟩

theorem Request.serves (request : Request) :
    Serves request.entry request.joins request.lists request.conditions request.hiddenColumns := by
  cases request with
  | stations types =>
      exact (by decide +kernel :
        Serves "s" stationTables ["station", "parent"] stationNeeds stationKeys)
  | stationsWithHistory types first last =>
      exact (by decide +kernel : Serves "s"
        (historyTable :: stationTables) ["station", "parent", "metadatahistory"]
        (stationNeeds ++ historyNeeds) stationKeys)
  | stationsWithTypes types datatypes =>
      exact (by decide +kernel : Serves "me" datatypeTables ["station", "parent", "datatype"]
        (stationNeeds ++ [segment "t.cname" "datatypes"]) datatypeKeys)
  | measurements types datatypes window =>
      exact (by decide +kernel : Serves "me" (datatypeTables ++ [provenanceTable]) measurementLists
        (stationNeeds ++ measurementNeeds) (datatypeKeys ++ [timeKey]))
  | edges types =>
      exact (by decide +kernel :
        Serves "e" edgeTables ["edge", "stationbegin", "stationend"] edgeNeeds edgeKeys)
  | events origins window =>
      have served : ∀ latest, Serves "ev" (eventTables latest)
          ["event", "location", "provenanceevent"] (eventNeeds latest) (eventKeys true) := by
        decide +kernel
      exact served _

theorem Request.nodup_names (request : Request) : (request.names.map NeededName.name).Nodup := by
  have distinct := request.serves.distinct
  rwa [Request.names, List.map_cons, List.map_map]

/-- The rule for guests is about tables that are always there. -/
theorem Request.covered_guestRule {request : Request} {rows : RowClass}
    (rows_eq : request.rows? = some rows) : Covered request.names .rows (guestRule rows) := by
  have stations : Covered [⟨.rows, "s"⟩] .rows (guestRule .stations) := by decide +kernel
  have events : Covered [⟨.rows, "ev"⟩] .rows (guestRule .events) := by decide +kernel
  cases request with
  | measurements types datatypes window =>
      obtain rfl := Option.some.inj rows_eq
      exact stations.mono (by simp [names, joins, datatypeTables, NeededJoin.named, innerJoin])
  | events origins window =>
      obtain rfl := Option.some.inj rows_eq
      exact events.mono (List.cons_subset.mpr ⟨List.mem_cons_self, List.nil_subset _⟩)
  | stations types => cases rows_eq
  | stationsWithHistory types first last => cases rows_eq
  | stationsWithTypes types datatypes => cases rows_eq
  | edges types => cases rows_eq

/-- What rows are ordered by are labels, which name no table. -/
theorem Request.within_order {options : Options} {expansion : Expansion} {request : Request}
    {text : String} (member : text ∈ request.order options expansion) (names : List String) :
    Within names text := by
  have labels : ∀ key ∈ everyKey, '.' ∉ key.label.toList := by
    decide +kernel
  obtain ⟨key, key_in, spelled⟩ := Request.exists_key_of_mem_order member
  have no_point := labels key (request.hiddenColumns_subset key_in)
  have nothing : columnsIn text = [] := by
    refine columnsIn_eq_nil ?_
    rcases spelled with rfl | rfl
    · exact no_point
    · simpa using no_point
  intro column column_in
  rw [nothing] at column_in
  cases column_in

/-! ## Tables that are there -/

/-- Whether an expansion has all needs that a need implies. -/
def Need.Met (expansion : Expansion) (need : Need) : Prop :=
  ∀ other ∈ need.implied, other.holds expansion = true

section

variable {options : Options} {expansion : Expansion} {request : Request} {branch : Branch}
  {names : List NeededName} {need : Need} {text : String}

theorem mem_namesFor {name : String} : name ∈ namesFor expansion names ↔
    ∃ needed ∈ names, needed.name = name ∧ needed.need.holds expansion = true := by
  simp only [namesFor, List.mem_map, List.mem_filter]
  exact ⟨fun ⟨needed, ⟨member, holds⟩, same⟩ => ⟨needed, member, same, holds⟩,
    fun ⟨needed, member, same, holds⟩ => ⟨needed, ⟨member, holds⟩, same⟩⟩

theorem Covered.within (covered : Covered names need text) (met : need.Met expansion) :
    Within (namesFor expansion names) text := by
  intro column column_in
  obtain ⟨needed, needed_in, same, implied⟩ := covered column column_in
  exact mem_namesFor.mpr ⟨needed, needed_in, same, met needed.need implied⟩

/-- Of the tables that are joined in order, those that are needed are. -/
theorem inOrder_joinsFor {joins : List NeededJoin} (ordered : NeededJoin.InOrder names joins)
    (met : ∀ needed ∈ joins, needed.need.holds expansion = true → needed.need.Met expansion) :
    Join.InOrder (namesFor expansion names) (joinsFor expansion joins) := by
  induction joins generalizing names with
  | nil => trivial
  | cons needed rest induction =>
      obtain ⟨covered, rest_ordered⟩ := ordered
      have rest_joined := induction rest_ordered fun other member =>
        met other (List.mem_cons_of_mem needed member)
      by_cases holds : needed.need.holds expansion = true
      · have named_eq : namesFor expansion (needed.named :: names) =
            needed.join.source.name :: namesFor expansion names := by
          rw [namesFor, List.filter_cons_of_pos (by exact holds)]
          rfl
        rw [joinsFor_cons, holds, onlyIf_true, List.singleton_append]
        rw [named_eq] at rest_joined
        exact ⟨named_eq ▸ covered.within (met needed List.mem_cons_self holds), rest_joined⟩
      · have named_eq : namesFor expansion (needed.named :: names) = namesFor expansion names := by
          rw [namesFor, List.filter_cons_of_neg (by exact holds)]
          rfl
        rw [joinsFor_cons, Bool.eq_false_iff.mpr holds]
        exact named_eq ▸ rest_joined

theorem Selects.names_eq {resources : Resources}
    (selects : Selects resources options expansion request branch) :
    branch.names = namesFor expansion request.names := by
  rw [Branch.names, selects.name_eq, selects.joins_eq, namesFor, Request.names,
    List.filter_cons_of_pos rfl, List.filter_map, List.map_cons, List.map_map, joinsFor, List.map_map]
  rfl

theorem met_of_used {list key : String} (list_used : list ∈ expansion.usedLists)
    (key_used : key ∈ expansion.usedAttributes) : (Need.field list key).Met expansion := by
  intro other member
  simp only [Need.implied, List.mem_cons, List.not_mem_nil, or_false] at member
  rcases member with rfl | rfl | rfl
  · rfl
  · exact List.contains_iff_mem.mpr list_used
  · exact List.contains_iff_mem.mpr key_used

/-- An attribute that is in use belongs to a list that is. -/
theorem met_of_holds (expanded : Resources.bundled.expand options request.lists = .ok expansion)
    (holds : need.holds expansion = true) (owned : need.Owned request.lists) :
    need.Met expansion := by
  cases need with
  | rows => exact List.forall_mem_singleton.mpr rfl
  | list name => exact List.forall_mem_cons.mpr ⟨rfl, List.forall_mem_singleton.mpr holds⟩
  | field owner key =>
      obtain ⟨all, gathered⟩ := exists_gathered_of_expand expanded
      have key_used : key ∈ expansion.usedAttributes := List.contains_iff_mem.mp holds
      obtain ⟨list, list_in, defines, list_used⟩ := gathered.gathers.defined key key_used
      obtain ⟨in_catalogue, allowed⟩ := mem_scope_lists expanded list_in
      obtain rfl : list.name = owner := owned list in_catalogue allowed defines
      exact met_of_used list_used key_used

/-- The column of an attribute that is in use, together with its list, is one of the tables that are
there. -/
theorem within_of_used (expanded : Resources.bundled.expand options request.lists = .ok expansion)
    {list : TargetList} (list_in : list ∈ expansion.scope.lists)
    (list_used : list.name ∈ expansion.usedLists) {field : Attribute}
    (field_in : field ∈ list.attributes) (field_used : field.finalName ∈ expansion.usedAttributes)
    {column : String} (column_eq : field.column? = some column) :
    Within (namesFor expansion request.names) column := by
  obtain ⟨in_catalogue, allowed⟩ := mem_scope_lists expanded list_in
  obtain ⟨known, known_in, same_name, known_names⟩ := request.serves.columns list.name allowed
  have covered := listNames_checked list in_catalogue known known_in same_name field field_in column
    column_eq
  exact (covered.mono known_names).within (met_of_used list_used field_used)

/-- What a selection compares is a column of its tables, in all lists. -/
theorem within_of_compared
    (expanded : Resources.bundled.expand options request.lists = .ok expansion) {clause : Filter.Clause}
    (compared : clause ∈ Scope.clausesOf expansion.filter) {list : TargetList}
    (list_in : list ∈ expansion.scope.lists) {field : Attribute}
    (found : list.find? clause.key = some field) {column : String}
    (column_eq : field.column? = some column) : Within (namesFor expansion request.names) column := by
  obtain ⟨all, gathered⟩ := exists_gathered_of_expand expanded
  obtain ⟨key_used, lists_used⟩ := gathered.compared clause compared
  refine within_of_used expanded list_in (lists_used list list_in ?_)
    (List.mem_of_find?_eq_some found) ?_ column_eq
  · rw [found]
    rfl
  · rwa [Scope.finalName_of_find? found]

/-- What a selection projects is a column of its tables. -/
theorem within_of_projected
    (expanded : Resources.bundled.expand options request.lists = .ok expansion) {shown : List String}
    {fragment : Fragment} (member : fragment ∈ expansion.fragmentsOf shown) {column : String}
    (column_eq : fragment.field.column? = some column) :
    Within (namesFor expansion request.names) column := by
  obtain ⟨all, gathered⟩ := exists_gathered_of_expand expanded
  obtain ⟨list, list_in, -, ⟨selector, -, projected⟩, list_used, field_used⟩ :=
    gathered.exists_of_mem member
  obtain ⟨found, -, -⟩ := Scope.projection?_eq_some_iff.mp projected
  exact within_of_used expanded list_in list_used (List.mem_of_find?_eq_some found) field_used
    column_eq

/-- The conditions of a selection are about its tables. -/
theorem Selects.qualifier_mem_of_mem_conditions
    (selects : Selects Resources.bundled options expansion request branch)
    (expanded : Resources.bundled.expand options request.lists = .ok expansion) {condition : Condition}
    (member : condition ∈ branch.conditions) {column : String} (column_in : column ∈ condition.columns) :
    qualifier column ∈ namesFor expansion request.names := by
  have serves := request.serves
  rcases selects.mem_conditions expanded member with
    ⟨needed, needed_in, holds, gives⟩ | ⟨rows, access, rows_eq, applies, in_access⟩ |
      ⟨preferred, predicate, compiled, in_filter⟩
  · obtain ⟨-, columns_eq, -⟩ := gives.eq
    rw [columns_eq] at column_in
    exact (serves.conditions needed needed_in).within
      (met_of_holds expanded holds (serves.required needed needed_in)) column column_in
  · obtain ⟨rule, rfl, names⟩ := columnsIn_of_mem_access applies in_access
    exact (Request.covered_guestRule rows_eq).within (List.forall_mem_singleton.mpr rfl) column
      (names column column_in)
  · obtain ⟨clause, clause_in, expression, expression_eq, named⟩ :=
      exists_clause_of_predicateOf expanded compiled in_filter column_in
    obtain ⟨list, list_in, field, found, column_eq⟩ := Scope.exists_list_of_columnOf? expression_eq
    exact within_of_compared expanded clause_in list_in found column_eq column named

end

/-- Every selection of a statement names columns of its own tables only, whatever is selected and
filtered: in what it projects, in what the filter compares, in the conditions and the access rule, and
in what it is ordered by. No two of its tables go by one name. -/
theorem joined_of_prepare {options : Options} {request : Request} {prepared : Prepared}
    (compiled : request.prepare Resources.bundled options = .ok prepared) :
    ∃ expansion, Resources.bundled.expand options request.lists = .ok expansion ∧
      ∀ branch ∈ prepared.query.branches,
        (∃ shown, branch.fragments = expansion.fragmentsOf shown) ∧
          branch.Joined expansion prepared.query.order := by
  obtain ⟨expansion, branches, expanded, -, selects, query_eq⟩ := exists_query_of_prepare compiled
  refine ⟨expansion, expanded, fun branch member => ?_⟩
  have branches_eq : prepared.query.branches = branches := by rw [query_eq]; rfl
  have order_eq : prepared.query.order = request.order options expansion := by rw [query_eq]; rfl
  have selected := selects branch (branches_eq ▸ member)
  obtain ⟨shown, fragments_eq⟩ := selected.exists_fragments
  have serves := request.serves
  have entry_eq : [branch.source.name] = namesFor expansion [⟨.rows, request.entry⟩] := by
    rw [selected.name_eq]
    rfl
  refine ⟨⟨shown, fragments_eq⟩, ?_, ?_, ?_, ?_, ?_, ?_, ?_⟩
  · rw [selected.names_eq]
    exact request.nodup_names.sublist (List.filter_sublist.map _)
  · rw [selected.joins_eq, entry_eq]
    exact inOrder_joinsFor serves.joined fun needed needed_in holds =>
      met_of_holds expanded holds (serves.owned needed needed_in)
  · intro fragment fragment_in column column_eq
    rw [selected.names_eq]
    exact within_of_projected expanded (fragments_eq ▸ fragment_in) column_eq
  · intro clause clause_in list list_in field found column column_eq
    rw [selected.names_eq]
    exact within_of_compared expanded clause_in list_in found column_eq
  · intro condition condition_in column column_in
    rw [selected.names_eq]
    exact selected.qualifier_mem_of_mem_conditions expanded condition_in column_in
  · intro key key_in
    rw [selected.names_eq]
    rw [selected.hidden_eq] at key_in
    exact (serves.keys key (request.hidden_subset key_in)).within (List.forall_mem_singleton.mpr rfl)
  · intro text text_in
    exact Request.within_order (order_eq ▸ text_in) _

/-- The metadata of the parent and of the type are joined for a place inside the one and a filter on
the other, in a tree of stations and types. -/
theorem joined_of_prepare_metadata :
    let options : Options :=
      { representation := ⟨.node, .tree⟩, limit := 200, offset := 0,
        select := some "sname,pmetadata.a", filter := some "tmetadata.b.eq.1", showNull := false,
        distinct := true, roles := ["GUEST"] }
    let request : Request := .stationsWithTypes "*" "*"
    ∃ prepared, request.prepare Resources.bundled options = .ok prepared ∧
      (∀ branch ∈ prepared.query.branches, branch.names = ["me", "s", "p", "pm", "t", "tm"]) ∧
      ∃ expansion, Resources.bundled.expand options request.lists = .ok expansion ∧
        ∀ branch ∈ prepared.query.branches,
          (∃ shown, branch.fragments = expansion.fragmentsOf shown) ∧
            branch.Joined expansion prepared.query.order := by
  intro options request
  have succeeds : ((request.prepare Resources.bundled options).toOption.any fun prepared =>
      decide (∀ branch ∈ prepared.query.branches,
        branch.names = ["me", "s", "p", "pm", "t", "tm"])) = true := by
    decide +kernel
  obtain ⟨prepared, found, names⟩ := (Option.any_eq_true _ _).mp succeeds
  have compiled := toOption_eq_some_iff.mp found
  exact ⟨prepared, compiled, of_decide_eq_true names, joined_of_prepare compiled⟩

end StationGateway.Recipe
