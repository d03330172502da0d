import Mathlib
import StationGateway.Proofs.Expansion.Labels
import StationGateway.Proofs.Recipe.Needs
import StationGateway.Proofs.Row
import StationGateway.Proofs.Tree.Layout

/-!
# Plans of trees

The tree of an answer is planned from the catalogue alone, and the statement is written apart from
it. They agree: the statement is ordered by the keys of the tree, every selection has these keys, and
whatever a selection projects is an attribute of a list of the tree. So no row lacks a key, and no
column that clients see is lost. -/

namespace StationGateway

open Text Outcome

/-- Whether a column of the answer is an attribute of a list, or a place inside one. -/
def TargetList.Defines (list : TargetList) (column : String) : Prop :=
  ∃ selector, Selector.ofText? column = some selector ∧ (list.find? selector.name).isSome

/-- The columns of a list are those of the row that the list defines. -/
theorem Tree.mem_columnsOf {list : TargetList} {row : Row} {column : String} :
    column ∈ (Tree.columnsOf list row).map (·.label) ↔
      column ∈ row.map (·.1) ∧ list.Defines column := by
  constructor
  · intro member
    obtain ⟨known, known_in, rfl⟩ := List.mem_map.mp member
    obtain ⟨entry, entry_in, found⟩ := List.mem_filterMap.mp known_in
    dsimp only at found
    split at found
    next selector spelled =>
      split_ifs at found with defines
      obtain rfl := Option.some.inj found
      exact ⟨List.mem_map_of_mem entry_in, selector, spelled, defines⟩
    next => cases found
  · rintro ⟨in_row, selector, spelled, defines⟩
    obtain ⟨entry, entry_in, rfl⟩ := List.mem_map.mp in_row
    refine List.mem_map.mpr ⟨⟨entry.1, selector⟩, List.mem_filterMap.mpr ⟨entry, entry_in, ?_⟩, rfl⟩
    simp only [spelled, defines, if_true]

namespace Recipe

/-- A row as it is put into a tree. -/
def Prepared.shown (prepared : Prepared) (row : Row) : Row :=
  if prepared.collapses then row.collapse else row

/-- A statement that has what its tree is planned with, when a request may use some lists and the tree
has some levels. -/
structure Prepared.Planned (prepared : Prepared) (lists : List String) (levels : List (List String)) :
    Prop where
  /-- The levels are those of the tree. -/
  hierarchy : Mobility.catalogue.hierarchy prepared.entry prepared.exits = .ok levels
  /-- Rows are ordered by the keys of the levels first. -/
  ordered : Mobility.catalogue.triggerKeys levels <+: prepared.query.order
  /-- Every selection has all keys among the columns that clients do not see. -/
  keyed : ∀ branch ∈ prepared.query.branches, ∀ key ∈ Mobility.catalogue.triggerKeys levels,
    ∃ column ∈ branch.hidden, column.label = key
  /-- All lists that the request may use belong to the levels. -/
  lists : ∀ name ∈ lists, name ∈ levels.flatten
  /-- What a selection projects belongs to a list of the levels, measured values put into one. -/
  labels : ∀ branch ∈ prepared.query.branches, ∀ fragment ∈ branch.fragments,
    ∀ output ∈ fragment.outputs, ∃ name ∈ levels.flatten, ∃ list,
      Mobility.catalogue.get? name = some list ∧ list.Defines output.shown
  /-- Every row of a selection has all keys. -/
  has_keys : ∀ branch ∈ prepared.query.branches, ∀ row : Row,
    row.map (·.1) = branch.outputs.map Output.column →
      ∀ key ∈ Mobility.catalogue.triggerKeys levels, (Json.member? key (prepared.shown row)).isSome
  /-- The tree takes all columns of a row that clients see. -/
  keeps : ∀ branch ∈ prepared.query.branches, ∀ row : Row,
    row.map (·.1) = branch.outputs.map Output.column →
      ∀ column ∈ (prepared.shown row).map (·.1), Row.isHidden column = false →
        ∃ name ∈ levels.flatten, ∃ list, Mobility.catalogue.get? name = some list ∧
          column ∈ (Tree.columnsOf list (prepared.shown row)).map (·.label)

section

variable {options : Options} {expansion : Expansion} {request : Request} {prepared : Prepared}
  {branch : Branch}

/-- The keys of a tree are labels of columns that clients do not see. -/
theorem keys_isPrefix (request : Request) (expansion : Expansion) :
    (Tree.layoutOf request).columns <+: (request.keys expansion).map HiddenColumn.label := by
  have stations : Tree.Layout.stations.columns <+: stationKeys.map HiddenColumn.label := by decide
  have history : Tree.Layout.history.columns <+: stationKeys.map HiddenColumn.label := by decide
  have datatypes : Tree.Layout.dataTypes.columns <+: datatypeKeys.map HiddenColumn.label := by decide
  have measurements : Tree.Layout.measurements.columns <+: datatypeKeys.map HiddenColumn.label := by
    decide
  have edges : Tree.Layout.edges.columns <+: edgeKeys.map HiddenColumn.label := by decide
  have events : ∀ withLocation,
      Tree.Layout.events.columns <+: (eventKeys withLocation).map HiddenColumn.label := by
    decide
  cases request with
  | stations types => exact stations
  | stationsWithHistory types first last => exact history
  | stationsWithTypes types segment => exact datatypes
  | measurements types segment window => exact measurements
  | edges types => exact edges
  | events origins window => exact events _

/-- All lists that a request may use belong to its tree. -/
theorem mem_levelNames (request : Request) {name : String} (member : name ∈ request.lists) :
    name ∈ (Tree.layoutOf request).levelNames.flatten := by
  have stations : ["station", "parent"] ⊆ Tree.Layout.stations.levelNames.flatten := by decide
  have history : ["station", "parent", "metadatahistory"] ⊆
      Tree.Layout.history.levelNames.flatten := by
    decide
  have datatypes : ["station", "parent", "datatype"] ⊆
      Tree.Layout.dataTypes.levelNames.flatten := by
    decide
  have measurements : measurementLists ⊆ Tree.Layout.measurements.levelNames.flatten := by decide
  have edges : ["edge", "stationbegin", "stationend"] ⊆ Tree.Layout.edges.levelNames.flatten := by
    decide
  have events : ["event", "location", "provenanceevent"] ⊆
      Tree.Layout.events.levelNames.flatten := by
    decide
  cases request with
  | stations types => exact stations member
  | stationsWithHistory types first last => exact history member
  | stationsWithTypes types segment => exact datatypes member
  | measurements types segment window => exact measurements member
  | edges types => exact edges member
  | events origins window => exact events member

/-- Only measurements may use the lists of measured values. -/
theorem lists_disjoint_of_measures (others : request.measures = false) :
    ∀ name ∈ ValueTable.all.map ValueTable.list, name ∉ request.lists := by
  have stations : ∀ name ∈ ValueTable.all.map ValueTable.list,
      name ∉ ["station", "parent"] ∧ name ∉ ["station", "parent", "metadatahistory"] ∧
        name ∉ ["station", "parent", "datatype"] := by
    decide
  have edges : ∀ name ∈ ValueTable.all.map ValueTable.list,
      name ∉ ["edge", "stationbegin", "stationend"] := by
    decide
  have events : ∀ name ∈ ValueTable.all.map ValueTable.list,
      name ∉ ["event", "location", "provenanceevent"] := by
    decide
  cases request with
  | stations types => exact fun name member => (stations name member).1
  | stationsWithHistory types first last => exact fun name member => (stations name member).2.1
  | stationsWithTypes types segment => exact fun name member => (stations name member).2.2
  | measurements types segment window => cases others
  | edges types => exact edges
  | events origins window => exact events

private theorem valueLists_checked : ∀ list ∈ Mobility.lists,
    (list.find? Row.valueColumn).isSome → list.name ∈ ValueTable.all.map ValueTable.list := by
  decide +kernel

/-- A column that a selection projects spells a selector of a list that the request may use. -/
theorem exists_list_of_mem_outputs (expanded : Resources.bundled.expand options request.lists =
      .ok expansion) {shown : List String} {fragment : Fragment}
    (member : fragment ∈ expansion.fragmentsOf shown) {output : Output}
    (output_in : output ∈ fragment.outputs) :
    ∃ list ∈ Mobility.lists, list.name ∈ request.lists ∧ list.Defines output.shown := by
  obtain ⟨all, gathered⟩ := exists_gathered_of_expand expanded
  obtain ⟨list, list_in, -, ⟨selector, selector_in, projected⟩, -⟩ := gathered.exists_of_mem member
  obtain ⟨in_catalogue, allowed⟩ := mem_scope_lists expanded list_in
  obtain ⟨found, -, -⟩ := Scope.projection?_eq_some_iff.mp projected
  refine ⟨list, in_catalogue, allowed, selector,
    ofText?_shown in_catalogue (gathered.spelled selector selector_in) projected output_in, ?_⟩
  rw [found]
  rfl

theorem get?_name {list : TargetList} (list_in : list ∈ Mobility.lists) :
    Mobility.catalogue.get? list.name = some list :=
  Scope.find?_name (Mobility.names_ascending.imp fun lt => lt.ne) list_in

/-- The columns that clients do not see are named by their labels, and hold no measured values. -/
theorem column_of_mem_everyKey {key : HiddenColumn} (member : key ∈ everyKey) :
    Output.column ⟨key.expression, key.label⟩ = key.label ∧ Row.isSlot key.label = false ∧
      Row.isHidden key.label = true := by
  have checked : ∀ key ∈ everyKey,
      key.label.toList.all (fun char => char.isLower || char == '_') = true ∧
        Row.isSlot key.label = false ∧ Row.isHidden key.label = true := by
    decide +kernel
  obtain ⟨letters, no_slot, is_hidden⟩ := checked key member
  refine ⟨column_of_letters fun char char_in => ?_, no_slot, is_hidden⟩
  simpa using List.all_eq_true.mp letters char char_in

/-- Only measurements project columns of measured values. -/
theorem isSlot_column (expanded : Resources.bundled.expand options request.lists = .ok expansion)
    (others : request.measures = false) {shown : List String} {fragment : Fragment}
    (member : fragment ∈ expansion.fragmentsOf shown) {output : Output}
    (output_in : output ∈ fragment.outputs) : Row.isSlot output.column = false := by
  by_contra is_slot
  obtain ⟨list, list_in, allowed, selector, spelled, defines⟩ :=
    exists_list_of_mem_outputs expanded member output_in
  have value_spelled : Selector.ofText? Row.valueColumn = some (.whole Row.valueColumn) := by
    decide +kernel
  rw [Output.shown, if_pos (by simpa using is_slot), value_spelled] at spelled
  obtain rfl := Option.some.inj spelled
  exact lists_disjoint_of_measures others list.name (valueLists_checked list list_in defines) allowed

/-- The columns of a row in a tree are those that clients do not see, and what its selection projects.
-/
theorem exists_of_mem_shown
    (expanded : Resources.bundled.expand options request.lists = .ok expansion)
    (collapses : prepared.collapses = request.measures)
    (selects : Selects Resources.bundled options expansion request branch) {row : Row}
    (columns : row.map (·.1) = branch.outputs.map Output.column) {column : String}
    (member : column ∈ (prepared.shown row).map (·.1)) :
    (∃ key ∈ branch.hidden, column = key.label) ∨
      ∃ fragment ∈ branch.fragments, ∃ output ∈ fragment.outputs, column = output.shown := by
  obtain ⟨lists, fragments_eq⟩ := selects.exists_fragments
  have own : ∃ output ∈ branch.outputs, column = output.shown := by
    rw [Prepared.shown] at member
    split_ifs at member with is_measured
    · obtain ⟨name, name_in, same⟩ := Row.exists_of_mem_collapse member
      rw [columns] at name_in
      obtain ⟨output, output_in, rfl⟩ := List.mem_map.mp name_in
      exact ⟨output, output_in, same⟩
    · rw [columns] at member
      obtain ⟨output, output_in, rfl⟩ := List.mem_map.mp member
      refine ⟨output, output_in, ?_⟩
      have no_slot : Row.isSlot output.column = false := by
        rcases List.mem_append.mp output_in with is_hidden | is_shown
        · obtain ⟨key, key_in, rfl⟩ := List.mem_map.mp is_hidden
          rw [selects.hidden_eq] at key_in
          obtain ⟨column_eq, no_slot, -⟩ :=
            column_of_mem_everyKey (request.hiddenColumns_subset (request.hidden_subset key_in))
          rw [column_eq]
          exact no_slot
        · obtain ⟨fragment, fragment_in, output_in⟩ := List.mem_flatMap.mp is_shown
          have others : request.measures = false := by simpa [collapses] using is_measured
          exact isSlot_column expanded others (fragments_eq ▸ fragment_in) output_in
      rw [Output.shown, if_neg (by simpa using no_slot)]
  obtain ⟨output, output_in, rfl⟩ := own
  rcases List.mem_append.mp output_in with is_hidden | is_shown
  · obtain ⟨key, key_in, rfl⟩ := List.mem_map.mp is_hidden
    refine .inl ⟨key, key_in, ?_⟩
    rw [selects.hidden_eq] at key_in
    obtain ⟨column_eq, no_slot, -⟩ :=
      column_of_mem_everyKey (request.hiddenColumns_subset (request.hidden_subset key_in))
    rw [Output.shown, column_eq, no_slot]
    rfl
  · obtain ⟨fragment, fragment_in, output_in⟩ := List.mem_flatMap.mp is_shown
    exact .inr ⟨fragment, fragment_in, output, output_in, rfl⟩

/-- A row in a tree has the columns that clients do not see. -/
theorem mem_shown_of_mem_hidden (selects : Selects Resources.bundled options expansion request branch)
    {row : Row} (columns : row.map (·.1) = branch.outputs.map Output.column) {key : HiddenColumn}
    (member : key ∈ branch.hidden) : key.label ∈ (prepared.shown row).map (·.1) := by
  have known := member
  rw [selects.hidden_eq] at known
  obtain ⟨column_eq, no_slot, -⟩ :=
    column_of_mem_everyKey (request.hiddenColumns_subset (request.hidden_subset known))
  have in_row : key.label ∈ row.map (·.1) := by
    rw [columns, ← column_eq]
    exact List.mem_map_of_mem (List.mem_append_left _ (List.mem_map_of_mem member))
  rw [Prepared.shown]
  split_ifs with is_measured
  · exact Row.mem_collapse in_row no_slot
  · exact in_row

end

/-- The statement of a request for a tree has what the tree is planned with: the keys of its levels in
front of the order and in every selection, and only attributes of its lists. So no row lacks a key, and
none of the columns that are selected is lost. -/
theorem planned_of_prepare {options : Options} {request : Request} {prepared : Prepared}
    (compiled : request.prepare Resources.bundled options = .ok prepared)
    (is_tree : options.isTree = true) :
    ∃ levels, prepared.Planned request.lists levels := by
  obtain ⟨expansion, branches, expanded, -, selects, query_eq⟩ := exists_query_of_prepare compiled
  obtain ⟨entry_eq, exits_eq, collapses⟩ := Tree.entry_eq_of_prepare compiled
  have served := Tree.layoutOf_served request
  obtain ⟨hierarchy_eq, -, keys_eq⟩ := Tree.Layout.hierarchy_eq served
  have branches_eq : prepared.query.branches = branches := by rw [query_eq]; rfl
  have selected : ∀ branch ∈ prepared.query.branches,
      Selects Resources.bundled options expansion request branch := fun branch member =>
    selects branch (branches_eq ▸ member)
  have keyed : ∀ branch ∈ prepared.query.branches, ∀ key ∈ (Tree.layoutOf request).columns,
      ∃ column ∈ branch.hidden, column.label = key := by
    intro branch member key key_in
    rw [(selected branch member).hidden_eq, Request.hidden, if_pos is_tree]
    exact List.mem_map.mp ((keys_isPrefix request expansion).subset key_in)
  have defined : ∀ branch ∈ prepared.query.branches, ∀ fragment ∈ branch.fragments,
      ∀ output ∈ fragment.outputs, ∃ name ∈ (Tree.layoutOf request).levelNames.flatten, ∃ list,
        Mobility.catalogue.get? name = some list ∧ list.Defines output.shown := by
    intro branch member fragment fragment_in output output_in
    obtain ⟨shown, fragments_eq⟩ := (selected branch member).exists_fragments
    obtain ⟨list, list_in, allowed, defines⟩ :=
      exists_list_of_mem_outputs expanded (fragments_eq ▸ fragment_in) output_in
    exact ⟨list.name, mem_levelNames request allowed, list, get?_name list_in, defines⟩
  refine ⟨(Tree.layoutOf request).levelNames, ?_, ?_, ?_, fun name member =>
    mem_levelNames request member, defined, ?_, ?_⟩
  · rw [entry_eq, exits_eq]
    exact hierarchy_eq
  · have order_eq : prepared.query.order = request.order options expansion := by rw [query_eq]; rfl
    rw [keys_eq, order_eq, Request.order, if_pos is_tree]
    exact keys_isPrefix request expansion
  · rw [keys_eq]
    exact keyed
  · rw [keys_eq]
    intro branch member row columns key key_in
    obtain ⟨column, column_in, rfl⟩ := keyed branch member key key_in
    exact Json.isSome_member?_iff.mpr
      (mem_shown_of_mem_hidden (selected branch member) columns column_in)
  · intro branch member row columns column column_in visible
    rcases exists_of_mem_shown expanded collapses (selected branch member) columns column_in with
      ⟨key, key_in, rfl⟩ | ⟨fragment, fragment_in, output, output_in, rfl⟩
    · rw [(selected branch member).hidden_eq] at key_in
      obtain ⟨-, -, is_hidden⟩ :=
        column_of_mem_everyKey (request.hiddenColumns_subset (request.hidden_subset key_in))
      rw [is_hidden] at visible
      cases visible
    · obtain ⟨name, name_in, list, found, defines⟩ :=
        defined branch member fragment fragment_in output output_in
      exact ⟨name, name_in, list, found, Tree.mem_columnsOf.mpr ⟨column_in, defines⟩⟩

/-- The latest events in a tree, with the descriptions of their locations: the keys are those of the
events, and rows are ordered by their locations after that. -/
theorem planned_of_prepare_location :
    let options : Options :=
      { representation := ⟨.event, .tree⟩, limit := 200, offset := 0,
        select := some "evname,evldescription", filter := none, showNull := false, distinct := true,
        roles := ["GUEST"] }
    let request : Request := .events "*" .latest
    ∃ prepared, request.prepare Resources.bundled options = .ok prepared ∧ options.isTree = true ∧
      prepared.query.order = ["_eventorigin", "_eventseriesuuid", "_eventuuid", "_locationid"] ∧
      ∃ levels, prepared.Planned request.lists levels := by
  intro options request
  have checked : ((request.prepare Resources.bundled options).toOption.any fun prepared =>
      decide (prepared.query.order =
        ["_eventorigin", "_eventseriesuuid", "_eventuuid", "_locationid"])) = true := by
    decide +kernel
  obtain ⟨prepared, found, order_eq⟩ := (Option.any_eq_true _ _).mp checked
  have compiled := toOption_eq_some_iff.mp found
  exact ⟨prepared, compiled, rfl, of_decide_eq_true order_eq, planned_of_prepare compiled rfl⟩

end Recipe

end StationGateway
