import Mathlib
import StationGateway.Proofs.Recipe.Branches

/-!
# What selections are made of

A selection joins a table, or has a condition, because it always does or because a list or an
attribute is in use. Both are listed here for each request, with what they are needed for, and every
selection is shown to have the tables and the conditions that are needed and no others. -/

namespace StationGateway.Recipe

open Text Access Outcome

/-! ## Needs -/

/-- What something in a selection is needed for. -/
inductive Need where
  /-- For the rows themselves. -/
  | rows
  /-- For a list. -/
  | list (name : String)
  /-- For an attribute of a list. -/
  | field (list key : String)
  deriving DecidableEq

/-- Whether an expansion has a need. -/
def Need.holds (expansion : Expansion) : Need → Bool
  | rows => true
  | list name => expansion.usesList name
  | field _ key => expansion.usesAttribute key

/-- A further table and what it is needed for. -/
structure NeededJoin where
  /-- What the table is needed for. -/
  need : Need
  /-- How the table is joined. -/
  join : Join
  deriving DecidableEq

/-- A condition of the program's own and what it is needed for. -/
structure NeededCondition where
  /-- What the condition is needed for. -/
  need : Need
  /-- The text. -/
  text : String
  /-- The name of the value that it refers to, if there is one. -/
  value : Option String
  deriving DecidableEq

/-- The tables among some that an expansion needs. -/
def joinsFor (expansion : Expansion) (joins : List NeededJoin) : List Join :=
  (joins.filter fun needed => needed.need.holds expansion).map NeededJoin.join

/-- Whether a condition is one that is spelled out. -/
def NeededCondition.Gives (needed : NeededCondition) (condition : Condition) : Prop :=
  match needed.value with
  | none => condition = .fixed needed.text
  | some name => ∃ value, condition = .about needed.text name value

/-- Whether a condition is one of some that an expansion needs. -/
def IsNeeded (expansion : Expansion) (conditions : List NeededCondition) (condition : Condition) :
    Prop :=
  ∃ needed ∈ conditions, needed.need.holds expansion = true ∧ needed.Gives condition

/-- The columns that a condition names. -/
def Condition.columns : Condition → List String
  | .filter predicate => predicate.columns
  | condition => Sql.columnsIn condition.text

/-! ## Tables -/

/-- The metadata and the parent of stations. -/
def stationTables : List NeededJoin :=
  [⟨.field "station" "smetadata", leftJoin "metadata" "m" "m.id = s.meta_data_id"⟩,
    ⟨.list "parent", leftJoin "station" "p" "s.parent_id = p.id"⟩,
    ⟨.field "parent" "pmetadata", leftJoin "metadata" "pm" "pm.id = p.meta_data_id"⟩]

/-- The stations of types of data, the types, and their metadata. -/
def datatypeTables : List NeededJoin :=
  ⟨.rows, innerJoin "station" "s" "me.station_id = s.id"⟩ :: stationTables ++
    [⟨.rows, innerJoin "type" "t" "me.type_id = t.id"⟩,
      ⟨.field "datatype" "tmetadata", leftJoin "type_metadata" "tm" "tm.id = t.meta_data_id"⟩]

/-- The history of the metadata of stations. -/
def historyTable : NeededJoin :=
  ⟨.rows, innerJoin "metadata" "mh" "mh.station_id = s.id"⟩

/-- Who collected measurements. -/
def provenanceTable : NeededJoin :=
  ⟨.list "provenance", leftJoin "provenance" "pr" "me.provenance_id = pr.id"⟩

/-- The station of edges and those at their ends. -/
def edgeTables : List NeededJoin :=
  [⟨.rows, innerJoin "station" "i" "e.edge_data_id = i.id"⟩,
    ⟨.list "stationbegin", leftJoin "station" "o" "e.origin_id = o.id"⟩,
    ⟨.list "stationend", leftJoin "station" "d" "e.destination_id = d.id"⟩]

/-- The rank, provenance, location and metadata of events. -/
def eventTables (latest : Bool) : List NeededJoin :=
  onlyIf latest ⟨.rows, innerJoin "latest" "lat" "lat.id = ev.id"⟩ ++
    [⟨.list "provenanceevent", leftJoin "provenance" "pr" "ev.provenance_id = pr.id"⟩,
      ⟨.list "location", leftJoin "location" "loc" "ev.location_id = loc.id"⟩,
      ⟨.field "event" "evmetadata", leftJoin "metadata" "evm" "evm.id = ev.meta_data_id"⟩]

/-! ## Conditions -/

/-- The condition on an expression to be one of the items of a path segment. -/
def segment (expression name : String) : NeededCondition :=
  ⟨.rows, expression ++ " in (:" ++ name ++ ")", some name⟩

/-- The conditions on stations. -/
def stationNeeds : List NeededCondition :=
  [⟨.rows, "s.available = true", none⟩,
    ⟨.list "parent", "(p.id is null or p.available = true)", none⟩, segment "s.stationtype" "stationtypes"]

/-- The conditions on metadata to have been created between two instants. -/
def historyNeeds : List NeededCondition :=
  [⟨.rows, "mh.created_on >= :from::timestamptz", some "from"⟩,
    ⟨.rows, "mh.created_on < :to::timestamptz", some "to"⟩]

/-- The conditions on measurements to be of some types and to lie in a range of time. -/
def measurementNeeds : List NeededCondition :=
  [segment "t.cname" "datatypes",
    ⟨.rows, "me.timestamp >= :from::timestamptz", some "from"⟩,
    ⟨.rows, "me.timestamp < :to::timestamptz", some "to"⟩]

/-- The conditions on edges. -/
def edgeNeeds : List NeededCondition :=
  [⟨.rows, "i.available = true", none⟩,
    ⟨.list "stationbegin", "(o.available is null or o.available = true)", none⟩,
    ⟨.list "stationend", "(d.available is null or d.available = true)", none⟩,
    segment "i.stationtype" "stationtypes"]

/-- The conditions on events. -/
def eventNeeds (latest : Bool) : List NeededCondition :=
  onlyIf latest ⟨.rows, "lat.rank = 1", none⟩ ++
    [⟨.rows, "true", none⟩,
      ⟨.rows, "(upper(ev.event_interval) is null or upper(ev.event_interval) > :from::timestamp)",
        some "from"⟩,
      ⟨.rows, "lower(ev.event_interval) <= :to::timestamp", some "to"⟩, segment "ev.origin" "origins"]

/-- The further tables of all requests. -/
def everyJoin : List NeededJoin :=
  historyTable :: datatypeTables ++ [provenanceTable] ++ edgeTables ++ eventTables true

/-- The conditions of all requests. -/
def everyCondition : List NeededCondition :=
  stationNeeds ++ historyNeeds ++ measurementNeeds ++ edgeNeeds ++ eventNeeds true

/-- The columns that clients do not see, of all requests. -/
def everyKey : List HiddenColumn :=
  datatypeKeys ++ [timeKey] ++ edgeKeys ++ eventKeys true

namespace Request

/-- The name that the first table of a request goes by. -/
def entry : Request → String
  | stations _ => "s"
  | stationsWithHistory .. => "s"
  | stationsWithTypes .. => "me"
  | measurements .. => "me"
  | edges _ => "e"
  | events .. => "ev"

/-- The further tables that a request may need. -/
def joins : Request → List NeededJoin
  | stations _ => stationTables
  | stationsWithHistory .. => historyTable :: stationTables
  | stationsWithTypes .. => datatypeTables
  | measurements .. => datatypeTables ++ [provenanceTable]
  | edges _ => edgeTables
  | events _ window => eventTables (window = .latest)

/-- The conditions that a request may need, next to the access rule and the filter. -/
def conditions : Request → List NeededCondition
  | stations _ => stationNeeds
  | stationsWithHistory .. => stationNeeds ++ historyNeeds
  | stationsWithTypes .. => stationNeeds ++ [segment "t.cname" "datatypes"]
  | measurements .. => stationNeeds ++ measurementNeeds
  | edges _ => edgeNeeds
  | events _ window => eventNeeds (window = .latest)

/-- The columns of a request that clients do not see, of trees and of flat answers. -/
def hiddenColumns : Request → List HiddenColumn
  | stations _ => stationKeys
  | stationsWithHistory .. => stationKeys
  | stationsWithTypes .. => datatypeKeys
  | measurements .. => datatypeKeys ++ [timeKey]
  | edges _ => edgeKeys
  | events .. => eventKeys true

/-- The rows that the access rule of a request is about, if it has one. -/
def rows? : Request → Option RowClass
  | measurements .. => some .stations
  | events .. => some .events
  | _ => none

end Request

/-! ## Selections -/

section

variable {resources : Resources} {options : Options} {expansion : Expansion} {request : Request}
  {branch : Branch} {condition : Condition}

@[simp]
theorem joinsFor_nil : joinsFor expansion [] = [] :=
  rfl

@[simp]
theorem joinsFor_cons (needed : NeededJoin) (rest : List NeededJoin) :
    joinsFor expansion (needed :: rest) =
      onlyIf (needed.need.holds expansion) needed.join ++ joinsFor expansion rest := by
  rw [joinsFor, List.filter_cons, onlyIf]
  split_ifs with holds
  · rfl
  · rfl

@[simp]
theorem joinsFor_append (joins others : List NeededJoin) :
    joinsFor expansion (joins ++ others) = joinsFor expansion joins ++ joinsFor expansion others := by
  rw [joinsFor, List.filter_append, List.map_append]
  rfl

@[simp]
theorem joinsFor_onlyIf (condition : Bool) (join : Join) :
    joinsFor expansion (onlyIf condition ⟨.rows, join⟩) = onlyIf condition join := by
  cases condition <;> rfl

@[simp]
theorem onlyIf_true {α : Type} (part : α) : onlyIf true part = [part] :=
  rfl

theorem stationJoins_eq (expansion : Expansion) :
    stationJoins expansion = joinsFor expansion stationTables := by
  simp [stationTables, stationJoins, Need.holds]

/-- The tables of types of data, with those of the stations that have them. -/
theorem datatypeJoins_eq (expansion : Expansion) :
    innerJoin "station" "s" "me.station_id = s.id" :: stationJoins expansion ++
      datatypeJoins expansion = joinsFor expansion datatypeTables := by
  simp [datatypeTables, stationJoins_eq, datatypeJoins, Need.holds]

/-- A selection of measurements joins their stations and types, and who collected them. -/
theorem joins_measurementBranch (options : Options) (types datatypes : Option (List String))
    (window : Option Window) (expansion : Expansion) (access : List Condition)
    (values : ValueTable) (predicate : Option Predicate) :
    (measurementBranch options types datatypes window expansion access values predicate).joins =
      joinsFor expansion (datatypeTables ++ [provenanceTable]) := by
  rw [joinsFor_append, ← datatypeJoins_eq]
  simp [measurementBranch, provenanceTable, Need.holds]

/-- A selection joins the tables that are needed. -/
theorem Selects.joins_eq (selects : Selects resources options expansion request branch) :
    branch.joins = joinsFor expansion request.joins := by
  cases selects with
  | stations types => exact stationJoins_eq expansion
  | stationsWithHistory types first last =>
      simp [historyBranch, Request.joins, historyTable, stationJoins_eq, Need.holds]
  | stationsWithTypes types datatypes table_in => exact datatypeJoins_eq expansion
  | measurements types datatypes window tables_eq values_in applies compiled =>
      exact joins_measurementBranch _ _ _ _ _ _ _ _
  | edges types => simp [edgeBranch, endJoins, Request.joins, edgeTables, Need.holds]
  | events origins window applies =>
      simp [eventBranch, eventJoins, Request.joins, eventTables, Need.holds]

theorem Selects.name_eq (selects : Selects resources options expansion request branch) :
    branch.source.name = request.entry := by
  cases selects <;> rfl

theorem Request.joins_subset (request : Request) : request.joins ⊆ everyJoin := by
  have stations : stationTables ⊆ everyJoin := by decide
  have history : historyTable :: stationTables ⊆ everyJoin := by decide
  have datatypes : datatypeTables ⊆ everyJoin := by decide
  have measurements : datatypeTables ++ [provenanceTable] ⊆ everyJoin := by decide
  have edges : edgeTables ⊆ everyJoin := by decide
  have events : ∀ latest, eventTables latest ⊆ everyJoin := by decide
  cases request with
  | stations types => exact stations
  | stationsWithHistory types first last => exact history
  | stationsWithTypes types segment => exact datatypes
  | measurements types segment window => exact measurements
  | edges types => exact edges
  | events origins window => exact events _

theorem Request.conditions_subset (request : Request) : request.conditions ⊆ everyCondition := by
  have stations : stationNeeds ⊆ everyCondition := by decide
  have history : stationNeeds ++ historyNeeds ⊆ everyCondition := by decide
  have datatypes : stationNeeds ++ [segment "t.cname" "datatypes"] ⊆ everyCondition := by decide
  have measurements : stationNeeds ++ measurementNeeds ⊆ everyCondition := by decide
  have edges : edgeNeeds ⊆ everyCondition := by decide
  have events : ∀ latest, eventNeeds latest ⊆ everyCondition := by decide
  cases request with
  | stations types => exact stations
  | stationsWithHistory types first last => exact history
  | stationsWithTypes types segment => exact datatypes
  | measurements types segment window => exact measurements
  | edges types => exact edges
  | events origins window => exact events _

theorem Request.keys_subset (expansion : Expansion) (request : Request) :
    request.keys expansion ⊆ request.hiddenColumns ∧ request.flatKeys ⊆ request.hiddenColumns := by
  have events : ∀ withLocation, eventKeys withLocation ⊆ eventKeys true := by decide
  cases request with
  | stations types => exact ⟨List.Subset.refl _, List.nil_subset _⟩
  | stationsWithHistory types first last => exact ⟨List.Subset.refl _, List.nil_subset _⟩
  | stationsWithTypes types segment => exact ⟨List.Subset.refl _, List.nil_subset _⟩
  | measurements types segment window =>
      exact ⟨List.subset_append_left _ _, List.subset_append_right _ _⟩
  | edges types => exact ⟨List.Subset.refl _, List.nil_subset _⟩
  | events origins window => exact ⟨events _, List.nil_subset _⟩

theorem Request.hidden_subset (request : Request) :
    request.hidden options expansion ⊆ request.hiddenColumns := by
  rw [Request.hidden]
  split_ifs with is_tree
  · exact (request.keys_subset expansion).1
  · exact (request.keys_subset expansion).2

theorem Request.hiddenColumns_subset (request : Request) : request.hiddenColumns ⊆ everyKey := by
  have stations : stationKeys ⊆ everyKey := by decide
  have datatypes : datatypeKeys ⊆ everyKey := by decide
  have measurements : datatypeKeys ++ [timeKey] ⊆ everyKey := by decide
  have edges : edgeKeys ⊆ everyKey := by decide
  have events : eventKeys true ⊆ everyKey := by decide
  cases request with
  | stations types => exact stations
  | stationsWithHistory types first last => exact stations
  | stationsWithTypes types segment => exact datatypes
  | measurements types segment window => exact measurements
  | edges types => exact edges
  | events origins window => exact events

/-- Rows are ordered by labels of columns that clients do not see. -/
theorem Request.exists_key_of_mem_order {text : String}
    (member : text ∈ request.order options expansion) :
    ∃ key ∈ request.hiddenColumns, text = key.label ∨ text = key.label ++ " asc" := by
  rw [Request.order] at member
  split_ifs at member with is_tree
  · obtain ⟨key, key_in, rfl⟩ := List.mem_map.mp member
    exact ⟨key, (request.keys_subset expansion).1 key_in, .inl rfl⟩
  · obtain ⟨key, key_in, rfl⟩ := List.mem_map.mp member
    exact ⟨key, (request.keys_subset expansion).2 key_in, .inr rfl⟩

/-! ### Conditions of selections -/

/-- A condition that is spelled out has its columns, and its value. -/
theorem NeededCondition.Gives.eq {needed : NeededCondition} (gives : needed.Gives condition) :
    condition.text = needed.text ∧ condition.columns = Sql.columnsIn needed.text ∧
      condition.params.map (·.1) = needed.value.toList := by
  rw [NeededCondition.Gives] at gives
  split at gives
  next no_value =>
    subst gives
    rw [no_value]
    exact ⟨rfl, rfl, rfl⟩
  next name has_value =>
    obtain ⟨value, rfl⟩ := gives
    rw [has_value]
    exact ⟨rfl, rfl, rfl⟩

theorem IsNeeded.mono {conditions others : List NeededCondition}
    (needed : IsNeeded expansion conditions condition) (within : conditions ⊆ others) :
    IsNeeded expansion others condition := by
  obtain ⟨one, one_in, holds, gives⟩ := needed
  exact ⟨one, within one_in, holds, gives⟩

theorem isNeeded_segment {expression name : String} {items : Option (List String)}
    (member : condition ∈ oneOf expression name items) :
    IsNeeded expansion [segment expression name] condition := by
  cases items with
  | none => cases member
  | some items =>
      obtain rfl := List.mem_singleton.mp member
      exact ⟨_, List.mem_cons_self, rfl, _, rfl⟩

/-- What is required of stations. -/
theorem isNeeded_station {types : Option (List String)}
    (member : condition ∈ [availableStation] ++ availableParent expansion ++
      oneOf "s.stationtype" "stationtypes" types) :
    IsNeeded expansion stationNeeds condition := by
  rcases List.mem_append.mp member with of_rows | in_types
  · rcases List.mem_append.mp of_rows with of_station | of_parent
    · obtain rfl := List.mem_singleton.mp of_station
      exact ⟨_, List.mem_cons_self, rfl, rfl⟩
    · obtain ⟨in_use, rfl⟩ := mem_onlyIf.mp of_parent
      exact ⟨_, List.mem_cons_of_mem _ List.mem_cons_self, in_use, rfl⟩
  · exact (isNeeded_segment in_types).mono (by simp [stationNeeds])

/-- What is required of the time of metadata. -/
theorem isNeeded_history {first last : Option Time.Instant}
    (member : condition ∈ createdFrom first ∨ condition ∈ createdBefore last) :
    IsNeeded expansion historyNeeds condition := by
  rcases member with of_first | of_last
  · obtain ⟨instant, -, rfl⟩ := List.mem_map.mp of_first
    exact ⟨_, List.mem_cons_self, rfl, _, rfl⟩
  · obtain ⟨instant, -, rfl⟩ := List.mem_map.mp of_last
    exact ⟨_, List.mem_cons_of_mem _ List.mem_cons_self, rfl, _, rfl⟩

/-- What is required of the time of measurements. -/
theorem isNeeded_window {window : Option Window} (member : condition ∈ windowConditions window) :
    IsNeeded expansion measurementNeeds condition := by
  cases window with
  | none => cases member
  | some window =>
      rcases List.mem_pair.mp member with rfl | rfl
      · exact ⟨⟨.rows, _, some "from"⟩, by simp [measurementNeeds], rfl, _, rfl⟩
      · exact ⟨⟨.rows, _, some "to"⟩, by simp [measurementNeeds], rfl, _, rfl⟩

/-- What is required of edges and their ends. -/
theorem isNeeded_edge {types : Option (List String)}
    (member : condition ∈ [.fixed "i.available = true"] ++ availableEnds expansion ++
      oneOf "i.stationtype" "stationtypes" types) :
    IsNeeded expansion edgeNeeds condition := by
  rcases List.mem_append.mp member with of_rows | in_types
  · rcases List.mem_append.mp of_rows with of_edge | of_ends
    · obtain rfl := List.mem_singleton.mp of_edge
      exact ⟨_, List.mem_cons_self, rfl, rfl⟩
    · rcases List.mem_append.mp of_ends with of_begin | of_end
      · obtain ⟨in_use, rfl⟩ := mem_onlyIf.mp of_begin
        exact ⟨⟨.list "stationbegin", _, none⟩, by simp [edgeNeeds], in_use, rfl⟩
      · obtain ⟨in_use, rfl⟩ := mem_onlyIf.mp of_end
        exact ⟨⟨.list "stationend", _, none⟩, by simp [edgeNeeds], in_use, rfl⟩
  · exact (isNeeded_segment in_types).mono (by simp [edgeNeeds])

/-- What is required of the time of events. -/
theorem isNeeded_event {window : EventWindow} (member : condition ∈ eventConditions window) :
    IsNeeded expansion (eventNeeds (window = .latest)) condition := by
  simp only [eventConditions, List.mem_append, List.mem_map] at member
  rcases member with (of_latest | ⟨first, -, rfl⟩) | ⟨last, -, rfl⟩
  · obtain ⟨is_latest, rfl⟩ := mem_onlyIf.mp of_latest
    exact ⟨⟨.rows, "lat.rank = 1", none⟩, by simp [eventNeeds, is_latest], rfl, rfl⟩
  · exact ⟨⟨.rows, _, some "from"⟩, by simp [eventNeeds], rfl, _, rfl⟩
  · exact ⟨⟨.rows, _, some "to"⟩, by simp [eventNeeds], rfl, _, rfl⟩

/-- The conditions of a selection from the table of some values are those that are needed, the access
rule, and the filter. -/
theorem mem_conditions_measurementBranch {types datatypes : Option (List String)}
    {window : Option Window} {access : List Condition} {values : ValueTable}
    {predicate : Option Predicate} (member : condition ∈ (measurementBranch options types datatypes
      window expansion access values predicate).conditions) :
    IsNeeded expansion (stationNeeds ++ measurementNeeds) condition ∨
      condition ∈ access ∨ condition ∈ filterCondition predicate := by
  have of_station : condition ∈ [availableStation] ++ availableParent expansion ++
      oneOf "s.stationtype" "stationtypes" types →
        IsNeeded expansion (stationNeeds ++ measurementNeeds) condition :=
    fun found => (isNeeded_station found).mono (List.subset_append_left _ _)
  simp only [List.mem_append] at of_station
  simp only [measurementBranch, List.mem_append] at member
  rcases member with
    (((((in_rows | in_access) | in_parent) | in_types) | in_datatypes) | in_window) | in_filter
  · exact .inl (of_station (.inl (.inl in_rows)))
  · exact .inr (.inl in_access)
  · exact .inl (of_station (.inl (.inr in_parent)))
  · exact .inl (of_station (.inr in_types))
  · exact .inl ((isNeeded_segment in_datatypes).mono (by simp [measurementNeeds]))
  · exact .inl ((isNeeded_window in_window).mono (List.subset_append_right _ _))
  · exact .inr (.inr in_filter)

/-- The conditions of a selection are those that are needed, the access rule, and the filter. -/
theorem Selects.mem_conditions (selects : Selects resources options expansion request branch)
    (expanded : resources.expand options request.lists = .ok expansion)
    (member : condition ∈ branch.conditions) :
    IsNeeded expansion request.conditions condition ∨
      (∃ rows access, request.rows? = some rows ∧ resources.access options rows = .ok access ∧
        condition ∈ access) ∨
      ∃ preferred predicate,
        expansion.scope.predicateOf preferred expansion.filter = .ok predicate ∧
          condition ∈ filterCondition predicate := by
  have own_predicate :
      expansion.scope.predicateOf none expansion.filter = .ok expansion.predicate := by
    have known := Scope.expands_of_expand expanded
    rw [known.within]
    exact known.predicate
  cases selects with
  | stations types =>
      rcases List.mem_append.mp member with of_station | in_filter
      · exact .inl (isNeeded_station of_station)
      · exact .inr (.inr ⟨_, _, own_predicate, in_filter⟩)
  | stationsWithHistory types first last =>
      rw [historyBranch, List.append_assoc _ (createdFrom first)] at member
      rcases List.mem_append.mp member with of_rows | in_filter
      · rcases List.mem_append.mp of_rows with of_station | of_history
        · exact .inl ((isNeeded_station of_station).mono (List.subset_append_left _ _))
        · exact .inl ((isNeeded_history (List.mem_append.mp of_history)).mono
            (List.subset_append_right _ _))
      · exact .inr (.inr ⟨_, _, own_predicate, in_filter⟩)
  | stationsWithTypes types datatypes table_in =>
      rcases List.mem_append.mp member with of_rows | in_filter
      · rcases List.mem_append.mp of_rows with of_station | in_datatypes
        · exact .inl ((isNeeded_station of_station).mono (List.subset_append_left _ _))
        · exact .inl ((isNeeded_segment in_datatypes).mono (List.subset_append_right _ _))
      · exact .inr (.inr ⟨_, _, own_predicate, in_filter⟩)
  | measurements types datatypes window tables_eq values_in applies compiled =>
      rw [expansion.predicateFor_eq] at compiled
      rcases mem_conditions_measurementBranch member with needed | in_access | in_filter
      · exact .inl needed
      · exact .inr (.inl ⟨_, _, rfl, applies, in_access⟩)
      · exact .inr (.inr ⟨_, _, compiled, in_filter⟩)
  | edges types =>
      rcases List.mem_append.mp member with of_edge | in_filter
      · exact .inl (isNeeded_edge of_edge)
      · exact .inr (.inr ⟨_, _, own_predicate, in_filter⟩)
  | events origins window applies =>
      simp only [eventBranch, List.mem_append, List.mem_singleton] at member
      rcases member with (((rfl | in_access) | in_window) | in_origins) | in_filter
      · exact .inl ⟨⟨.rows, "true", none⟩, by simp [Request.conditions, eventNeeds], rfl, rfl⟩
      · exact .inr (.inl ⟨_, _, rfl, applies, in_access⟩)
      · exact .inl (isNeeded_event in_window)
      · exact .inl ((isNeeded_segment in_origins).mono (by simp [Request.conditions, eventNeeds]))
      · exact .inr (.inr ⟨_, _, own_predicate, in_filter⟩)

/-- The filter of a selection names the columns of its comparisons. -/
theorem exists_clause_of_predicateOf {lists : List String}
    (expanded : Resources.bundled.expand options lists = .ok expansion) {preferred : Option String}
    {predicate : Option Predicate}
    (compiled : expansion.scope.predicateOf preferred expansion.filter = .ok predicate)
    (member : condition ∈ filterCondition predicate) {column : String}
    (column_in : column ∈ condition.columns) :
    ∃ clause ∈ Scope.clausesOf expansion.filter, ∃ expression,
      expansion.scope.columnOf? preferred clause.key = some expression ∧
        column ∈ Sql.columnsIn expression := by
  have operators : expansion.scope.operators = .standard := by
    rw [(Scope.expands_of_expand expanded).within]
    rfl
  obtain ⟨filtered, rfl, rfl⟩ := mem_filterCondition.mp member
  cases filter_eq : expansion.filter with
  | none =>
      rw [filter_eq] at compiled
      cases compiled
  | some filter =>
      rw [filter_eq] at compiled
      obtain ⟨found, found_eq, same⟩ := map_eq_ok_iff.mp compiled
      obtain rfl := Option.some.inj same
      exact Scope.exists_clause_of_compile operators found_eq column_in

end

end StationGateway.Recipe
