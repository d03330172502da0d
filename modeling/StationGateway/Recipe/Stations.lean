import StationGateway.Recipe.Basic

/-!
# Stations

Stations alone, with the history of their metadata, or with the types of their data.
-/

namespace StationGateway.Recipe

open Text

/-- The columns that nest stations. -/
def stationKeys : List HiddenColumn :=
  [⟨"s.stationtype", "_stationtype"⟩, ⟨"s.stationcode", "_stationcode"⟩]

/-- The columns that nest types of data below stations. -/
def datatypeKeys : List HiddenColumn :=
  stationKeys ++ [⟨"t.cname", "_datatypename"⟩]

/-- The metadata and the parent of stations, as far as they are in use. -/
def stationJoins (expansion : Expansion) : List Join :=
  onlyIf (expansion.usesAttribute "smetadata") (leftJoin "metadata" "m" "m.id = s.meta_data_id") ++
    onlyIf (expansion.usesList "parent") (leftJoin "station" "p" "s.parent_id = p.id") ++
    onlyIf (expansion.usesAttribute "pmetadata") (leftJoin "metadata" "pm" "pm.id = p.meta_data_id")

/-- The types of data and their metadata, as far as these are in use. -/
def datatypeJoins (expansion : Expansion) : List Join :=
  innerJoin "type" "t" "me.type_id = t.id" ::
    onlyIf (expansion.usesAttribute "tmetadata")
      (leftJoin "type_metadata" "tm" "tm.id = t.meta_data_id")

/-- The condition on stations to be available. -/
def availableStation : Condition :=
  .fixed "s.available = true"

/-- The condition on the parents of stations to be available, as far as they are in use. -/
def availableParent (expansion : Expansion) : List Condition :=
  onlyIf (expansion.usesList "parent") (.fixed "(p.id is null or p.available = true)")

/-- The hidden columns of a tree. -/
def treeKeys (options : Options) (keys : List HiddenColumn) : List HiddenColumn :=
  if options.isTree then keys else []

/-- The order of the rows of a tree. -/
def treeOrder (options : Options) (keys : List HiddenColumn) : List String :=
  if options.isTree then keys.map HiddenColumn.label else []

/-- A query with the paging of a request. -/
def pagedQuery (options : Options) (branches : List Branch) (order : List String) : Query :=
  { prelude := none, distinct := options.distinct, branches, order, limit := options.limit,
    offset := options.offset }

/-- The selection of stations. -/
def stationBranch (options : Options) (types : Option (List String)) (expansion : Expansion) :
    Branch :=
  { hidden := treeKeys options stationKeys
    fragments := expansion.fragmentsOf []
    source := ⟨"station", "s"⟩
    joins := stationJoins expansion
    conditions :=
      [availableStation] ++ availableParent expansion ++
        oneOf "s.stationtype" "stationtypes" types ++ filterCondition expansion.predicate }

/-- Stations of some types. -/
def stations (resources : Resources) (options : Options) (typeSegment : String) :
    Except GatewayError Prepared := do
  options.require "fetchStations" .node
  let types := restriction? typeSegment
  let expansion ← resources.expand options ["station", "parent"]
  return {
    command := "fetchStations"
    representation := options.representation
    query :=
      pagedQuery options [stationBranch options types expansion] (treeOrder options stationKeys)
    entry := "stationtype"
    exits := exitsBefore ["datatype", "metadatahistory"]
    collapses := false
    showNull := options.showNull
    log := [("station_types", restrictionLog types)] }

/-- The condition on metadata to have been created from an instant on. -/
def createdFrom (first : Option Time.Instant) : List Condition :=
  first.toList.map fun first =>
    .about "mh.created_on >= :from::timestamptz" "from" (.timestamp first)

/-- The condition on metadata to have been created before an instant. -/
def createdBefore (last : Option Time.Instant) : List Condition :=
  last.toList.map fun last => .about "mh.created_on < :to::timestamptz" "to" (.timestamp last)

/-- The selection of stations with the metadata that were created between two instants. -/
def historyBranch (options : Options) (types : Option (List String))
    (first last : Option Time.Instant) (expansion : Expansion) : Branch :=
  { hidden := treeKeys options stationKeys
    fragments := expansion.fragmentsOf []
    source := ⟨"station", "s"⟩
    joins := innerJoin "metadata" "mh" "mh.station_id = s.id" :: stationJoins expansion
    conditions :=
      [availableStation] ++ availableParent expansion ++
        oneOf "s.stationtype" "stationtypes" types ++ createdFrom first ++ createdBefore last ++
        filterCondition expansion.predicate }

/-- Stations of some types with the metadata that were created between two instants. -/
def stationsWithHistory (resources : Resources) (options : Options) (typeSegment : String)
    (first last : Option Time.Instant) : Except GatewayError Prepared := do
  options.require "fetchStationsAndMetadata" .node
  let types := restriction? typeSegment
  let expansion ← resources.expand options ["station", "parent", "metadatahistory"]
  return {
    command := "fetchStationsAndMetadata"
    representation := options.representation
    query :=
      pagedQuery options [historyBranch options types first last expansion]
        (treeOrder options stationKeys)
    entry := "stationtype"
    exits := exitsBefore ["datatype"]
    collapses := false
    showNull := options.showNull
    log :=
      [("station_types", restrictionLog types), ("history_from", momentLog first),
        ("history_to", momentLog last)] }

/-- The tables that say which types of data a station has. -/
def currentTables : List String :=
  ["measurement", "measurementstring", "measurementjson"]

/-- The selection of stations with the types of the data that a table holds. -/
def typeBranch (options : Options) (types datatypes : Option (List String)) (expansion : Expansion)
    (table : String) : Branch :=
  { hidden := treeKeys options datatypeKeys
    fragments := expansion.fragmentsOf []
    source := ⟨table, "me"⟩
    joins :=
      innerJoin "station" "s" "me.station_id = s.id" :: stationJoins expansion ++
        datatypeJoins expansion
    conditions :=
      [availableStation] ++ availableParent expansion ++
        oneOf "s.stationtype" "stationtypes" types ++ oneOf "t.cname" "datatypes" datatypes ++
        filterCondition expansion.predicate }

/-- Stations of some types with the types of their data. -/
def stationsWithTypes (resources : Resources) (options : Options)
    (typeSegment datatypeSegment : String) : Except GatewayError Prepared := do
  options.require "fetchStationsAndTypes" .node
  let types := restriction? typeSegment
  let datatypes := restriction? datatypeSegment
  let expansion ← resources.expand options ["station", "parent", "datatype"]
  return {
    command := "fetchStationsAndTypes"
    representation := options.representation
    query :=
      pagedQuery options (currentTables.map (typeBranch options types datatypes expansion))
        (treeOrder options datatypeKeys)
    entry := "stationtype"
    exits :=
      exitsBefore ["measurement", "measurementdouble", "measurementstring", "measurementjson",
        "metadatahistory"]
    collapses := false
    showNull := options.showNull
    log := [("station_types", restrictionLog types), ("data_types", restrictionLog datatypes)] }

end StationGateway.Recipe
