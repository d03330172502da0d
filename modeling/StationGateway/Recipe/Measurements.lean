import StationGateway.Recipe.Stations

/-!
# Measurements

Measured values are kept in three tables by their type. A filter on the value decides which of the
tables can have matching rows; the others are left out.
-/

namespace StationGateway.Recipe

open Text StationGateway.Filter

/-- A range of time, with its beginning and without its end. -/
structure Window where
  /-- The beginning. -/
  first : Time.Instant
  /-- The end. -/
  last : Time.Instant
  deriving DecidableEq, Repr

/-- The tables of measured values. -/
inductive ValueTable where
  /-- Numbers. -/
  | double
  /-- Texts. -/
  | string
  /-- JSON values. -/
  | json
  deriving DecidableEq, Repr

namespace ValueTable

/-- All tables, in the order of the branches. -/
def all : List ValueTable :=
  [double, string, json]

/-- The list of the catalogue that projects the values of a table. -/
def list : ValueTable → String
  | double => "measurementdouble"
  | string => "measurementstring"
  | json => "measurementjson"

/-- The table of the latest values. -/
def latest : ValueTable → String
  | double => "measurement"
  | string => "measurementstring"
  | json => "measurementjson"

/-- The table of the latest or of all values. -/
def table (history : Bool) (values : ValueTable) : String :=
  values.latest ++ (if history then "history" else "")

end ValueTable

/-- The attribute of measured values. -/
def valueAttribute : String := "mvalue"

/-- The tables that can have rows with a value that fits a comparison. -/
def tablesFor (comparison : Clause) : Except GatewayError (List ValueTable) :=
  let given := comparison.operand.valueType
  match given, comparison.path with
  | .boolean, _ => .error (.invalidWhereDataType valueAttribute given.name)
  | .mixed, _ => .error (.invalidWhereDataType valueAttribute given.name)
  | _, _ :: _ => .ok [.json]
  | .number, [] => .ok [.double]
  | .string, [] => .ok [.string]
  | .null, [] => .ok ValueTable.all

/-- The tables that can have rows for a filter, which may compare the value once. -/
def valueTables (expansion : Expansion) : Except GatewayError (List ValueTable) :=
  match expansion.comparisonsOf valueAttribute with
  | [] => .ok ValueTable.all
  | [comparison] => tablesFor comparison
  | _ :: second :: _ =>
      .error (.operatorCheckFailed valueAttribute second.operator
        (second.operand.shown ++ " (only one mvalue clause is supported)"))

/-- The lists that measurements may use. -/
def measurementLists : List String :=
  ["station", "parent", "datatype", "measurement", "measurementdouble", "measurementstring",
    "measurementjson", "provenance"]

/-- The lists that a branch for one table projects. -/
def branchLists (values : ValueTable) : List String :=
  ["station", "parent", "datatype", "measurement", values.list, "provenance"]

/-- The column that orders measurements outside trees. -/
def timeKey : HiddenColumn :=
  ⟨"me.timestamp", "_timestamp"⟩

/-- The condition on measurements to lie in a range of time. -/
def windowConditions (window : Option Window) : List Condition :=
  match window with
  | some window =>
      [.about "me.timestamp >= :from::timestamptz" "from" (.timestamp window.first),
        .about "me.timestamp < :to::timestamptz" "to" (.timestamp window.last)]
  | none => []

/-- What is written about a range of time to the log. -/
def windowLog (window : Option Window) : List (String × Json) :=
  match window with
  | some window =>
      [("history_from", momentLog (some window.first)), ("history_to", momentLog (some window.last)),
        ("history_days", .int (Time.daysBetween window.first window.last))]
  | none => []

/-- The selection of measurements from one table, for the access rule and the predicate of the
filter there. -/
def measurementBranch (options : Options) (types datatypes : Option (List String))
    (window : Option Window) (expansion : Expansion) (access : List Condition) (values : ValueTable)
    (predicate : Option Predicate) : Branch :=
  { hidden := if options.isTree then datatypeKeys else [timeKey]
    fragments := expansion.fragmentsOf (branchLists values)
    source := ⟨values.table window.isSome, "me"⟩
    joins :=
      innerJoin "station" "s" "me.station_id = s.id" :: stationJoins expansion ++
        datatypeJoins expansion ++
        onlyIf (expansion.usesList "provenance")
          (leftJoin "provenance" "pr" "me.provenance_id = pr.id")
    conditions :=
      [availableStation] ++ access ++ availableParent expansion ++
        oneOf "s.stationtype" "stationtypes" types ++ oneOf "t.cname" "datatypes" datatypes ++
        windowConditions window ++ filterCondition predicate }

/-- The latest measurements, or those of a range of time. -/
def measurements (resources : Resources) (options : Options) (typeSegment datatypeSegment : String)
    (window : Option Window) : Except GatewayError Prepared := do
  let command := if window.isSome then "fetchMeasurementHistory" else "fetchMeasurement"
  options.require command .node
  let types := restriction? typeSegment
  let datatypes := restriction? datatypeSegment
  let expansion ← resources.expand options measurementLists
  let tables ← valueTables expansion
  let access ← resources.access options .stations
  let branches ← tables.mapM fun values => do
    let predicate ← expansion.predicateFor values.list
    Except.ok (measurementBranch options types datatypes window expansion access values predicate)
  return {
    command
    representation := options.representation
    query := pagedQuery options branches
      (if options.isTree then datatypeKeys.map HiddenColumn.label else [timeKey.label ++ " asc"])
    entry := "stationtype"
    exits := exitsBefore ["metadatahistory"]
    collapses := true
    showNull := options.showNull
    log :=
      [("station_types", restrictionLog types), ("data_types", restrictionLog datatypes)] ++
        windowLog window }

end StationGateway.Recipe
