import StationGateway.Catalogue.Mobility
import StationGateway.Proofs.Outcome
import StationGateway.Recipe.Edges
import StationGateway.Recipe.Events
import StationGateway.Recipe.Measurements
import StationGateway.Recipe.Stations

/-!
# Stages of recipes

What is known about a request that is ready for the database: how the selection and the filter were
resolved, which access rule applies, and how the query was put together from them.
-/

namespace StationGateway.Recipe

open Outcome

/-- A request for rows. -/
inductive Request where
  /-- Stations of some types. -/
  | stations (types : String)
  /-- Stations of some types with the metadata that were created between two instants. -/
  | stationsWithHistory (types : String) (first last : Option Time.Instant)
  /-- Stations of some types with the types of their data. -/
  | stationsWithTypes (types datatypes : String)
  /-- The latest measurements, or those of a range of time. -/
  | measurements (types datatypes : String) (window : Option Window)
  /-- Edges of some types. -/
  | edges (types : String)
  /-- Events of some origins. -/
  | events (origins : String) (window : EventWindow)

/-- Makes a request ready for the database. -/
def Request.prepare (resources : Resources) (options : Options) :
    Request → Except GatewayError Prepared
  | stations types => Recipe.stations resources options types
  | stationsWithHistory types first last =>
      Recipe.stationsWithHistory resources options types first last
  | stationsWithTypes types datatypes =>
      Recipe.stationsWithTypes resources options types datatypes
  | measurements types datatypes window =>
      Recipe.measurements resources options types datatypes window
  | edges types => Recipe.edges resources options types
  | events origins window => Recipe.events resources options origins window

/-- Whether the rows of a request hold measured values. -/
def Request.measures : Request → Bool
  | measurements .. => true
  | _ => false

/-- The catalogue, the operators and the rules that come with the gateway. -/
def Resources.bundled : Resources :=
  ⟨Mobility.catalogue, .standard, .standard⟩

theorem mem_onlyIf {α : Type} {condition : Bool} {part found : α} :
    found ∈ onlyIf condition part ↔ condition = true ∧ found = part := by
  rw [onlyIf]
  split_ifs with holds
  · simp [holds]
  · simp [holds]

theorem mem_filterCondition {predicate : Option Predicate} {condition : Condition} :
    condition ∈ filterCondition predicate ↔
      ∃ compiled, predicate = some compiled ∧ condition = .filter compiled := by
  cases predicate with
  | none => simp [filterCondition]
  | some compiled => simp [filterCondition]

section

variable {resources : Resources} {options : Options} {types datatypes : String}
  {prepared : Prepared}

theorem exists_of_stations (compiled : stations resources options types = .ok prepared) :
    ∃ expansion, resources.expand options ["station", "parent"] = .ok expansion ∧
      prepared.query = pagedQuery options [stationBranch options (restriction? types) expansion]
        (treeOrder options stationKeys) := by
  obtain ⟨_, _, compiled⟩ := bind_eq_ok_iff.mp compiled
  obtain ⟨expansion, expanded, done⟩ := bind_eq_ok_iff.mp compiled
  obtain rfl := Except.ok.inj done
  exact ⟨expansion, expanded, rfl⟩

theorem exists_of_stationsWithHistory {first last : Option Time.Instant}
    (compiled : stationsWithHistory resources options types first last = .ok prepared) :
    ∃ expansion, resources.expand options ["station", "parent", "metadatahistory"] = .ok expansion ∧
      prepared.query = pagedQuery options
        [historyBranch options (restriction? types) first last expansion]
        (treeOrder options stationKeys) := by
  obtain ⟨_, _, compiled⟩ := bind_eq_ok_iff.mp compiled
  obtain ⟨expansion, expanded, done⟩ := bind_eq_ok_iff.mp compiled
  obtain rfl := Except.ok.inj done
  exact ⟨expansion, expanded, rfl⟩

theorem exists_of_stationsWithTypes
    (compiled : stationsWithTypes resources options types datatypes = .ok prepared) :
    ∃ expansion, resources.expand options ["station", "parent", "datatype"] = .ok expansion ∧
      prepared.query = pagedQuery options
        (currentTables.map
          (typeBranch options (restriction? types) (restriction? datatypes) expansion))
        (treeOrder options datatypeKeys) := by
  obtain ⟨_, _, compiled⟩ := bind_eq_ok_iff.mp compiled
  obtain ⟨expansion, expanded, done⟩ := bind_eq_ok_iff.mp compiled
  obtain rfl := Except.ok.inj done
  exact ⟨expansion, expanded, rfl⟩

theorem exists_of_edges (compiled : edges resources options types = .ok prepared) :
    ∃ expansion, resources.expand options ["edge", "stationbegin", "stationend"] = .ok expansion ∧
      prepared.query = pagedQuery options [edgeBranch options (restriction? types) expansion]
        (treeOrder options edgeKeys) := by
  obtain ⟨_, _, compiled⟩ := bind_eq_ok_iff.mp compiled
  obtain ⟨expansion, expanded, done⟩ := bind_eq_ok_iff.mp compiled
  obtain rfl := Except.ok.inj done
  exact ⟨expansion, expanded, rfl⟩

/-- The query for measurements has a branch for each table that can have rows. -/
theorem exists_of_measurements {window : Option Window}
    (compiled : measurements resources options types datatypes window = .ok prepared) :
    ∃ expansion tables access branches,
      resources.expand options measurementLists = .ok expansion ∧
      valueTables expansion = .ok tables ∧
      resources.access options .stations = .ok access ∧
      List.Forall₂ (fun values branch => ∃ predicate,
        expansion.predicateFor values.list = .ok predicate ∧
        branch = measurementBranch options (restriction? types) (restriction? datatypes) window
          expansion access values predicate) tables branches ∧
      prepared.query = pagedQuery options branches
        (if options.isTree then datatypeKeys.map HiddenColumn.label
          else [timeKey.label ++ " asc"]) := by
  obtain ⟨_, _, compiled⟩ := bind_eq_ok_iff.mp compiled
  obtain ⟨expansion, expanded, compiled⟩ := bind_eq_ok_iff.mp compiled
  obtain ⟨tables, tables_eq, compiled⟩ := bind_eq_ok_iff.mp compiled
  obtain ⟨access, access_eq, compiled⟩ := bind_eq_ok_iff.mp compiled
  obtain ⟨branches, branches_eq, done⟩ := bind_eq_ok_iff.mp compiled
  obtain rfl := Except.ok.inj done
  refine ⟨expansion, tables, access, branches, expanded, tables_eq, access_eq, ?_, rfl⟩
  refine (forall₂_of_mapM branches_eq).imp fun values branch made => ?_
  obtain ⟨predicate, predicate_eq, equal⟩ := bind_eq_ok_iff.mp made
  exact ⟨predicate, predicate_eq, (Except.ok.inj equal).symm⟩

theorem exists_of_events {origins : String} {window : EventWindow}
    (compiled : events resources options origins window = .ok prepared) :
    ∃ expansion access,
      resources.expand options ["event", "location", "provenanceevent"] = .ok expansion ∧
      resources.access options .events = .ok access ∧
      prepared.query =
        { pagedQuery options
            [eventBranch options (restriction? origins) window expansion access]
            (treeOrder options (eventKeys (expansion.usesList "location"))) with
          prelude := if window = .latest then some latestPrelude else none } := by
  obtain ⟨_, _, compiled⟩ := bind_eq_ok_iff.mp compiled
  obtain ⟨expansion, expanded, compiled⟩ := bind_eq_ok_iff.mp compiled
  obtain ⟨access, access_eq, done⟩ := bind_eq_ok_iff.mp compiled
  obtain rfl := Except.ok.inj done
  exact ⟨expansion, access, expanded, access_eq, rfl⟩

/-- Some table can have rows for every filter. -/
theorem valueTables_ne_nil {expansion : Expansion} {tables : List ValueTable}
    (found : valueTables expansion = .ok tables) : tables ≠ [] := by
  rintro rfl
  rw [valueTables] at found
  split at found
  · cases found
  next comparison _ =>
    rw [tablesFor] at found
    split at found <;> cases found
  · cases found

end

end StationGateway.Recipe
