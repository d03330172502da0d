import StationGateway.Recipe.Stations

/-!
# Events

Events of some origins: all of them, the latest one of every series, or those whose interval reaches
into a range of time.
-/

namespace StationGateway.Recipe

open Text

/-- Which events are asked for. -/
inductive EventWindow where
  /-- All events. -/
  | all
  /-- The latest event of every series. -/
  | latest
  /-- The events that have not ended before an instant. -/
  | since (first : Time.Instant)
  /-- The events whose interval meets a range, with both its ends. -/
  | between (first last : Time.Instant)
  deriving DecidableEq, Repr

/-- The instant that events must not have ended before. -/
def EventWindow.first? : EventWindow → Option Time.Instant
  | since first => some first
  | between first _ => some first
  | _ => none

/-- The instant that events must have begun by. -/
def EventWindow.last? : EventWindow → Option Time.Instant
  | between _ last => some last
  | _ => none

/-- The columns that nest events, those of their locations only if these are in use. -/
def eventKeys (withLocation : Bool) : List HiddenColumn :=
  [⟨"ev.origin", "_eventorigin"⟩, ⟨"ev.event_series_uuid", "_eventseriesuuid"⟩,
    ⟨"ev.uuid", "_eventuuid"⟩] ++
    onlyIf withLocation ⟨"ev.location_id::text", "_locationid"⟩

/-- The events by rank within their series, the latest one first. -/
def latestPrelude : String :=
  "with latest as (select e.id, row_number() over(partition by e.origin, e.event_series_uuid " ++
    "order by e.event_interval desc) as rank from event e)"

/-- The rank, provenance, location and metadata of events, as far as they are in use. -/
def eventJoins (expansion : Expansion) (latest : Bool) : List Join :=
  onlyIf latest (innerJoin "latest" "lat" "lat.id = ev.id") ++
    onlyIf (expansion.usesList "provenanceevent")
      (leftJoin "provenance" "pr" "ev.provenance_id = pr.id") ++
    onlyIf (expansion.usesList "location") (leftJoin "location" "loc" "ev.location_id = loc.id") ++
    onlyIf (expansion.usesAttribute "evmetadata")
      (leftJoin "metadata" "evm" "evm.id = ev.meta_data_id")

/-- The conditions on events to lie in a range of time. -/
def eventConditions (window : EventWindow) : List Condition :=
  onlyIf (window = .latest) (.fixed "lat.rank = 1") ++
    (window.first?.toList.map fun first =>
      .about
        "(upper(ev.event_interval) is null or upper(ev.event_interval) > :from::timestamp)"
        "from" (.timestamp first)) ++
    (window.last?.toList.map fun last =>
      .about "lower(ev.event_interval) <= :to::timestamp" "to" (.timestamp last))

/-- What is written about a range of time to the log. -/
def eventWindowLog (window : EventWindow) : List (String × Json) :=
  if window.first?.isSome || window.last?.isSome then
    [("history_from", momentLog window.first?), ("history_to", momentLog window.last?)]
  else []

/-- The selection of events, for the access rule. -/
def eventBranch (options : Options) (origins : Option (List String)) (window : EventWindow)
    (expansion : Expansion) (access : List Condition) : Branch :=
  { hidden := treeKeys options (eventKeys (expansion.usesList "location"))
    fragments := expansion.fragmentsOf []
    source := ⟨"event", "ev"⟩
    joins := eventJoins expansion (window = .latest)
    conditions :=
      [.fixed "true"] ++ access ++ eventConditions window ++ oneOf "ev.origin" "origins" origins ++
        filterCondition expansion.predicate }

/-- Events of some origins. -/
def events (resources : Resources) (options : Options) (originSegment : String) (window : EventWindow) :
    Except GatewayError Prepared := do
  options.require "fetchEvents" .event
  let origins := restriction? originSegment
  let expansion ← resources.expand options ["event", "location", "provenanceevent"]
  let access ← resources.access options .events
  return {
    command := "fetchEvents"
    representation := options.representation
    query :=
      { pagedQuery options [eventBranch options origins window expansion access]
          (treeOrder options (eventKeys (expansion.usesList "location"))) with
        prelude := if window = .latest then some latestPrelude else none }
    entry := "eventorigin"
    exits := []
    collapses := false
    showNull := options.showNull
    log := ("origins", restrictionLog origins) :: eventWindowLog window }

end StationGateway.Recipe
