import StationGateway.Recipe.Stations

/-!
# Edges

Edges between stations. An edge is described by a station of its own, and may have stations at its
ends.
-/

namespace StationGateway.Recipe

open Text

/-- The columns that nest edges. -/
def edgeKeys : List HiddenColumn :=
  [⟨"i.stationtype", "_edgetype"⟩, ⟨"i.stationcode", "_edgecode"⟩]

/-- The stations at the ends of edges, as far as they are in use. -/
def endJoins (expansion : Expansion) : List Join :=
  onlyIf (expansion.usesList "stationbegin") (leftJoin "station" "o" "e.origin_id = o.id") ++
    onlyIf (expansion.usesList "stationend") (leftJoin "station" "d" "e.destination_id = d.id")

/-- The conditions on the stations at the ends of edges to be available, as far as they are in use.
-/
def availableEnds (expansion : Expansion) : List Condition :=
  onlyIf (expansion.usesList "stationbegin")
      (.fixed "(o.available is null or o.available = true)") ++
    onlyIf (expansion.usesList "stationend")
      (.fixed "(d.available is null or d.available = true)")

/-- The selection of edges. -/
def edgeBranch (options : Options) (types : Option (List String)) (expansion : Expansion) : Branch :=
  { hidden := treeKeys options edgeKeys
    fragments := expansion.fragmentsOf []
    source := ⟨"edge", "e"⟩
    joins := innerJoin "station" "i" "e.edge_data_id = i.id" :: endJoins expansion
    conditions :=
      [.fixed "i.available = true"] ++ availableEnds expansion ++
        oneOf "i.stationtype" "stationtypes" types ++ filterCondition expansion.predicate }

/-- Edges of some types. -/
def edges (resources : Resources) (options : Options) (typeSegment : String) :
    Except GatewayError Prepared := do
  options.require "fetchEdges" .edge
  let types := restriction? typeSegment
  let expansion ← resources.expand options ["edge", "stationbegin", "stationend"]
  return {
    command := "fetchEdges"
    representation := options.representation
    query := pagedQuery options [edgeBranch options types expansion] (treeOrder options edgeKeys)
    entry := "edgetype"
    exits := []
    collapses := false
    showNull := options.showNull
    log := [("edge_types", restrictionLog types)] }

end StationGateway.Recipe
