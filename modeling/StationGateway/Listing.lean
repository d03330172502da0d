import StationGateway.Representation

/-!
# Listings

What there is to ask for: the types of stations or edges, or the origins of events, each with the
targets of requests that lead on from it.
-/

namespace StationGateway.Listing

/-- The name of the command that lists a dataset. -/
def command : Dataset → String
  | .node => "fetchStationTypes"
  | .edge => "fetchEdgeTypes"
  | .event => "fetchEventOrigins"

/-- The statement that lists a dataset. -/
def sql : Dataset → String
  | .node =>
      "select distinct stationtype as id from station s where s.available = true order by 1"
  | .edge =>
      "select distinct s.stationtype as id from edge e join station s on e.edge_data_id = s.id " ++
        "where s.available = true order by 1"
  | .event => "select distinct origin as id from event order by 1"

/-- The names and targets of the requests that lead on from an entry, below a URL that ends in a
slash. -/
def links (dataset : Dataset) (url id : String) : List (String × String) :=
  match dataset with
  | .node =>
      [("stations", url ++ id), ("stations+datatypes", url ++ id ++ "/*"),
        ("stations+datatypes+measurements", url ++ id ++ "/*/latest")]
  | .edge => [("edges", url ++ id)]
  | .event => [("events", url ++ id)]

/-- The entry of a listing. -/
def entry (representation : Representation) (url id : String) : Json :=
  let links := links representation.dataset url id
  let shown : List (String × Json) :=
    match representation.shape with
    | .flat => links.map fun (name, link) => ("self." ++ name, .string link)
    | .tree => [("self", .object (links.map fun (name, link) => (name, .string link)))]
  .object ([("id", .string id), ("description", .null)] ++ shown)

end StationGateway.Listing
