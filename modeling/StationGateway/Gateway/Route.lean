import StationGateway.Text.Percent

/-!
# Routes

Where the path of a request leads: to a document, to data, or nowhere. The segments of paths to data
are named, and percent signs in them are resolved.
-/

namespace StationGateway

open Text

/-- A segment of a path, with its percent signs. -/
structure RouteSegment where
  /-- What the segment is called. -/
  name : String
  /-- The segment as it stands in the path. -/
  raw : String
  deriving DecidableEq, Repr

/-- Where a path leads. -/
inductive Route where
  /-- To the document that says what there is. -/
  | root
  /-- To the description of the interface. -/
  | description
  /-- To the answer that the gateway is well. -/
  | health
  /-- To data, by one to five segments. -/
  | data (segments : List RouteSegment)
  /-- To nothing. -/
  | nowhere
  deriving DecidableEq, Repr

namespace Route

/-- The names of the segments of a path to data, by their number. -/
def segmentNames? : Nat → Option (List String)
  | 1 => some ["repr"]
  | 2 => some ["repr", "types"]
  | 3 => some ["repr", "types", "segment"]
  | 4 => some ["repr", "types", "datatypes", "segment"]
  | 5 => some ["repr", "types", "datatypes", "from", "to"]
  | _ => none

/-- Where the segments of a path lead. None of them may be empty. -/
def ofSegments (segments : List String) : Route :=
  if segments.contains "" then nowhere
  else
    match segmentNames? segments.length with
    | some names => data (List.zipWith RouteSegment.mk names segments)
    | none => nowhere

/-- Where a path leads. -/
def ofPath (path : String) : Route :=
  match path with
  | "/" => root
  | "/apispec" => description
  | "/healthz" => health
  | _ =>
      match path.toList with
      | '/' :: rest => ofSegments ((splitOn '/' rest).map String.ofList)
      | _ => nowhere

/-- The path on which requests are not counted. -/
def uncountedPath : String := "/healthz"

/-- The texts of segments. It is an error if one of them is no text; the error is its name. -/
def decode : List RouteSegment → Except String (List String)
  | [] => .ok []
  | segment :: rest =>
      match decodeSegment? segment.raw with
      | none => .error segment.name
      | some text => (decode rest).map (text :: ·)

end Route

end StationGateway
