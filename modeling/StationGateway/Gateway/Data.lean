import StationGateway.Access.Caller
import StationGateway.Database.Dialogue
import StationGateway.Listing
import StationGateway.Quota.History
import StationGateway.Recipe.Edges
import StationGateway.Recipe.Events
import StationGateway.Recipe.Measurements
import StationGateway.Request.Params
import StationGateway.Settings.Basic
import StationGateway.Time.Segment

/-!
# Requests for data

What the segments of a path and the parameters of a request ask for, and the dialogue with the
database that answers it. -/

namespace StationGateway

/-- What the segments of a path ask for. The first one names the representation. -/
inductive DataPath where
  /-- The types of stations or edges, or the origins of events. -/
  | listing (representation : String)
  /-- Stations, edges or events of some types. -/
  | byTypes (representation types : String)
  /-- Stations with some types of data, or the events since an instant or the latest ones. -/
  | byDatatypes (representation types datatypes : String)
  /-- The latest measurements, the history of metadata, or the events of a range of time. -/
  | latest (representation types datatypes window : String)
  /-- The measurements of a range of time. -/
  | history (representation types datatypes first last : String)
  deriving DecidableEq, Repr

/-- What the texts of the segments of a path ask for. -/
def DataPath.ofTexts? : List String → Option DataPath
  | [representation] => some (listing representation)
  | [representation, types] => some (byTypes representation types)
  | [representation, types, datatypes] => some (byDatatypes representation types datatypes)
  | [representation, types, datatypes, window] =>
      some (latest representation types datatypes window)
  | [representation, types, datatypes, first, last] =>
      some (history representation types datatypes first last)
  | _ => none

/-- What requests for data are judged by. -/
structure DataContext where
  /-- The settings. -/
  settings : Settings
  /-- What recipes are made from. -/
  resources : Recipe.Resources
  /-- The present. -/
  now : Time.Instant
  /-- The sender. -/
  caller : Access.Caller
  /-- The plan of the sender. -/
  plan : Quota.Plan

namespace DataContext

/-- What a request with some parameters asks of every recipe. -/
def options (context : DataContext) (params : RequestParams) (representation : String) :
    Except GatewayError Recipe.Options := do
  let representation ← Representation.ofText representation
  return .ofParams params representation context.caller.roles

/-- Refuses more days of history than the plan of the sender allows. -/
def checkHistory (context : DataContext) (first : Time.Instant) (last : Option Time.Instant) :
    Except GatewayError Unit :=
  Quota.checkHistory context.settings.allowances context.plan context.now first last

/-- The window of events that a segment asks for. -/
def eventWindow (segment : String) : Except GatewayError Recipe.EventWindow :=
  if segment = "latest" then .ok .latest
  else (Time.readMoment segment).map .since

/-- Prepares stations, edges or events of some types. -/
def prepareTypes (context : DataContext) (options : Recipe.Options) (types : String) :
    Except GatewayError Recipe.Prepared :=
  match options.representation.dataset with
  | .node => Recipe.stations context.resources options types
  | .edge => Recipe.edges context.resources options types
  | .event => Recipe.events context.resources options types .all

/-- Prepares stations with some types of data, or events. -/
def prepareDatatypes (context : DataContext) (options : Recipe.Options)
    (types datatypes : String) : Except GatewayError Recipe.Prepared :=
  if options.representation.isEvent then do
    let window ← eventWindow datatypes
    Recipe.events context.resources options types window
  else Recipe.stationsWithTypes context.resources options types datatypes

/-- Prepares the history of metadata. Only a range with a beginning is counted. -/
def prepareMetadata (context : DataContext) (options : Recipe.Options) (params : RequestParams)
    (types : String) : Except GatewayError Recipe.Prepared := do
  let first ← Time.readOptionalMoment params.first
  let last ← Time.readOptionalMoment params.last
  match first with
  | some first => context.checkHistory first last
  | none => .ok ()
  Recipe.stationsWithHistory context.resources options types first last

/-- Prepares the latest measurements, the history of metadata, or the events of a range of time. -/
def prepareLatest (context : DataContext) (options : Recipe.Options) (params : RequestParams)
    (types datatypes window : String) : Except GatewayError Recipe.Prepared :=
  if options.representation.isEvent then do
    let first ← Time.readMoment datatypes
    let last ← Time.readMoment window
    Recipe.events context.resources options types (.between first last)
  else if datatypes = "metadata" ∧ window = "history" then
    context.prepareMetadata options params types
  else if window = "latest" then
    Recipe.measurements context.resources options types datatypes none
  else .error (.notFound s!"'{window}' is neither 'latest' nor a time window")

/-- Prepares the measurements of a range of time. -/
def prepareHistory (context : DataContext) (options : Recipe.Options)
    (types datatypes first last : String) : Except GatewayError Recipe.Prepared := do
  let first ← Time.readMoment first
  let last ← Time.readMoment last
  context.checkHistory first (some last)
  Recipe.measurements context.resources options types datatypes (some ⟨first, last⟩)

/-- The answer to a request, for the rows of the database. -/
def answer (context : DataContext) (options : Recipe.Options) (prepared : Recipe.Prepared)
    (rows : List Row) : Except GatewayError Json := do
  let data ← prepared.answer context.resources.catalogue context.settings.sizeLimit rows
  return .object [("offset", .int options.offset), ("limit", .int options.limit), ("data", data)]

/-- Asks the database for what has been prepared. -/
def askPrepared (context : DataContext) (params : RequestParams) (options : Recipe.Options)
    (prepared : Recipe.Prepared) : Database.Dialogue (Except GatewayError Json) :=
  match Statement.bind prepared.sql prepared.params with
  | .error error => .done (.error error)
  | .ok statement =>
      (Database.askInSession params.zone context.settings.statementTimeout statement).andThen
        fun rows => .done (context.answer options prepared rows)

/-- Asks the database for what a request with parameters prepares. -/
def askData (context : DataContext) (uri : Uri) (representation : String)
    (prepare : Recipe.Options → RequestParams → Except GatewayError Recipe.Prepared) :
    Database.Dialogue (Except GatewayError Json) :=
  let found : Except GatewayError (RequestParams × Recipe.Options × Recipe.Prepared) := do
    let params ← RequestParams.ofUri uri
    let options ← context.options params representation
    let prepared ← prepare options params
    return (params, options, prepared)
  match found with
  | .error error => .done (.error error)
  | .ok (params, options, prepared) => context.askPrepared params options prepared

/-- Asks the database for a listing. -/
def askListing (context : DataContext) (given : String) :
    Database.Dialogue (Except GatewayError Json) :=
  match Representation.ofText given with
  | .error error => .done (.error error)
  | .ok representation =>
      let url := context.settings.baseUrl ++ "/" ++ given ++ "/"
      (Database.askNames (Listing.sql representation.dataset)).andThen fun names =>
        .done (.ok (.array (names.map (Listing.entry representation url))))

/-- Asks the database for what a path and a query string ask for. -/
def ask (context : DataContext) (uri : Uri) :
    DataPath → Database.Dialogue (Except GatewayError Json)
  | .listing representation => context.askListing representation
  | .byTypes representation types =>
      context.askData uri representation fun options _ => context.prepareTypes options types
  | .byDatatypes representation types datatypes =>
      context.askData uri representation fun options _ =>
        context.prepareDatatypes options types datatypes
  | .latest representation types datatypes window =>
      context.askData uri representation fun options params =>
        context.prepareLatest options params types datatypes window
  | .history representation types datatypes first last =>
      context.askData uri representation fun options _ =>
        context.prepareHistory options types datatypes first last

end DataContext

end StationGateway
