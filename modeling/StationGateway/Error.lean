import StationGateway.Json.Basic

/-!
# Refused requests

Every cause for which a request is refused, with its wording, its HTTP status and the body of the
answer. All wording of answers to refused requests is in this module.
-/

namespace StationGateway

/-- Why a request is refused. -/
inductive GatewayError where
  /-- The settings do not allow it. -/
  | config (reason : String)
  /-- Nothing is at the requested path. -/
  | notFound (reason : String)
  /-- A query parameter is malformed. -/
  | invalidParameter (reason : String)
  /-- A date-time is not written in the expected pattern. -/
  | dateParse (pattern reason : String)
  /-- The first path segment names no representation. -/
  | wrongRepresentation (given : String)
  /-- The database knows no such time zone. -/
  | wrongTimezone (given : String)
  /-- The filter is malformed at a character position. -/
  | filterSyntax (position : Nat) (reason : String)
  /-- No list defines the attribute. -/
  | unknownAttribute (key : String)
  /-- Only lists outside the allowed ones define the attribute. -/
  | attributeNotReachable (key lists : String)
  /-- The operator does not apply to a value of this shape. -/
  | unknownOperator (operator operatorId : String)
  /-- The operator refuses the value. -/
  | operatorCheckFailed (key operator value : String)
  /-- Measured values cannot be compared with a value of this type. -/
  | invalidWhereDataType (key given : String)
  /-- The command does not serve the representation's dataset. -/
  | methodNotAllowed (command representation : String)
  /-- The database cancelled the statement. -/
  | queryTimeout (message : String)
  /-- The database refused the statement. -/
  | database (message : String) (sqlState : Option String)
  /-- The caller has used up its requests. -/
  | rateLimited (policy : String)
  /-- The requested days exceed the plan's budget. -/
  | historicRangeExceeded (limit : Int) (policy hint : String)
  /-- The answer would exceed the size limit in megabytes. -/
  | responseTooLarge (limit : Int)
  /-- A row has no string in a column that the tree is keyed by. -/
  | triggerKeyNotString (key : String)
  /-- A fault of the gateway, whose cause the answer does not show. -/
  | internal (cause : String)
  deriving DecidableEq, Repr

namespace GatewayError

/-- The stable name of the cause, reported to clients. -/
def kind : GatewayError → String
  | config _ => "Config"
  | notFound _ => "NotFound"
  | invalidParameter _ => "InvalidParameter"
  | dateParse _ _ => "DateParseError"
  | wrongRepresentation _ => "WrongRepresentation"
  | wrongTimezone _ => "WrongTimezone"
  | filterSyntax _ _ => "FilterSyntaxError"
  | unknownAttribute _ => "UnknownAttribute"
  | attributeNotReachable _ _ => "AttributeNotReachable"
  | unknownOperator _ _ => "UnknownOperator"
  | operatorCheckFailed _ _ _ => "OperatorCheckFailed"
  | invalidWhereDataType _ _ => "InvalidWhereDataType"
  | methodNotAllowed _ _ => "MethodNotAllowed"
  | queryTimeout _ => "QueryTimeout"
  | database _ _ => "DatabaseError"
  | rateLimited _ => "RateLimited"
  | historicRangeExceeded _ _ _ => "HistoricRangeExceeded"
  | responseTooLarge _ => "ResponseTooLarge"
  | triggerKeyNotString _ => "TriggerKeyNotString"
  | internal _ => "Internal"

/-- The text shown to clients. -/
def message : GatewayError → String
  | config reason => s!"configuration error: {reason}"
  | notFound reason => s!"not found: {reason}"
  | invalidParameter reason => s!"invalid request parameter: {reason}"
  | dateParse pattern reason =>
      s!"PARSING ERROR: Invalid date given. Format must be {pattern}, where [] denotes " ++
        "optionality. Do not forget, single digits must be leaded by 0. Error message: " ++
        reason ++ "."
  | wrongRepresentation given =>
      "PARSING ERROR: Please choose 'flat' or 'tree' as representation, and 'edge', 'event' or " ++
        "'node' (default) as dataset. Separate them with a comma. '" ++ given ++
        "' is not allowed."
  | wrongTimezone given => s!"DATA FETCHING ERROR: '{given}' is not a valid time zone"
  | filterSyntax position reason =>
      s!"Syntax Error in WHERE clause at position {position}: {reason}"
  | unknownAttribute key => s!"SELECT EXPANSION ERROR: Key '{key}' does not exist"
  | attributeNotReachable key lists =>
      s!"SELECT EXPANSION ERROR: Key '{key}' is not reachable from the expanded select " ++
        s!"definition list: {lists}"
  | unknownOperator operator operatorId =>
      s!"SELECT EXPANSION ERROR: Operator '{operator}' does not exist for '{operatorId}'"
  | operatorCheckFailed key operator value =>
      s!"SELECT EXPANSION ERROR: '{key}.<{operator}>' with value {value} is not valid " ++
        "(checks failed)"
  | invalidWhereDataType key given =>
      s!"DATA FETCHING ERROR: '{key}' can only be used with NULL, NUMBERS or STRINGS: " ++
        s!"'{given}' given."
  | methodNotAllowed command representation =>
      s!"DATA FETCHING ERROR: Method '{command}' not allowed with {representation} " ++
        "representation."
  | queryTimeout message => message
  | database message _ => message
  | rateLimited _ => "You have exhausted your API Request Quota"
  | historicRangeExceeded limit _ _ =>
      s!"You have exceeded the date range limit of {limit} days"
  | responseTooLarge limit =>
      s!"TREE BUILDING: Response size of {limit} MB exceeded. Please rephrase your request. Use " ++
        "a flat representation, WHERE, SELECT, LIMIT with OFFSET or a narrow time interval."
  | triggerKeyNotString key =>
      s!"TREE BUILDING: The column '{key}' used to build the TREE representation must be of " ++
        "type STRING"
  | internal _ => "internal error"

/-- The HTTP status of the answer. -/
def status : GatewayError → Nat
  | notFound _ => 404
  | wrongRepresentation _ => 404
  | rateLimited _ => 429
  | config _ => 500
  | queryTimeout _ => 500
  | database _ _ => 500
  | responseTooLarge _ => 500
  | triggerKeyNotString _ => 500
  | internal _ => 500
  | _ => 400

/-- The name of an HTTP status. -/
def reasonPhrase : Nat → String
  | 400 => "Bad Request"
  | 404 => "Not Found"
  | 429 => "Too Many Requests"
  | 500 => "Internal Server Error"
  | _ => ""

/-- What went wrong in general, for causes that need a word on it. -/
def description? : GatewayError → Option String
  | filterSyntax _ _ => some "Syntax error in WHERE-clause"
  | queryTimeout _ => some "Query timed out"
  | database _ _ => some "Error from the database backend"
  | _ => none

/-- What the client can do about it. -/
def hint? : GatewayError → Option String
  | filterSyntax _ _ =>
      some ("You need to escape the following characters ()', within the value part of your " ++
        "filters")
  | queryTimeout _ =>
      some "Query for smaller response chunks: narrow the interval or use LIMIT/OFFSET"
  | historicRangeExceeded _ _ hint => some hint
  | rateLimited _ => some "Authenticate or wait for the quota to refill"
  | _ => none

/-- The plan that the refusal is due to. -/
def policy? : GatewayError → Option String
  | rateLimited policy => some policy
  | historicRangeExceeded _ policy _ => some policy
  | _ => none

/-- The SQLSTATE of a refusal by the database. -/
def sqlState? : GatewayError → Option String
  | database _ state => state
  | _ => none

/-- The details for programs: the kind, and what belongs to it. -/
def info (error : GatewayError) : List (String × Json) :=
  ("kind", .string error.kind) ::
    match error with
    | filterSyntax position _ => [("position", .int position)]
    | attributeNotReachable key _ => [("targetName", .string key)]
    | database _ (some state) => [("sqlState", .string state)]
    | _ => []

/-- A member that is left out when there is no value. -/
def optionalMember (name : String) : Option String → List (String × Json)
  | some value => [(name, .string value)]
  | none => []

/-- The body of the answer, for a given text of the current time. -/
def body (error : GatewayError) (now : String) : Json :=
  .object <|
    [("message", .string error.message), ("timestamp", .string now),
      ("code", .int error.status), ("error", .string (reasonPhrase error.status))] ++
    optionalMember "description" error.description? ++
    optionalMember "hint" error.hint? ++
    optionalMember "policy" error.policy? ++
    [("info", .object error.info)]

end GatewayError

end StationGateway
