import StationGateway.Error
import StationGateway.Request.Uri
import StationGateway.Text.Integer
import StationGateway.Text.Percent

/-!
# Query parameters

The parameters that requests for data understand. An empty value is as good as none, other
parameters do not matter, and none may be given twice. The first fault in the query string decides.
-/

namespace StationGateway

open Text

/-- Why query parameters are refused. -/
inductive ParamError where
  /-- A parameter is given twice. -/
  | repeated (name : String)
  /-- A value should be a whole number. -/
  | integer (error : IntegerError)
  /-- A value should be a truth value. -/
  | boolean
  deriving DecidableEq, Repr

/-- The wording of a refusal. -/
def ParamError.message : ParamError → String
  | repeated name => s!"duplicate field `{name}`"
  | integer error => error.message
  | boolean => "provided string was not `true` or `false`"

/-- The parameters of a request. -/
structure RequestParams where
  /-- The greatest number of rows. -/
  limit : Option Int
  /-- The number of rows to be skipped. -/
  offset : Option Int
  /-- What is selected. -/
  select : Option String
  /-- What is required of rows. -/
  filter : Option String
  /-- Whether nulls are shown. -/
  showNull : Option Bool
  /-- Whether repeated rows are dropped. -/
  distinct : Option Bool
  /-- The time zone of the answer. -/
  timezone : Option String
  /-- The beginning of a range. -/
  first : Option String
  /-- The end of a range. -/
  last : Option String
  deriving DecidableEq, Repr

namespace RequestParams

/-- No parameters. -/
def none : RequestParams :=
  ⟨.none, .none, .none, .none, .none, .none, .none, .none, .none⟩

/-- A text, unless it is empty. -/
def readText (value : String) : Except ParamError (Option String) :=
  .ok (if value = "" then .none else some value)

/-- A whole number of 64 bits, unless the text is empty. -/
def readNumber (value : String) : Except ParamError (Option Int) :=
  if value = "" then .ok .none
  else
    match readInteger 0x8000000000000000 0x7FFFFFFFFFFFFFFF value.toList with
    | .ok number => .ok (some number)
    | .error error => .error (.integer error)

/-- A truth value, unless the text is empty. -/
def readTruth (value : String) : Except ParamError (Option Bool) :=
  if value = "" then .ok .none
  else if value = "true" then .ok (some true)
  else if value = "false" then .ok (some false)
  else .error .boolean

/-- The parameters with one of them set, none if the name is that of no parameter. -/
def set? (params : RequestParams) (name value : String) :
    Option (Except ParamError RequestParams) :=
  match name with
  | "limit" => some ((readNumber value).map fun limit => { params with limit })
  | "offset" => some ((readNumber value).map fun offset => { params with offset })
  | "select" => some ((readText value).map fun select => { params with select })
  | "where" => some ((readText value).map fun filter => { params with filter })
  | "shownull" => some ((readTruth value).map fun showNull => { params with showNull })
  | "distinct" => some ((readTruth value).map fun distinct => { params with distinct })
  | "timezone" => some ((readText value).map fun timezone => { params with timezone })
  | "from" => some ((readText value).map fun first => { params with first })
  | "to" => some ((readText value).map fun last => { params with last })
  | _ => .none

/-- The parameters with further ones set, where those in `seen` have been given. -/
def setAll (seen : List String) (params : RequestParams) :
    List (String × String) → Except ParamError RequestParams
  | [] => .ok params
  | (name, value) :: rest =>
      match params.set? name value with
      | .none => params.setAll seen rest
      | some result =>
          if name ∈ seen then .error (.repeated name)
          else do
            let params ← result
            params.setAll (name :: seen) rest

/-- The parameters of a request. -/
def ofUri (uri : Uri) : Except GatewayError RequestParams :=
  (setAll [] .none (formPairs (uri.query.getD ""))).mapError fun error =>
    .invalidParameter ("Failed to deserialize query string: " ++ error.message)

/-- The time zone of the answer. -/
def zone (params : RequestParams) : String :=
  params.timezone.getD "UTC"

end RequestParams

end StationGateway
