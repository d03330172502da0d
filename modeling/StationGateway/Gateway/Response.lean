import StationGateway.Error
import StationGateway.Json.Printer
import StationGateway.Time.Instant

/-!
# Responses

What goes back to the client: a status, headers and a body.
-/

namespace StationGateway

/-- A response. -/
structure Response where
  /-- The status. -/
  status : Nat
  /-- The headers, each name once. -/
  headers : List (String × String)
  /-- The body. -/
  body : String
  deriving DecidableEq, Repr

namespace Response

/-- A response without a body. -/
def empty (status : Nat) (headers : List (String × String)) : Response :=
  ⟨status, headers, ""⟩

/-- A response with a text. -/
def ofText (status : Nat) (contentType body : String) : Response :=
  ⟨status, [("content-type", contentType)], body⟩

/-- A response with a JSON value. -/
def ofJson (status : Nat) (value : Json) : Response :=
  .ofText status "application/json" value.print

/-- The response to a request that is refused at some instant. -/
def ofError (now : Time.Instant) (error : GatewayError) : Response :=
  .ofJson error.status (error.body now.rfc3339)

/-- The response with further headers. -/
def withHeaders (headers : List (String × String)) (response : Response) : Response :=
  { response with headers := response.headers ++ headers }

/-- The response without its body. -/
def withoutBody (response : Response) : Response :=
  { response with body := "" }

end Response

end StationGateway
