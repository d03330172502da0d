import StationGateway.Access.Claims
import StationGateway.Access.Rules
import StationGateway.Request.Headers
import StationGateway.Request.Uri
import StationGateway.Text.Percent

/-!
# Callers

Who sends a request: the roles and the name that its token grants, and the page it comes from.
-/

namespace StationGateway.Access

open Text

/-- The sender of a request. -/
structure Caller where
  /-- The roles: that of administrators alone, or others with that of guests among them. -/
  roles : List String
  /-- The name, which is not empty. -/
  subject : Option String
  /-- The page that the request comes from, which is not blank. -/
  referer : Option String
  deriving DecidableEq, Repr

/-- What the names of roles begin with in claims. -/
def rolePrefix : String := "ODH_ROLE_"

/-- The names of the roles that the gateway knows, without what they begin with. -/
def roleNames (grants : List String) : List String :=
  grants.filterMap fun grant =>
    (stripStart? rolePrefix.toList grant.toList).map String.ofList

/-- The roles of a caller with some grants. An administrator has no other role, and everyone else is
a guest too. -/
def rolesOf (grants : List String) : List String :=
  let names := roleNames grants
  if names.contains adminRole then [adminRole]
  else
    let distinct := names.eraseDups
    if distinct.contains guestRole then distinct else distinct ++ [guestRole]

/-- A text that is not blank. -/
def unlessBlank (text : Option String) : Option String :=
  text.filter fun text => !isBlankText text.toList

/-- The last value of a name in a query string. -/
def lastValue? (name : String) (pairs : List (String × String)) : Option String :=
  (pairs.reverse.find? fun pair => pair.1 = name).map (·.2)

/-- The page that a request comes from: as the query says, else as the header says. -/
def refererOf (headers : Headers) (uri : Uri) : Option String :=
  let pairs := formPairs (uri.query.getD "")
  let fromQuery := (lastValue? "referer" pairs).or (lastValue? "Referer" pairs)
  (unlessBlank fromQuery).or (unlessBlank (headers.text? "referer"))

/-- The claims of the token of a request. -/
def claimsOf? (headers : Headers) : Option Claims := do
  let value ← headers.text? "authorization"
  let token ← ["Bearer ", "bearer "].findSome? fun scheme =>
    stripStart? scheme.toList value.toList
  Claims.ofToken? (String.ofList token)

namespace Caller

/-- The sender of a request with some headers for a target. -/
def ofRequest (headers : Headers) (uri : Uri) : Caller :=
  let claims := (claimsOf? headers).getD .none
  { roles := rolesOf claims.grants
    subject := claims.subject
    referer := refererOf headers uri }

/-- Whether the sender is an administrator. -/
def isAdmin (caller : Caller) : Bool :=
  caller.roles.contains adminRole

/-- Who the rate of requests is counted for: the name, else the page, else nobody. -/
def owner (caller : Caller) : String :=
  (caller.subject.or caller.referer).getD ""

end Caller

end StationGateway.Access
