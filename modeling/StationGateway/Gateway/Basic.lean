import StationGateway.Gateway.Data
import StationGateway.Gateway.Document
import StationGateway.Gateway.Response
import StationGateway.Gateway.Route
import StationGateway.Quota.Limiter

/-!
# The gateway

How a request is answered: who sends it and how often it has been sent, where its path leads, and
which pages may read the answer. Answering a request may change how much the sender has left. -/

namespace StationGateway

open Database

/-- A request. -/
structure Request where
  /-- The method. -/
  method : String
  /-- The target. -/
  uri : Uri
  /-- The headers. -/
  headers : Headers
  /-- The address of the sender, if it is known. -/
  peer : Option Settings.HostAddress
  deriving Repr

/-- The gateway. -/
structure Gateway where
  /-- The settings. -/
  settings : Settings
  /-- What recipes are made from. -/
  resources : Recipe.Resources
  /-- How often requests have been sent. -/
  limiter : Quota.RateLimiter

namespace Gateway

/-- The gateway before the first request. -/
def start (settings : Settings) (resources : Recipe.Resources) : Gateway :=
  ⟨settings, resources, .start settings.allowances⟩

/-- The methods of requests that are answered. -/
def readingMethods : List String := ["GET", "HEAD"]

/-- The header that names the methods of requests that are answered. -/
def allowHeader : String × String :=
  ("allow", Text.join "," readingMethods)

/-- The outcome of a dialogue as a response. -/
def toResponse (now : Time.Instant) : Except GatewayError Json → Response
  | .ok value => .ofJson 200 value
  | .error error => .ofError now error

/-- Answers a request for data. -/
def answerData (context : DataContext) (uri : Uri) (segments : List RouteSegment) :
    Dialogue Response :=
  match Route.decode segments with
  | .error name =>
      .done (.ofText 400 "text/plain; charset=utf-8" s!"Invalid URL: Invalid UTF-8 in `{name}`")
  | .ok texts =>
      match DataPath.ofTexts? texts with
      | some path => (context.ask uri path).map (toResponse context.now)
      | none => .done (.empty 404 [])

/-- Answers a request whose path leads somewhere. -/
def answerRoute (context : DataContext) (uri : Uri) : Route → Dialogue Response
  | .root =>
      .done (.ofText 200 "application/json;charset=UTF-8" (Document.root context.settings.baseUrl))
  | .description =>
      .done (.ofText 200 "application/yaml;charset=UTF-8"
        (Document.description context.settings.hostUrl))
  | .health => .done (.ofJson 200 (.object [("status", .string "ok")]))
  | .data segments => answerData context uri segments
  | .nowhere =>
      .done (.ofError context.now (.notFound "no route matches the requested path"))

/-- Answers a request that is within its limits. -/
def answer (context : DataContext) (request : Request) : Dialogue Response :=
  let route := Route.ofPath request.uri.path
  if route = .nowhere ∨ request.method ∈ readingMethods then
    answerRoute context request.uri route
  else .done (.empty 405 [allowHeader])

/-- The address that requests are counted for: that of the sender, else the first one that the
request has been forwarded for. -/
def addressOf (request : Request) : String :=
  match request.peer with
  | some address => address.text
  | none =>
      match (request.headers.text? "x-forwarded-for").map (Text.pieces ',') with
      | some (first :: _) => if Text.trimmed first = "" then "unknown" else Text.trimmed first
      | _ => "unknown"

/-- The header that names a plan. -/
def planHeader (plan : Quota.Plan) : String × String :=
  ("x-rate-limit-policy", plan.name)

/-- Milliseconds as full seconds, rounded up. -/
def secondsUp (milliseconds : Nat) : Nat :=
  (milliseconds + 999) / 1000

/-- The headers that say how much the sender has left. -/
def rateHeaders (limit : Quota.RateLimit) : List (String × String) :=
  [planHeader limit.plan, ("x-rate-limit-reset", toString (secondsUp limit.probe.resetIn)),
    ("x-rate-limit-limit", toString limit.limit),
    ("x-rate-limit-remaining", toString limit.probe.remaining)]

/-- Answers a request, if the sender has not used up its requests. -/
def answerCounted (gateway : Gateway) (now : Time.Instant) (request : Request) :
    Gateway × Dialogue Response :=
  let caller := Access.Caller.ofRequest request.headers request.uri
  let plan := Quota.Plan.resolve caller.roles caller.subject caller.referer
  let context : DataContext := ⟨gateway.settings, gateway.resources, now, caller, plan⟩
  if request.uri.path = Route.uncountedPath then (gateway, answer context request)
  else
    let key : Quota.BucketKey := ⟨plan, caller.owner, addressOf request, request.uri.path⟩
    let (limit, limiter) := gateway.limiter.check key now.millis.toNat
    let gateway := { gateway with limiter }
    match limit with
    | none => (gateway, (answer context request).map (Response.withHeaders [planHeader plan]))
    | some limit =>
        let response :=
          if limit.probe.consumed then answer context request
          else .done (.ofError now (.rateLimited plan.name))
        (gateway, response.map (Response.withHeaders (rateHeaders limit)))

/-- The header that says which pages may read the answer, if any. -/
def originHeader (settings : Settings) (request : Request) : List (String × String) :=
  match settings.allowedOrigins with
  | none => [("access-control-allow-origin", "*")]
  | some origins =>
      match request.headers.value? "origin" with
      | some origin =>
          if (origins.filter Headers.isReadable).contains origin then
            [("access-control-allow-origin", origin)]
          else []
      | none => []

/-- The answer to a page that asks which requests it may send to some place. -/
def preflight (route : Route) : Response :=
  let headers :=
    [("access-control-allow-methods", "GET,HEAD,OPTIONS"), ("access-control-allow-headers", "*")]
  .empty 200 (if route = .nowhere then headers else allowHeader :: headers)

/-- Answers a request. A request for the head only is told nothing else, unless it leads nowhere. -/
def respond (gateway : Gateway) (now : Time.Instant) (request : Request) :
    Gateway × Dialogue Response :=
  let route := Route.ofPath request.uri.path
  let finish (response : Response) : Response :=
    let response := response.withHeaders (originHeader gateway.settings request)
    if request.method = "HEAD" ∧ route ≠ .nowhere then response.withoutBody else response
  if request.method = "OPTIONS" then (gateway, .done (finish (preflight route)))
  else
    let (gateway, dialogue) := gateway.answerCounted now request
    (gateway, dialogue.map finish)

end Gateway

end StationGateway
