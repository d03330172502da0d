import StationGateway.Access.Rules

/-!
# Plans

Who a caller is decides its plan, and the plan decides how often it may ask and how far back.
-/

namespace StationGateway.Quota

open Text

/-- The plans, least privileged first. -/
inductive Plan where
  /-- For callers who do not say who they are. -/
  | anonymous
  /-- For callers who name the page they come from. -/
  | referer
  /-- For callers who are logged in. -/
  | basic
  /-- For callers with the role of the advanced plan. -/
  | advanced
  /-- For callers with the role of the premium plan. -/
  | premium
  /-- For administrators, who are never limited. -/
  | unrestricted
  deriving DecidableEq, Repr

namespace Plan

/-- The name of a plan. -/
def name : Plan → String
  | anonymous => "Anonymous"
  | referer => "Referer"
  | basic => "Authenticated Basic"
  | advanced => "Authenticated Advanced"
  | premium => "Authenticated Premium"
  | unrestricted => "No Restriction"

/-- All plans, least privileged first. -/
def all : List Plan :=
  [anonymous, referer, basic, advanced, premium, unrestricted]

/-- The plan of a name. -/
def ofName? (name : String) : Option Plan :=
  all.find? fun plan => plan.name = name

/-- The most privileged plan that a caller qualifies for. -/
def resolve (roles : List String) (subject referer : Option String) : Plan :=
  if roles.contains Access.adminRole then unrestricted
  else if subject.any (· ≠ "") then
    if roles.contains "PREMIUM" then premium
    else if roles.contains "ADVANCED" then advanced
    else basic
  else if referer.any fun referer => !isBlankText referer.toList then .referer
  else anonymous

end Plan

/-- What a plan allows. -/
structure Limits where
  /-- Requests per second. -/
  rate : Nat
  /-- Days of history in one request. -/
  days : Int
  deriving DecidableEq, Repr

/-- What the limited plans allow, and where to read about it. -/
structure Allowances where
  /-- For the anonymous plan. -/
  anonymous : Limits
  /-- For the plan of callers with a referer. -/
  referer : Limits
  /-- For the basic plan. -/
  basic : Limits
  /-- For the advanced plan. -/
  advanced : Limits
  /-- For the premium plan. -/
  premium : Limits
  /-- The page about limits on history. -/
  historyPage : String
  deriving DecidableEq, Repr

namespace Allowances

/-- The allowances unless the settings say otherwise. -/
def standard : Allowances :=
  { anonymous := ⟨20, 30⟩
    referer := ⟨100, 90⟩
    basic := ⟨200, 180⟩
    advanced := ⟨500, 365⟩
    premium := ⟨1000, 3650⟩
    historyPage :=
      "https://docs.opendatahub.com/en/latest/guidelines/historicdata.html" }

/-- The limits of a plan, none for the unrestricted one. -/
def limits? (allowances : Allowances) : Plan → Option Limits
  | .anonymous => some allowances.anonymous
  | .referer => some allowances.referer
  | .basic => some allowances.basic
  | .advanced => some allowances.advanced
  | .premium => some allowances.premium
  | .unrestricted => none

end Allowances

end StationGateway.Quota
