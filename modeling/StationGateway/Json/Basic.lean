import StationGateway.Decimal.Number

/-!
# JSON values

Members of an object keep the order in which their names first appear; a repeated name replaces the
value and keeps the place.
-/

namespace StationGateway

open Decimal

/-- A JSON value. -/
inductive Json where
  /-- The value `null`. -/
  | null
  /-- A truth value. -/
  | bool (value : Bool)
  /-- A number. -/
  | number (value : Number)
  /-- A string. -/
  | string (value : String)
  /-- An array. -/
  | array (items : List Json)
  /-- An object with its members in order. -/
  | object (members : List (String × Json))
  deriving Repr, Inhabited

namespace Json

/-- Whether the value is `null`. -/
def isNull : Json → Bool
  | null => true
  | _ => false

/-- A whole number. -/
def int (value : Int) : Json :=
  .number (.int value)

/-- A string, or `null` where there is none. -/
def ofText? : Option String → Json
  | some value => .string value
  | none => .null

/-- An array of strings. -/
def texts (values : List String) : Json :=
  .array (values.map .string)

/-- The members with `name` set to `value`: in its place if it is there, else at the end. -/
def setMember (name : String) (value : Json) : List (String × Json) → List (String × Json)
  | [] => [(name, value)]
  | (first, old) :: rest =>
      if first = name then (name, value) :: rest else (first, old) :: setMember name value rest

/-- The value of a member. -/
def member? (name : String) : List (String × Json) → Option Json
  | [] => none
  | (first, value) :: rest => if first = name then some value else member? name rest

/-- Members in the order of their names' first appearance, each with the last value given. -/
def members (entries : List (String × Json)) : List (String × Json) :=
  entries.foldl (fun all entry => setMember entry.1 entry.2 all) []

end Json

end StationGateway
