import StationGateway.Filter.Basic
import StationGateway.Order.Sorted
import StationGateway.Time.Instant

/-!
# Statement values

The values that a statement refers to by name, and the literals of a filter as such values.
-/

namespace StationGateway

open Decimal Text

/-- A value that a statement refers to. -/
inductive SqlValue where
  /-- No value. -/
  | null
  /-- A truth value. -/
  | bool (value : Bool)
  /-- A whole number of 64 bits. -/
  | int (value : Int)
  /-- A double. -/
  | float (value : Binary64)
  /-- A text. -/
  | text (value : String)
  /-- A point in time. -/
  | timestamp (value : Time.Instant)
  /-- Several values. -/
  | list (values : List SqlValue)
  deriving Repr, Inhabited

namespace SqlValue

/-- Whether this is no value. -/
def isNull : SqlValue → Bool
  | null => true
  | _ => false

/-- A list of texts. -/
def texts (values : List String) : SqlValue :=
  .list (values.map .text)

/-- The greatest whole number of a value. -/
def intLimit : Int := 0x7FFFFFFFFFFFFFFF

/-- A number as a value: whole numbers beyond 63 bits become doubles. -/
def ofNumber : Number → SqlValue
  | .int value =>
      if value ≤ intLimit then .int value
      else .float (Number.int value).toBinary64
  | .float value => .float value

/-- A literal of a filter as a value. -/
def ofLiteral : Filter.Literal → SqlValue
  | .null => .null
  | .boolean value => .bool value
  | .number value => ofNumber value
  | .text value => .text value

mutual

/-- The value as an element of an array of texts. -/
def elementText : SqlValue → String
  | null => ""
  | bool value => if value then "true" else "false"
  | int value => toString value
  | float value => Layout.plain.write value
  | text value => value
  | timestamp value => value.rfc3339
  | list values => join "," (elementTexts values)

/-- The values as elements of an array of texts. -/
def elementTexts : List SqlValue → List String
  | [] => []
  | value :: rest => elementText value :: elementTexts rest

end

end SqlValue

/-- The values of a statement by ascending name. -/
abbrev Params := List (String × SqlValue)

end StationGateway
