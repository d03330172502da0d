import StationGateway.Decimal.Number
import StationGateway.Json.Basic
import StationGateway.Text.Split

/-!
# Filters

A filter is built from clauses by conjunction and disjunction. A clause compares an attribute, or a
place inside its JSON value, with an operand by an operator.
-/

namespace StationGateway.Filter

open Decimal Text

/-- A value written in a filter. -/
inductive Literal where
  /-- The word `null`. -/
  | null
  /-- The word `true` or `false`. -/
  | boolean (value : Bool)
  /-- A number. -/
  | number (value : Number)
  /-- Any other text. -/
  | text (value : String)
  deriving DecidableEq, Repr

/-- The types of literals, and what lists of literals of several types have. -/
inductive ValueType where
  /-- The type of `null`. -/
  | null
  /-- The type of truth values. -/
  | boolean
  /-- The type of numbers. -/
  | number
  /-- The type of texts. -/
  | string
  /-- Several types in one list. -/
  | mixed
  deriving DecidableEq, Repr

/-- The name of a type. -/
def ValueType.name : ValueType → String
  | null => "NULL"
  | boolean => "BOOLEAN"
  | number => "NUMBER"
  | string => "STRING"
  | mixed => "MIXED"

namespace Literal

/-- The type of a literal. -/
def valueType : Literal → ValueType
  | null => .null
  | boolean _ => .boolean
  | number _ => .number
  | text _ => .string

/-- The literal as a JSON value. -/
def toJson : Literal → Json
  | null => .null
  | boolean value => .bool value
  | number value => .number value
  | text value => .string value

/-- The literal as messages show it: texts in single quotes, with nothing escaped. -/
def shown : Literal → String
  | null => "null"
  | boolean value => if value then "true" else "false"
  | number value => value.text
  | text value => "'" ++ value ++ "'"

end Literal

/-- What an attribute is compared with. -/
inductive Operand where
  /-- One literal. -/
  | scalar (value : Literal)
  /-- A list of literals. -/
  | list (values : List Literal)
  deriving DecidableEq, Repr

namespace Operand

/-- The type shared by the members of a list that are not null, `mixed` if there is no such type. A
list of nulls has the type of null. -/
def sharedType (values : List Literal) : ValueType :=
  match ((values.map Literal.valueType).filter (· ≠ .null)).eraseDups with
  | [] => .null
  | [type] => type
  | _ => .mixed

/-- The type of an operand. -/
def valueType : Operand → ValueType
  | scalar value => value.valueType
  | list values => sharedType values

/-- Whether the operand is a list. -/
def isList : Operand → Bool
  | scalar _ => false
  | list _ => true

/-- The number of literals. -/
def size : Operand → Nat
  | scalar _ => 1
  | list values => values.length

/-- The operand as messages show it. -/
def shown : Operand → String
  | scalar value => value.shown
  | list values => "(" ++ join "," (values.map Literal.shown) ++ ")"

/-- The operand as a JSON value. -/
def toJson : Operand → Json
  | scalar value => value.toJson
  | list values => .array (values.map Literal.toJson)

end Operand

/-- A comparison. -/
structure Clause where
  /-- The name of the attribute. -/
  key : String
  /-- The segments of the path into its JSON value, none for the whole value. -/
  path : List String
  /-- The name of the operator. -/
  operator : String
  /-- What the attribute is compared with. -/
  operand : Operand
  /-- The number of characters of the filter before the clause. -/
  position : Nat
  deriving DecidableEq, Repr

/-- The dotted path, if there is one. -/
def Clause.dottedPath (clause : Clause) : Option String :=
  if clause.path.isEmpty then none else some (join "." clause.path)

end Filter

/-- A condition on rows. -/
inductive Filter where
  /-- Every part holds. -/
  | all (parts : List Filter)
  /-- Some part holds. -/
  | any (parts : List Filter)
  /-- One comparison. -/
  | clause (comparison : Filter.Clause)
  deriving Repr

namespace Filter

mutual

/-- The comparisons in the order of the text. -/
def clauses : Filter → List Clause
  | all parts => clausesOf parts
  | any parts => clausesOf parts
  | clause comparison => [comparison]

/-- The comparisons of several filters. -/
def clausesOf : List Filter → List Clause
  | [] => []
  | part :: rest => clauses part ++ clausesOf rest

end

end StationGateway.Filter
