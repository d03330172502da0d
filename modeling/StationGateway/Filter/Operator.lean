import StationGateway.Filter.Basic
import StationGateway.Order.Sorted

/-!
# Operators

An operator has a template for each shape of comparison: whether it looks inside a JSON value,
whether the operand is a list, and the operand's type.
-/

namespace StationGateway.Filter

open Text

/-- How an operator applies to one shape of comparison. -/
structure Operator where
  /-- The template of the comparison. -/
  template : String
  /-- The numbers of literals it takes, any number if there is no restriction. -/
  sizes : Option (List Nat)
  deriving DecidableEq, Repr

/-- Whether the operator takes an operand. -/
def Operator.accepts (operator : Operator) (operand : Operand) : Bool :=
  match operator.sizes with
  | some sizes => sizes.contains operand.size
  | none => true

/-- A name in ASCII capitals. -/
def capitals (name : String) : String :=
  String.ofList (name.toList.map Char.toUpper)

/-- A name in ASCII small letters. -/
def smallLetters (name : String) : String :=
  String.ofList (name.toList.map Char.toLower)

/-- The shape of a comparison, as the beginning of an operator id. -/
def shapeText (insideJson : Bool) (operand : Operand) : String :=
  (if insideJson then "JSON/" else "") ++ (if operand.isList then "LIST/" else "") ++
    operand.valueType.name

/-- The id of an operator for a shape of comparison. -/
def operatorId (insideJson : Bool) (operand : Operand) (name : String) : String :=
  shapeText insideJson operand ++ "/" ++ capitals name

/-- The operators that filters may use. -/
structure OperatorTable where
  /-- The operators by id, the latest addition first. -/
  entries : List (String × Operator)
  /-- The names of the operators in small letters. -/
  names : List String
  deriving Repr

namespace OperatorTable

/-- The table without operators. -/
def empty : OperatorTable :=
  ⟨[], []⟩

/-- The table with one more operator, which replaces the one of the same id. -/
def add (table : OperatorTable) (shape name : String) (operator : Operator) : OperatorTable :=
  { entries := (shape ++ "/" ++ capitals (smallLetters name), operator) :: table.entries
    names := Order.insert (smallLetters name) table.names }

/-- The operator of an id. -/
def get? (table : OperatorTable) (id : String) : Option Operator :=
  (table.entries.find? fun entry => entry.1 = id).map (·.2)

/-- Whether a word names an operator. -/
def isName (table : OperatorTable) (word : String) : Bool :=
  table.names.contains word

end OperatorTable

/-- The signs of the order comparisons. -/
def orderSigns : List (String × String) :=
  [("eq", "="), ("neq", "<>"), ("lt", "<"), ("gt", ">"), ("lteq", "<="), ("gteq", ">=")]

/-- The signs of the text comparisons. -/
def textSigns : List (String × String) :=
  [("eq", "="), ("neq", "<>"), ("re", "~"), ("ire", "~*"), ("nre", "!~"), ("nire", "!~*")]

/-- The operators of comparisons by a sign between two sides. -/
def signed (shape left right : String) (signs : List (String × String)) :
    List (String × String × Operator) :=
  signs.map fun (name, sign) => (shape, name, ⟨left ++ " " ++ sign ++ " " ++ right, none⟩)

/-- The place of the value at a path, as JSON. -/
def jsonPlace : String := "%c#>'\x7b%j\x7d'"

/-- The place of the value at a path, as text. -/
def textPlace : String := "%c#>>'\x7b%j\x7d'"

/-- The place of the value at a path, as a number. -/
def numberPlace : String := "(" ++ jsonPlace ++ ")::double precision"

/-- The place of the value at a path, as a truth value. -/
def booleanPlace : String := "(" ++ jsonPlace ++ ")::boolean"

/-- The sizes of the lists of numbers that describe an envelope: four bounds, and possibly a
reference system. -/
def envelopeSizes : List Nat := [4, 5]

/-- The shapes, names and templates of the operators that the API serves. -/
def standardOperators : List (String × String × Operator) :=
  signed "NULL" "%c" "%v" [("eq", "is"), ("neq", "is not")] ++
  signed "BOOLEAN" "%c" "%v" (orderSigns.take 2) ++
  signed "NUMBER" "%c" "%v" orderSigns ++
  signed "STRING" "%c" "%v" textSigns ++
  signed "JSON/NULL" jsonPlace "%v" [("eq", "is"), ("neq", "is not")] ++
  signed "JSON/BOOLEAN" booleanPlace "%v" (orderSigns.take 2) ++
  signed "JSON/NUMBER" numberPlace "%v" orderSigns ++
  signed "JSON/STRING" textPlace "%v" textSigns ++
  signed "LIST/NUMBER" "%c" "(%v)" [("in", "in"), ("nin", "not in")] ++
  signed "LIST/STRING" "%c" "(%v)" [("in", "in"), ("nin", "not in")] ++
  signed "LIST/NULL" "%c" "(%v)" [("in", "in"), ("nin", "not in")] ++
  [("LIST/NUMBER", "bbi", ⟨"%c && ST_MakeEnvelope(%v)", some envelopeSizes⟩),
    ("LIST/NUMBER", "bbc", ⟨"%c @ ST_MakeEnvelope(%v)", some envelopeSizes⟩)] ++
  signed "JSON/LIST/STRING" textPlace "(%v)" [("in", "in"), ("nin", "not in")] ++
  signed "JSON/LIST/NUMBER" numberPlace "(%v)" [("in", "in"), ("nin", "not in")] ++
  signed "JSON/LIST/NULL" jsonPlace "(%v)" [("in", "in"), ("nin", "not in")] ++
  signed "JSON/LIST/MIXED" jsonPlace "(%v)" [("in", "in"), ("nin", "not in")]

/-- The operators that the API serves. -/
def OperatorTable.standard : OperatorTable :=
  standardOperators.foldl (fun table (shape, name, operator) => table.add shape name operator) .empty

end StationGateway.Filter
