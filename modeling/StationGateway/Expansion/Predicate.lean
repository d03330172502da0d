import StationGateway.Catalogue.Selector
import StationGateway.Catalogue.Basic
import StationGateway.Filter.Operator
import StationGateway.Filter.Parser
import StationGateway.Filter.Template
import StationGateway.Statement.Value

/-!
# Conditions of statements

A filter compiled against a catalogue is a predicate: the same conjunctions and disjunctions over
comparisons whose templates are filled in. Its values stay out of the text; they are numbered in the
order of the text and referred to by name.
-/

namespace StationGateway

open Text StationGateway.Filter

/-- What the lists of a catalogue define, as far as a request may use them. -/
structure Scope where
  /-- The catalogue. -/
  catalogue : Catalogue
  /-- The operators. -/
  operators : OperatorTable
  /-- The names of the lists that may be used, ascending. -/
  allowed : List String

/-- The allowed lists that define an attribute. It is an error if there is none. -/
def Scope.resolve (scope : Scope) (key : String) : Except GatewayError (List TargetList) :=
  match scope.catalogue.definersAmong scope.allowed key with
  | [] =>
      if scope.catalogue.knows key then
        .error (.attributeNotReachable key (join ", " scope.allowed))
      else .error (.unknownAttribute key)
  | lists => .ok lists

/-- A piece of a comparison. -/
inductive Piece where
  /-- Text of the template. -/
  | text (text : String)
  /-- The column. -/
  | column (expression : String)
  /-- The path into the column's JSON value. -/
  | path (path : String)
  /-- A value. -/
  | value (value : SqlValue)
  deriving Repr

/-- A condition on rows, as statements have it. -/
inductive Predicate where
  /-- Every part holds. -/
  | all (parts : List Predicate)
  /-- Some part holds. -/
  | any (parts : List Predicate)
  /-- One comparison. -/
  | comparison (pieces : List Piece)
  deriving Repr

/-- The value of an operand or of a slice of it. -/
def operandValue (operand : Operand) (slice : Option Slice) : SqlValue :=
  match operand, slice with
  | .scalar value, _ => .ofLiteral value
  | .list values, none => .list (values.map SqlValue.ofLiteral)
  | .list values, some slice => .list ((slice.select values).map SqlValue.ofLiteral)

/-- A part of a template with a comparison filled in. -/
def fillPart (column : String) (clause : Clause) : TemplatePart → Piece
  | .text text => .text text
  | .column => .column column
  | .path => .path (Selector.commaPath (clause.dottedPath.getD ""))
  | .value slice => .value (operandValue clause.operand slice)

/-- The list that a comparison reads: the preferred one if it defines the attribute, else the first
one. -/
def chooseList (preferred : Option String) (lists : List TargetList) : Option TargetList :=
  match lists.find? fun list => preferred = some list.name with
  | some list => some list
  | none => lists.head?

/-- The operator of a comparison, which must exist and take the operand. -/
def Scope.operatorOf (scope : Scope) (clause : Clause) : Except GatewayError Operator :=
  let id := operatorId (!clause.path.isEmpty) clause.operand clause.operator
  match scope.operators.get? id with
  | none => .error (.unknownOperator clause.operator id)
  | some operator =>
      if operator.accepts clause.operand then .ok operator
      else .error (.operatorCheckFailed clause.key clause.operator clause.operand.shown)

/-- A comparison with its template filled in. Pointers cannot be compared. -/
def Scope.compileClause (scope : Scope) (preferred : Option String) (clause : Clause) :
    Except GatewayError Predicate := do
  let lists ← scope.resolve clause.key
  let column? := (chooseList preferred lists).bind fun list =>
    (list.find? clause.key).bind Attribute.column?
  match column? with
  | none => .error (.unknownAttribute clause.key)
  | some column =>
      let operator ← scope.operatorOf clause
      .ok (.comparison ((parseTemplate operator.template).map (fillPart column clause)))

mutual

/-- The predicate of a filter. Comparisons are compiled in the order of the text, and the first
error counts. -/
def Scope.compile (scope : Scope) (preferred : Option String) :
    Filter → Except GatewayError Predicate
  | .all parts => (scope.compileAll preferred parts).map .all
  | .any parts => (scope.compileAll preferred parts).map .any
  | .clause comparison => scope.compileClause preferred comparison

/-- The predicates of several filters. -/
def Scope.compileAll (scope : Scope) (preferred : Option String) :
    List Filter → Except GatewayError (List Predicate)
  | [] => .ok []
  | part :: rest => do
      let first ← scope.compile preferred part
      let others ← scope.compileAll preferred rest
      .ok (first :: others)

end

namespace Predicate

/-- The name of the value with a given number. -/
def valueName (number : Nat) : String :=
  "pwhere_" ++ toString number

/-- The values of a comparison that are referred to by name. -/
def pieceValues (pieces : List Piece) : List SqlValue :=
  pieces.filterMap fun piece =>
    match piece with
    | .value value => if value.isNull then none else some value
    | _ => none

mutual

/-- The values of a predicate in the order of the text, nulls left out. -/
def values : Predicate → List SqlValue
  | all parts => valuesOf parts
  | any parts => valuesOf parts
  | comparison pieces => pieceValues pieces

/-- The values of several predicates. -/
def valuesOf : List Predicate → List SqlValue
  | [] => []
  | part :: rest => values part ++ valuesOf rest

end

/-- The texts of the pieces of a comparison, when `taken` values have been numbered. -/
def pieceTexts (taken : Nat) : List Piece → List String
  | [] => []
  | .text text :: rest => text :: pieceTexts taken rest
  | .column expression :: rest => expression :: pieceTexts taken rest
  | .path path :: rest => path :: pieceTexts taken rest
  | .value value :: rest =>
      if value.isNull then "null" :: pieceTexts taken rest
      else (":" ++ valueName taken) :: pieceTexts (taken + 1) rest

mutual

/-- The text of a predicate, in parentheses, when `taken` values have been numbered. -/
def textFrom (taken : Nat) : Predicate → String
  | all parts => "(" ++ join " and " (textsFrom taken parts) ++ ")"
  | any parts => "(" ++ join " or " (textsFrom taken parts) ++ ")"
  | comparison pieces => "(" ++ String.join (pieceTexts taken pieces) ++ ")"

/-- The texts of several predicates. -/
def textsFrom (taken : Nat) : List Predicate → List String
  | [] => []
  | part :: rest => textFrom taken part :: textsFrom (taken + (values part).length) rest

end

/-- The text of a predicate. -/
def sql (predicate : Predicate) : String :=
  predicate.textFrom 0

/-- The values that the text of a predicate refers to, by name. -/
def params (predicate : Predicate) : Params :=
  Order.mapOfList <| predicate.values.zipIdx.map fun (value, number) => (valueName number, value)

end Predicate

end StationGateway
