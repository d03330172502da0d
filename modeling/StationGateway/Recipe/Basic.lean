import StationGateway.Access.Rules
import StationGateway.Recipe.Query
import StationGateway.Representation
import StationGateway.Request.Params
import StationGateway.Row
import StationGateway.Time.Instant
import StationGateway.Tree.Growth

/-!
# Recipes

A recipe turns a request into a query and a plan for the shape of the answer. The database has no
part in it. This module holds what the recipes share. -/

namespace StationGateway.Recipe

open Text

/-- The number of rows of an answer unless the request says otherwise. -/
def defaultLimit : Int := 200

/-- What a request asks of every recipe. -/
structure Options where
  /-- The dataset and the shape of the answer. -/
  representation : Representation
  /-- The greatest number of rows, if it is positive. -/
  limit : Int
  /-- The number of rows to be skipped, unless it is negative. -/
  offset : Int
  /-- What is selected. -/
  select : Option String
  /-- What is required of rows. -/
  filter : Option String
  /-- Whether nulls are shown. -/
  showNull : Bool
  /-- Whether repeated rows are dropped. -/
  distinct : Bool
  /-- The roles of the caller. -/
  roles : List String
  deriving DecidableEq, Repr

/-- What recipes are made from: a catalogue, operators and access rules. -/
structure Resources where
  /-- The catalogue. -/
  catalogue : Catalogue
  /-- The operators. -/
  operators : Filter.OperatorTable
  /-- The access rules. -/
  rules : Access.RuleFiles
  deriving Repr

/-- A request that is ready for the database. -/
structure Prepared where
  /-- The name of the command. -/
  command : String
  /-- The dataset and the shape of the answer. -/
  representation : Representation
  /-- The query. -/
  query : Query
  /-- The list at which the tree begins. -/
  entry : String
  /-- The lists at which the tree ends. -/
  exits : List ExitPoint
  /-- Whether rows hold measured values in several columns. -/
  collapses : Bool
  /-- Whether nulls are shown. -/
  showNull : Bool
  /-- What is written about the request to the log. -/
  log : List (String × Json)
  deriving Repr

/-- The items of a path segment, none if there is no restriction: with no item or a star among them.
-/
def restriction? (segment : String) : Option (List String) :=
  let items := (pieces ',' segment).map trimmed |>.filter (· ≠ "")
  if items.isEmpty || items.contains "*" then none else some (Order.ofList items)

/-- The items of a path segment for the log. -/
def restrictionLog (items : Option (List String)) : Json :=
  .texts (items.getD ["*"])

/-- An instant for the log. -/
def momentLog (moment : Option Time.Instant) : Json :=
  .ofText? (moment.map Time.Instant.rfc3339)

/-- Exits that do not belong to the tree. -/
def exitsBefore (lists : List String) : List ExitPoint :=
  lists.map fun list => ⟨list, false⟩

/-- Whether a condition holds, as a list of at most one part of a query. -/
def onlyIf {α : Type} (condition : Bool) (part : α) : List α :=
  if condition then [part] else []

/-- The condition on an expression to be one of some items. -/
def oneOf (expression name : String) (items : Option (List String)) : List Condition :=
  match items with
  | some items => [.about (expression ++ " in (:" ++ name ++ ")") name (.texts items)]
  | none => []

/-- The condition that a predicate stands for. -/
def filterCondition (predicate : Option Predicate) : List Condition :=
  predicate.toList.map .filter

/-- A table that is joined, and whose rows may be missing. -/
def leftJoin (table name condition : String) : Join :=
  ⟨.left, ⟨table, name⟩, condition⟩

/-- A table that is joined, and whose rows must be there. -/
def innerJoin (table name condition : String) : Join :=
  ⟨.inner, ⟨table, name⟩, condition⟩

namespace Options

/-- Refuses a request for another dataset than the one that a command serves. -/
def require (options : Options) (command : String) (dataset : Dataset) : Except GatewayError Unit :=
  if options.representation.dataset = dataset then .ok ()
  else .error (.methodNotAllowed command options.representation.text)

/-- What a request with some parameters asks for a caller with some roles. -/
def ofParams (params : RequestParams) (representation : Representation) (roles : List String) :
    Options :=
  { representation
    limit := params.limit.getD defaultLimit
    offset := params.offset.getD 0
    select := params.select
    filter := params.filter
    showNull := params.showNull.getD false
    distinct := params.distinct.getD true
    roles }

/-- Whether the answer is a tree. -/
def isTree (options : Options) : Bool :=
  options.representation.isTree

end Options

namespace Resources

/-- What a request selects and requires, when it may use the given lists. -/
def expand (resources : Resources) (options : Options) (lists : List String) :
    Except GatewayError Expansion :=
  Scope.expand ⟨resources.catalogue, resources.operators, Order.ofList lists⟩ options.select
    options.filter options.distinct

/-- The access rule for a class of rows. -/
def access (resources : Resources) (options : Options) (rows : Access.RowClass) :
    Except GatewayError (List Condition) :=
  match resources.rules.condition? rows options.roles with
  | .ok rule => .ok (rule.toList.map .access)
  | .error error => .error (.internal error.message)

end Resources

namespace Prepared

/-- The text of the statement. -/
def sql (prepared : Prepared) : String :=
  prepared.query.sql

/-- The values of the statement. -/
def params (prepared : Prepared) : Params :=
  prepared.query.params

/-- The answer for the rows of the database. -/
def answer (catalogue : Catalogue) (prepared : Prepared) (sizeLimit : Int) (rows : List Row) :
    Except GatewayError Json :=
  let rows := if prepared.collapses then rows.map Row.collapse else rows
  match prepared.representation.shape with
  | .tree => Tree.ofRows catalogue prepared.entry prepared.exits prepared.showNull sizeLimit rows
  | .flat => .ok (.array (rows.map fun row => .object (row.visible prepared.showNull)))

end Prepared

end StationGateway.Recipe
