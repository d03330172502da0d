import StationGateway.Expansion.Basic
import StationGateway.Statement.Draft

/-!
# Queries

A query unites branches that select from joined tables under conditions, and orders and pages the
result. Its text is written from these parts alone, so that values stand in the text only as
references.
-/

namespace StationGateway.Recipe

open Text

/-- A column that clients do not see. -/
structure HiddenColumn where
  /-- The expression. -/
  expression : String
  /-- The label. -/
  label : String
  deriving DecidableEq, Repr

/-- A table and the name it goes by. -/
structure Source where
  /-- The table. -/
  table : String
  /-- The name. -/
  name : String
  deriving DecidableEq, Repr

/-- How rows without a partner are treated in a join. -/
inductive JoinKind where
  /-- They are dropped. -/
  | inner
  /-- They are kept. -/
  | left
  deriving DecidableEq, Repr

/-- A further table. -/
structure Join where
  /-- What becomes of rows without a partner. -/
  kind : JoinKind
  /-- The table and its name. -/
  source : Source
  /-- What partners have in common. -/
  condition : String
  deriving DecidableEq, Repr

/-- A condition on the rows of a branch. -/
inductive Condition where
  /-- A condition without values. -/
  | fixed (text : String)
  /-- The access rule. -/
  | access (rule : String)
  /-- A condition that refers to a value by name. -/
  | about (text name : String) (value : SqlValue)
  /-- The filter of the request. -/
  | filter (predicate : Predicate)
  deriving Repr

/-- One selection. -/
structure Branch where
  /-- The columns that clients do not see. -/
  hidden : List HiddenColumn
  /-- The columns that the request asks for. -/
  fragments : List Fragment
  /-- The first table. -/
  source : Source
  /-- The further tables, in order. -/
  joins : List Join
  /-- The conditions, in order. -/
  conditions : List Condition
  deriving Repr

/-- A statement. -/
structure Query where
  /-- What stands in front of the first selection. -/
  prelude : Option String
  /-- Whether repeated rows are dropped. -/
  distinct : Bool
  /-- The selections that are united. -/
  branches : List Branch
  /-- What the rows are ordered by. -/
  order : List String
  /-- The greatest number of rows, if it is positive. -/
  limit : Int
  /-- The number of rows to be skipped, unless it is negative. -/
  offset : Int
  deriving Repr

/-- The text of a column that clients do not see. -/
def HiddenColumn.text (column : HiddenColumn) : String :=
  column.expression ++ " as " ++ column.label

/-- The text of a table and its name. -/
def Source.text (source : Source) : String :=
  source.table ++ " " ++ source.name

/-- The words of a join. -/
def JoinKind.text : JoinKind → String
  | inner => "join "
  | left => "left join "

/-- The text of a join. -/
def Join.text (join : Join) : String :=
  join.kind.text ++ join.source.text ++ " on " ++ join.condition

/-- The text of a condition. -/
def Condition.text : Condition → String
  | fixed text => text
  | access rule => rule
  | about text _ _ => text
  | filter predicate => predicate.sql

/-- The values that the text of a condition refers to. -/
def Condition.params : Condition → Params
  | fixed _ => []
  | access _ => []
  | about _ name value => [(name, value)]
  | filter predicate => predicate.params

namespace Branch

/-- The columns, hidden ones first. -/
def columns (branch : Branch) : List String :=
  branch.hidden.map HiddenColumn.text ++ branch.fragments.map Fragment.text

/-- The parts of the text, for a word that begins a selection. -/
def parts (branch : Branch) (word : String) : List String :=
  [word] ++
    (if branch.columns.isEmpty then [] else [join ", " branch.columns]) ++
    ["from " ++ branch.source.text] ++
    branch.joins.map Join.text ++
    ["where " ++ join " and " (branch.conditions.map Condition.text)]

/-- The text of a selection. -/
def text (branch : Branch) (word : String) : String :=
  join " " (branch.parts word)

/-- The values that the text refers to. -/
def params (branch : Branch) : Params :=
  branch.conditions.flatMap Condition.params

end Branch

namespace Query

/-- The parts of the text that order and page the result. -/
def closing (query : Query) : List String :=
  (if query.order.isEmpty then [] else ["order by " ++ join ", " query.order]) ++
    (if query.limit > 0 then ["limit :limit"] else []) ++
    (if query.offset ≥ 0 then ["offset :offset"] else [])

/-- The text of a statement. -/
def sql (query : Query) : String :=
  let word := Statement.selectWord query.distinct
  join " " <|
    query.prelude.toList ++ [join " union all " (query.branches.map fun branch => branch.text word)] ++
      query.closing

/-- The values that page the result. -/
def paging (query : Query) : Params :=
  (if query.limit > 0 then [("limit", .int query.limit)] else []) ++
    (if query.offset ≥ 0 then [("offset", .int query.offset)] else [])

/-- The values that the text refers to, by name. -/
def params (query : Query) : Params :=
  Order.mapOfList (query.branches.flatMap Branch.params ++ query.paging)

end Query

end StationGateway.Recipe
