import StationGateway.Expansion.Basic

/-!
# Statements under construction

A draft collects the text of a statement piece by piece, together with the values that the text
refers to by name. Pieces are separated by one blank. A step adds a piece always, under a condition,
or only if the expansion uses what the piece is about. -/

namespace StationGateway.Statement

open Text

/-- The text collected so far and the values it refers to. -/
structure Draft where
  /-- The text. -/
  sql : String
  /-- The values by name. -/
  params : Params
  deriving Repr

namespace Draft

/-- Nothing collected yet. -/
def empty : Draft :=
  ⟨"", []⟩

/-- The draft with one more piece of text, of which blanks at the ends do not count. -/
def add (draft : Draft) (piece : String) : Draft :=
  let piece := trimmed piece
  if piece = "" then draft
  else if draft.sql = "" then { draft with sql := piece }
  else { draft with sql := draft.sql ++ " " ++ piece }

/-- The draft with one more piece if a condition holds. -/
def addIf (draft : Draft) (condition : Bool) (piece : String) : Draft :=
  if condition then draft.add piece else draft

/-- The draft with a name sent to a value. -/
def assign (draft : Draft) (name : String) (value : SqlValue) : Draft :=
  { draft with params := Order.put name value draft.params }

end Draft

/-- One step in the construction of a statement. -/
inductive Step where
  /-- Adds a piece. -/
  | text (piece : String)
  /-- Adds a piece if the condition holds. -/
  | textIf (piece : String) (condition : Bool)
  /-- Adds a piece if the attribute is in use. -/
  | textForAttribute (piece key : String)
  /-- Adds a piece if the list is in use. -/
  | textForList (piece list : String)
  /-- Sets a value. -/
  | value (name : String) (value : SqlValue)
  /-- Sets a value and adds a piece, if there is a value. -/
  | optionalValue (name : String) (value : Option SqlValue) (piece : String)
  /-- Sets a list of texts and adds a piece, unless the list is empty. -/
  | nonemptyList (name : String) (values : List String) (piece : String)
  /-- Adds the word that begins a selection. -/
  | select
  /-- Adds the projections of some lists, of all lists if none is named. -/
  | projections (lists : List String)
  /-- Adds projections, if there are any; directly after `lead` if the condition holds. -/
  | projectionsAfter (lead : String) (condition : Bool) (lists : List String)
  /-- Adds the predicate of the filter, and its values; attributes are read from the preferred list.
  -/
  | filter (preferred : Option String)
  /-- Adds a limit, if it is positive. -/
  | limit (count : Int)
  /-- Adds an offset, unless it is negative. -/
  | offset (count : Int)
  deriving Repr

/-- The word that begins a selection. -/
def selectWord (distinct : Bool) : String :=
  if distinct then "select distinct" else "select"

/-- The draft with the projections of some lists directly after `lead`. -/
def Draft.addProjections (draft : Draft) (expansion : Expansion) (lead : String)
    (lists : List String) : Draft :=
  let projections := expansion.selectSql lists
  if projections = "" then draft
  else { draft with sql := draft.sql ++ lead }.add projections

/-- The draft with a predicate as one more conjunct. -/
def Draft.addPredicate (draft : Draft) (predicate : Option Predicate) : Draft :=
  match predicate with
  | none => draft
  | some predicate =>
      let draft := draft.add ("and " ++ predicate.sql)
      { draft with params := Order.putAll draft.params predicate.params }

/-- The draft after a step. Only the predicate of a filter can be refused. -/
def Draft.step (expansion : Expansion) (draft : Draft) : Step → Except GatewayError Draft
  | .text piece => .ok (draft.add piece)
  | .textIf piece condition => .ok (draft.addIf condition piece)
  | .textForAttribute piece key => .ok (draft.addIf (expansion.usesAttribute key) piece)
  | .textForList piece list => .ok (draft.addIf (expansion.usesList list) piece)
  | .value name value => .ok (draft.assign name value)
  | .optionalValue name value piece =>
      match value with
      | some value => .ok ((draft.assign name value).add piece)
      | none => .ok draft
  | .nonemptyList name values piece =>
      if values.isEmpty then .ok draft
      else .ok ((draft.assign name (.texts values)).add piece)
  | .select => .ok (draft.add (selectWord expansion.distinct))
  | .projections lists => .ok (draft.add (expansion.selectSql lists))
  | .projectionsAfter lead condition lists =>
      .ok (draft.addProjections expansion (if condition then lead else "") lists)
  | .filter none => .ok (draft.addPredicate expansion.predicate)
  | .filter (some preferred) => (expansion.predicateFor preferred).map draft.addPredicate
  | .limit count =>
      .ok (if count > 0 then (draft.assign "limit" (.int count)).add "limit :limit" else draft)
  | .offset count =>
      .ok (if count ≥ 0 then (draft.assign "offset" (.int count)).add "offset :offset" else draft)

end StationGateway.Statement
