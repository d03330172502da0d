import StationGateway.Error
import StationGateway.Text.Blank
import StationGateway.Text.Split

/-!
# Representations

The first path segment of a request names a dataset and an output shape, in any order, separated by
a comma.
-/

namespace StationGateway

open Text

/-- What a request asks about. -/
inductive Dataset where
  /-- Stations and their measurements. -/
  | node
  /-- Edges between stations. -/
  | edge
  /-- Events. -/
  | event
  deriving DecidableEq, Repr

/-- How rows are written. -/
inductive Shape where
  /-- One object per row. -/
  | flat
  /-- Objects nested by the catalogue's hierarchy. -/
  | tree
  deriving DecidableEq, Repr

/-- A dataset and an output shape. -/
structure Representation where
  /-- What the request asks about. -/
  dataset : Dataset
  /-- How its rows are written. -/
  shape : Shape
  deriving DecidableEq, Repr

/-- The name of a dataset. -/
def Dataset.name : Dataset → String
  | node => "node"
  | edge => "edge"
  | event => "event"

/-- The name of a shape. -/
def Shape.name : Shape → String
  | flat => "flat"
  | tree => "tree"

/-- The dataset of a name. -/
def Dataset.ofName? (name : String) : Option Dataset :=
  [node, edge, event].find? fun dataset => dataset.name = name

/-- The shape of a name. -/
def Shape.ofName? (name : String) : Option Shape :=
  [flat, tree].find? fun shape => shape.name = name

namespace Representation

/-- Whether rows are nested. -/
def isTree (representation : Representation) : Bool :=
  representation.shape = .tree

/-- Whether the request asks about events. -/
def isEvent (representation : Representation) : Bool :=
  representation.dataset = .event

/-- The written form. -/
def text (representation : Representation) : String :=
  representation.shape.name ++ "," ++ representation.dataset.name

/-- The words of a segment: trimmed, without empty ones, in lower case. No other character than an
ASCII one has a letter of the names as its lower case. -/
def words (given : String) : List String :=
  ((splitOn ',' given.toList).map fun piece => String.ofList ((trim piece).map Char.toLower)).filter
    (· ≠ "")

/-- The representation named by a path segment. Each word is a name, a shape must be given, and a
dataset or shape only once, though the same word may be repeated. -/
def ofText (given : String) : Except GatewayError Representation :=
  let words := words given
  let shapes := (words.filterMap Shape.ofName?).eraseDups
  let datasets := (words.filterMap Dataset.ofName?).eraseDups
  let known := words.all fun word => (Shape.ofName? word).isSome || (Dataset.ofName? word).isSome
  match known, shapes, datasets with
  | true, [shape], [] => .ok ⟨.node, shape⟩
  | true, [shape], [dataset] => .ok ⟨dataset, shape⟩
  | _, _, _ => .error (.wrongRepresentation given)

end Representation

end StationGateway
