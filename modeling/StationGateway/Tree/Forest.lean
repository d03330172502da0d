import StationGateway.Json.Basic
import StationGateway.Order.Sorted

/-!
# Forests of objects

While a tree grows, its objects are numbered nodes of a forest, and an object refers to the objects
below it by number. So an object can be filled and moved after it has been attached.
-/

namespace StationGateway.Tree

/-- The number of a node. -/
abbrev NodeId := Nat

/-- What stands under a name of an object, besides its fields. -/
inductive Child where
  /-- One object. -/
  | object (node : NodeId)
  /-- Objects by ascending key. -/
  | map (entries : List (String × NodeId))
  /-- Objects in order. -/
  | list (items : List NodeId)
  deriving DecidableEq, Repr

/-- An object: its own fields and what is attached to it, each by ascending name. -/
structure Node where
  /-- The fields. -/
  fields : List (String × Json)
  /-- What is attached. -/
  children : List (String × Child)
  deriving Repr, Inhabited

namespace Node

/-- The object without fields and children. -/
def empty : Node :=
  ⟨[], []⟩

/-- Whether an object has neither fields nor children. -/
def isEmpty (node : Node) : Bool :=
  node.fields.isEmpty && node.children.isEmpty

/-- The object with a field set. -/
def setField (name : String) (value : Json) (node : Node) : Node :=
  { node with fields := Order.put name value node.fields }

/-- The object with a child set. -/
def setChild (name : String) (child : Child) (node : Node) : Node :=
  { node with children := Order.put name child node.children }

/-- The object without the child of a name. -/
def dropChild (name : String) (node : Node) : Node :=
  { node with children := Order.erase name node.children }

/-- The object with one more element in the list of a name. What is no list stays as it is. -/
def pushItem (name : String) (item : NodeId) (node : Node) : Node :=
  match Order.find? name node.children with
  | none => node.setChild name (.list [item])
  | some (.list items) => node.setChild name (.list (items ++ [item]))
  | some _ => node

end Node

/-- Numbered objects. -/
structure Forest where
  /-- The objects by number. -/
  nodes : Array Node
  deriving Repr

namespace Forest

/-- The number of the root. -/
def root : NodeId := 0

/-- The forest with an empty root. -/
def start : Forest :=
  ⟨#[Node.empty]⟩

/-- The object of a number. -/
def get (forest : Forest) (id : NodeId) : Node :=
  forest.nodes.getD id .empty

/-- The forest with an object changed. -/
def update (forest : Forest) (id : NodeId) (change : Node → Node) : Forest :=
  ⟨forest.nodes.modify id change⟩

/-- The number that the next object gets. -/
def next (forest : Forest) : NodeId :=
  forest.nodes.size

/-- The forest with one more object. -/
def push (forest : Forest) (node : Node) : Forest :=
  ⟨forest.nodes.push node⟩

end Forest

/-- The fields of one object with those of another that it lacks. -/
def unionFields (own other : List (String × Json)) : List (String × Json) :=
  other.foldl
    (fun fields (name, value) =>
      if Order.hasKey name fields then fields else Order.put name value fields)
    own

/-- The entries of one map with those of another that it lacks, and the pairs of nodes, the other's
first, that share a key. -/
def unionEntries (own other : List (String × NodeId)) :
    List (String × NodeId) × List (NodeId × NodeId) :=
  other.foldl
    (fun (entries, pairs) (name, node) =>
      match Order.find? name entries with
      | some existing => (entries, pairs ++ [(node, existing)])
      | none => (Order.put name node entries, pairs))
    (own, [])

/-- A child united with another one under the same name, and the pairs of nodes, the other's first,
that are to be united too. Children of different kinds are not united: the first one stays. -/
def unionChild (own other : Child) : Child × List (NodeId × NodeId) :=
  match own, other with
  | .map entries, .map others =>
      let (entries, pairs) := unionEntries entries others
      (.map entries, pairs)
  | .list items, .list others => (.list (items ++ others), [])
  | .object node, .object otherNode => (own, [(otherNode, node)])
  | _, _ => (own, [])

/-- The children of one object with those of another, and the pairs of nodes that are to be united
too. -/
def unionChildren (own other : List (String × Child)) :
    List (String × Child) × List (NodeId × NodeId) :=
  other.foldl
    (fun (children, pairs) (name, child) =>
      match Order.find? name children with
      | none => (Order.put name child children, pairs)
      | some existing =>
          let (united, more) := unionChild existing child
          (Order.put name united children, pairs ++ more))
    (own, [])

mutual

/-- Moves all that belongs to the object `source` into the object `target`, which keeps what it has.
Every step into the depth empties an object, so the number of objects bounds the depth. -/
def absorbWithin : Nat → Forest → NodeId → NodeId → Forest
  | 0, forest, _, _ => forest
  | budget + 1, forest, source, target =>
      if source = target then forest
      else
        let fresh := forest.get source
        let forest := forest.update source fun _ => .empty
        let kept := forest.get target
        let (children, pairs) := unionChildren kept.children fresh.children
        let forest := forest.update target fun _ =>
          ⟨unionFields kept.fields fresh.fields, children⟩
        absorbPairs budget forest pairs

/-- Moves the first object of each pair into the second one. -/
def absorbPairs : Nat → Forest → List (NodeId × NodeId) → Forest
  | _, forest, [] => forest
  | budget, forest, (source, target) :: rest =>
      absorbPairs budget (absorbWithin budget forest source target) rest

end

/-- Moves all that belongs to the object `source` into the object `target`. -/
def Forest.absorb (forest : Forest) (source target : NodeId) : Forest :=
  absorbWithin (forest.next + 1) forest source target

mutual

/-- The JSON value of an object and what is below it, at most `depth` levels. Children stand in for
fields of the same name. -/
def renderNode (forest : Forest) : Nat → NodeId → Json
  | 0, _ => .object []
  | depth + 1, id =>
      let node := forest.get id
      .object (Order.putAll node.fields (renderChildren forest depth node.children))

/-- The JSON values of the children of an object. -/
def renderChildren (forest : Forest) (depth : Nat) :
    List (String × Child) → List (String × Json)
  | [] => []
  | (name, .object node) :: rest =>
      (name, renderNode forest depth node) :: renderChildren forest depth rest
  | (name, .map entries) :: rest =>
      (name, .object (renderEntries forest depth entries)) :: renderChildren forest depth rest
  | (name, .list items) :: rest =>
      (name, .array (renderItems forest depth items)) :: renderChildren forest depth rest

/-- The JSON values of the entries of a map. -/
def renderEntries (forest : Forest) (depth : Nat) :
    List (String × NodeId) → List (String × Json)
  | [] => []
  | (name, node) :: rest => (name, renderNode forest depth node) :: renderEntries forest depth rest

/-- The JSON values of the elements of a list. -/
def renderItems (forest : Forest) (depth : Nat) : List NodeId → List Json
  | [] => []
  | node :: rest => renderNode forest depth node :: renderItems forest depth rest

end

/-- The JSON value of the root and what is below it. No path visits an object twice, so the number
of objects bounds the depth. -/
def Forest.render (forest : Forest) : Json :=
  renderNode forest (forest.next + 1) Forest.root

end StationGateway.Tree
