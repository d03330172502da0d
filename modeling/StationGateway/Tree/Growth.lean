import StationGateway.Catalogue.Hierarchy
import StationGateway.Error
import StationGateway.Tree.Cells

/-!
# Growing a tree from rows

Rows are nested by a hierarchy of lists. The key columns of a row say where it belongs: from the
first level on whose key differs from the row before, every list gets a new object, and the objects
are attached to their parents from the innermost level outwards. An entry of a map that is there
already takes up what the new object holds. -/

namespace StationGateway.Tree

/-- What a tree is made of and how. -/
structure Plan where
  /-- The lists by level. -/
  levels : List (List TargetList)
  /-- The key columns of the levels. -/
  keys : List String
  /-- The columns of rows that each list defines. -/
  columns : List (String × List ListColumn)
  /-- Whether nulls and empty objects are kept. -/
  showNull : Bool
  /-- The greatest size in megabytes, if it is positive. -/
  sizeLimit : Int

/-- A megabyte. -/
def megabyte : Nat := 1000000

/-- The greatest size in bytes, none if there is no limit. It is kept in 64 bits. -/
def Plan.byteLimit? (plan : Plan) : Option Nat :=
  if plan.sizeLimit > 0 then some (plan.sizeLimit.toNat * megabyte % 0x10000000000000000) else none

/-- A tree in the making. -/
structure Growth where
  /-- The objects. -/
  forest : Forest
  /-- The object that each list is filling. -/
  current : List (String × NodeId)
  /-- The keys of the row before. -/
  previous : Option (List String)
  /-- The estimated size in bytes. -/
  size : Nat

/-- The string that a row has in a key column. -/
def keyOf (row : Row) (column : String) : Except GatewayError String :=
  match Json.member? column row with
  | some (.string key) => .ok key
  | _ => .error (.triggerKeyNotString column)

/-- The strings that a row has in several key columns. -/
def keysOf (row : Row) : List String → Except GatewayError (List String)
  | [] => .ok []
  | column :: rest => do
      let key ← keyOf row column
      let keys ← keysOf row rest
      .ok (key :: keys)

/-- The number of leading positions at which two lists agree. -/
def agreement : List String → List String → Nat
  | first :: rest, second :: others => if first = second then agreement rest others + 1 else 0
  | _, _ => 0

namespace Growth

/-- Nothing but an empty root. -/
def start : Growth :=
  ⟨.start, [], none, 0⟩

/-- The object that a list is filling. -/
def nodeOf? (growth : Growth) (list : String) : Option NodeId :=
  Order.find? list growth.current

/-- The object that a list attaches to; the root, if the parent is not part of the tree. -/
def parentOf (growth : Growth) (lookUp : LookUp) : NodeId :=
  (lookUp.parentList.bind growth.nodeOf?).getD Forest.root

/-- The tree with an object changed. -/
def update (growth : Growth) (id : NodeId) (change : Node → Node) : Growth :=
  { growth with forest := growth.forest.update id change }

/-- A new object of a row for a list. -/
def renew (plan : Plan) (row : Row) (growth : Growth) (list : TargetList) : Growth :=
  let columns := (Order.find? list.name plan.columns).getD []
  let draft := objectOf plan.showNull columns row
  { growth with
    forest := growth.forest.push ⟨draft.fields, []⟩
    current := Order.put list.name growth.forest.next growth.current
    size := growth.size + draft.size }

/-- Attaches an object as the one object under a name, or takes that name away if there is nothing
to show. -/
def attachInline (showNull : Bool) (node parent : NodeId) (target : String) (growth : Growth) :
    Growth :=
  if (growth.forest.get node).isEmpty && !showNull then growth.update parent (Node.dropChild target)
  else growth.update parent (Node.setChild target (.object node))

/-- Moves a field of an object to its parent. -/
def attachMerged (showNull : Bool) (node parent : NodeId) (target : String) (growth : Growth) :
    Growth :=
  let value := (Order.find? target (growth.forest.get node).fields).getD .null
  if value.isNull && !showNull then growth else growth.update parent (Node.setField target value)

/-- Appends an object to the list under a name, unless there is nothing to show. -/
def attachElement (showNull : Bool) (node parent : NodeId) (target : String) (growth : Growth) :
    Growth :=
  if (growth.forest.get node).isEmpty && !showNull then growth
  else growth.update parent (Node.pushItem target node)

/-- Lets an entry that is there already take up an object, which the list goes on filling. -/
def takeUp (list : String) (node existing : NodeId) (growth : Growth) : Growth :=
  { growth with
    forest := growth.forest.absorb node existing
    current := Order.put list existing growth.current }

/-- Attaches an object as an entry of its parent itself. -/
def attachRootEntry (list : String) (node parent : NodeId) (key : String) (growth : Growth) :
    Growth :=
  match Order.find? key (growth.forest.get parent).children with
  | some (.object existing) => growth.takeUp list node existing
  | _ => growth.update parent (Node.setChild key (.object node))

/-- Attaches an object as an entry of the map under a name. What is no map stays as it is. -/
def attachEntry (list : String) (node parent : NodeId) (target key : String) (growth : Growth) :
    Growth :=
  match Order.find? target (growth.forest.get parent).children with
  | none => growth.update parent (Node.setChild target (.map [(key, node)]))
  | some (.map entries) =>
      match Order.find? key entries with
      | some existing => growth.takeUp list node existing
      | none => growth.update parent (Node.setChild target (.map (Order.put key node entries)))
  | some _ => growth

/-- Attaches the object of a map to its parent. -/
def attachKeyed (row : Row) (list : TargetList) (node parent : NodeId) (growth : Growth) :
    Except GatewayError Growth :=
  match list.lookUp.key with
  | none => .ok growth
  | some column => do
      let key ← keyOf row column
      match list.lookUp.parentTarget with
      | none => .ok (growth.attachRootEntry list.name node parent key)
      | some target => .ok (growth.attachEntry list.name node parent target key)

/-- Attaches the object of a list to its parent. -/
def attach (plan : Plan) (row : Row) (growth : Growth) (list : TargetList) :
    Except GatewayError Growth :=
  match growth.nodeOf? list.name with
  | none => .ok growth
  | some node =>
      let parent := growth.parentOf list.lookUp
      match list.lookUp.attachment, list.lookUp.parentTarget with
      | .map, _ => growth.attachKeyed row list node parent
      | _, none => .ok growth
      | .inline, some target => .ok (growth.attachInline plan.showNull node parent target)
      | .merge, some target => .ok (growth.attachMerged plan.showNull node parent target)
      | .list, some target => .ok (growth.attachElement plan.showNull node parent target)

/-- Whether the objects of a list become part of another object. -/
def isFolded (list : TargetList) : Bool :=
  list.lookUp.attachment = .merge || list.lookUp.attachment = .inline

/-- The lists of a level in the order in which they attach: what becomes part of another object
comes first, so that an object is known to be empty when it attaches. -/
def attachOrder (level : List TargetList) : List TargetList :=
  level.filter isFolded ++ level.filter fun list => !isFolded list

/-- Refuses a tree that exceeds the limit. -/
def checkSize (plan : Plan) (growth : Growth) : Except GatewayError Growth :=
  match plan.byteLimit? with
  | some limit =>
      if growth.size > limit then .error (.responseTooLarge plan.sizeLimit) else .ok growth
  | none => .ok growth

/-- The number of levels whose objects a row goes on filling. -/
def keptLevels (growth : Growth) (keys : List String) : Nat :=
  match growth.previous with
  | some previous => agreement previous keys
  | none => 0

/-- The tree with one more row. -/
def addRow (plan : Plan) (growth : Growth) (row : Row) : Except GatewayError Growth := do
  let keys ← keysOf row plan.keys
  let levels := plan.levels.drop (growth.keptLevels keys)
  let grown := levels.flatten.foldl (renew plan row) growth
  let attached ← (levels.reverse.flatMap attachOrder).foldlM (attach plan row) grown
  checkSize plan { attached with previous := some keys }

end Growth

/-- The plan for rows with the columns of `first`. -/
def planFor (catalogue : Catalogue) (entry : String) (exits : List ExitPoint) (showNull : Bool)
    (sizeLimit : Int) (first : Row) : Except GatewayError Plan :=
  match catalogue.hierarchy entry exits with
  | .error error => .error (.internal error.message)
  | .ok hierarchy =>
      let levels := hierarchy.map fun level => level.filterMap catalogue.get?
      .ok
        { levels
          keys := catalogue.triggerKeys hierarchy
          columns := Order.mapOfList <|
            levels.flatten.map fun list => (list.name, columnsOf list first)
          showNull
          sizeLimit }

/-- The tree of rows below an entry list. All rows are taken to have the columns of the first one.
-/
def ofRows (catalogue : Catalogue) (entry : String) (exits : List ExitPoint) (showNull : Bool)
    (sizeLimit : Int) (rows : List Row) : Except GatewayError Json :=
  match rows with
  | [] => .ok (.object [])
  | first :: _ => do
      let plan ← planFor catalogue entry exits showNull sizeLimit first
      let growth ← rows.foldlM (Growth.addRow plan) .start
      .ok growth.forest.render

end StationGateway.Tree
