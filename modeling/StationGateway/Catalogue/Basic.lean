import StationGateway.Catalogue.Attribute
import StationGateway.Order.Sorted

/-!
# Catalogues of target lists

A catalogue holds target lists with distinct names in name order, and every list that one of them
names as its parent or as a child is in it.
-/

namespace StationGateway

/-- Target lists in name order. -/
structure Catalogue where
  /-- The lists, by ascending name. -/
  lists : List TargetList
  deriving Repr

namespace Catalogue

/-- Refuses the first list whose name stands before it already. -/
def checkDistinct (seen : List String) : List TargetList → Except CatalogueError Unit
  | [] => .ok ()
  | list :: rest =>
      if list.name ∈ seen then .error (.duplicateList list.name)
      else checkDistinct (list.name :: seen) rest

/-- Refuses a list whose parent is none of the given names. -/
def checkParent (names : List String) (list : TargetList) : Except CatalogueError Unit :=
  match list.lookUp.parentList with
  | some parent => if parent ∈ names then .ok () else .error (.unknownParent list.name parent)
  | none => .ok ()

/-- Refuses the first child of an attribute that is none of the given names. -/
def checkChildren (names : List String) (list : TargetList) (field : Attribute) :
    Except CatalogueError Unit :=
  match field.children.find? fun child => !(names.contains child) with
  | some child => .error (.unknownChild field.name list.name child)
  | none => .ok ()

/-- Refuses a list that names a list outside the given ones. -/
def checkReferences (names : List String) (list : TargetList) : Except CatalogueError Unit := do
  checkParent names list
  list.attributes.forM (checkChildren names list)

/-- The lists by ascending name. -/
def sortLists (lists : List TargetList) : List TargetList :=
  (Order.mapOfList (lists.map fun list => (list.name, list))).map (·.2)

/-- The catalogue of some lists. -/
def build (lists : List TargetList) : Except CatalogueError Catalogue := do
  checkDistinct [] lists
  let sorted := sortLists lists
  sorted.forM (checkReferences (sorted.map (·.name)))
  return ⟨sorted⟩

/-- The names of all lists, ascending. -/
def names (catalogue : Catalogue) : List String :=
  catalogue.lists.map (·.name)

/-- The list of a name. -/
def get? (catalogue : Catalogue) (name : String) : Option TargetList :=
  catalogue.lists.find? fun list => list.name = name

/-- The lists that define an attribute, in name order. -/
def definers (catalogue : Catalogue) (key : String) : List TargetList :=
  catalogue.lists.filter fun list => (list.find? key).isSome

/-- The lists among `allowed` that define an attribute, in name order. -/
def definersAmong (catalogue : Catalogue) (allowed : List String) (key : String) :
    List TargetList :=
  (catalogue.definers key).filter fun list => allowed.contains list.name

/-- Whether some list defines an attribute. -/
def knows (catalogue : Catalogue) (key : String) : Bool :=
  !(catalogue.definers key).isEmpty

/-- The number of attributes of all lists. -/
def attributeCount (catalogue : Catalogue) : Nat :=
  (catalogue.lists.flatMap TargetList.attributes).length

end Catalogue

end StationGateway
