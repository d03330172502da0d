import StationGateway.Catalogue.Basic

/-!
# The index of attributes

Which lists define an attribute is looked up in an index. It is filled in one pass over the lists: each
attribute of a list enters the name of the list under the name that clients use.
-/

namespace StationGateway

/-- The names of the lists that define each attribute. -/
structure AttributeIndex where
  /-- The names by attribute. -/
  entries : List (String × List String)
  deriving Repr

namespace AttributeIndex

/-- The index of no lists. -/
def empty : AttributeIndex :=
  ⟨[]⟩

/-- The names that have been entered for an attribute. -/
def namesOf (index : AttributeIndex) (key : String) : List String :=
  (Order.find? key index.entries).getD []

/-- Whether a name has been entered for an attribute. -/
def has (index : AttributeIndex) (key : String) : Bool :=
  Order.hasKey key index.entries

/-- The index with one more name for an attribute. -/
def enter (index : AttributeIndex) (key name : String) : AttributeIndex :=
  ⟨Order.put key (index.namesOf key ++ [name]) index.entries⟩

/-- The index with the name of a list for each of its attributes. -/
def enterList (index : AttributeIndex) (list : TargetList) : AttributeIndex :=
  list.attributes.foldl (fun index field => index.enter field.finalName list.name) index

/-- The index of some lists. -/
def ofLists (lists : List TargetList) : AttributeIndex :=
  lists.foldl enterList empty

end AttributeIndex

namespace Catalogue

/-- The index of the lists of a catalogue. -/
def index (catalogue : Catalogue) : AttributeIndex :=
  .ofLists catalogue.lists

/-- The lists that are indexed under an attribute, among `allowed` if it is given, in name order and
each of them once. -/
def findAll (catalogue : Catalogue) (key : String) (allowed : Option (List String)) :
    List TargetList :=
  let names := (catalogue.index.namesOf key).filter fun name =>
    allowed.all fun names => names.contains name
  sortLists (names.filterMap catalogue.get?)

/-- The first of the lists that are indexed under an attribute. -/
def findFirst? (catalogue : Catalogue) (key : String) (allowed : Option (List String)) :
    Option TargetList :=
  (catalogue.findAll key allowed).head?

/-- Whether an attribute is in the index. -/
def isIndexed (catalogue : Catalogue) (key : String) : Bool :=
  catalogue.index.has key

end Catalogue

end StationGateway
