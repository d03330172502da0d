import StationGateway.Text.Blank
import StationGateway.Text.Split

/-!
# Attributes and target lists

The building blocks of a catalogue. An attribute is a column expression or points to child lists; a
target list is a named group of attributes together with the way its objects attach to their parent
in a tree.
-/

namespace StationGateway

open Text

/-- How objects of a list attach to their parent in a tree. -/
inductive Attachment where
  /-- As one object under the parent's target. -/
  | inline
  /-- As a field of the parent. -/
  | merge
  /-- As an entry of a map under the parent's target. -/
  | map
  /-- As an element of a list under the parent's target. -/
  | list
  deriving DecidableEq, Repr

namespace Attachment

/-- The name of a way to attach. -/
def name : Attachment → String
  | inline => "inline"
  | merge => "merge"
  | map => "map"
  | list => "list"

/-- The way to attach of a name. -/
def ofName? (name : String) : Option Attachment :=
  [inline, merge, map, list].find? fun attachment => attachment.name = name

end Attachment

/-- The rule that attaches the objects of a list. -/
structure LookUp where
  /-- How the objects attach. -/
  attachment : Attachment
  /-- The list they attach to, the root if there is none. -/
  parentList : Option String
  /-- The attribute of the parent they attach under. -/
  parentTarget : Option String
  /-- The column that keys a map. -/
  key : Option String
  deriving DecidableEq, Repr

/-- Where an attribute comes from. -/
inductive AttributeSource where
  /-- A column expression. -/
  | column (expression : String)
  /-- The child lists it points to. -/
  | pointer (children : List String)
  deriving DecidableEq, Repr

/-- An attribute of the API. -/
structure Attribute where
  /-- The name it is defined under. -/
  name : String
  /-- The name clients use, if it is another one. -/
  publicName : Option String
  /-- The label of its column, if it is another one than the name clients use. -/
  label : Option String
  /-- Where it comes from. -/
  source : AttributeSource
  /-- The projection, with `%s` for the labelled column. -/
  selectFormat : String
  /-- The projected column, with `%s` for the column expression. -/
  columnFormat : String
  /-- Whether its values have no inside, so that paths into it are null. -/
  scalarOnly : Bool
  deriving DecidableEq, Repr

/-- A named group of attributes and the rule that attaches its objects. -/
structure TargetList where
  /-- The name of the list. -/
  name : String
  /-- How its objects attach. -/
  lookUp : LookUp
  /-- Its attributes, in order. -/
  attributes : List Attribute
  deriving DecidableEq, Repr

/-- Why a catalogue cannot be built or asked. -/
inductive CatalogueError where
  /-- A name has characters other than letters, digits, points, hyphens and underscores. -/
  | invalidName (name : String)
  /-- A column expression is blank. -/
  | emptyColumn (name : String)
  /-- A pointer points nowhere. -/
  | noChildren (name : String)
  /-- A projection format has no place for the column. -/
  | selectFormat (format : String)
  /-- A column format has no place for the expression. -/
  | columnFormat (format : String)
  /-- A map has no key column. -/
  | missingKey (list : String)
  /-- A list that is no map has no parent. -/
  | missingParent (list : String)
  /-- Two attributes of a list have one name. -/
  | duplicateAttribute (name list : String)
  /-- Two lists have one name. -/
  | duplicateList (list : String)
  /-- A parent is not in the catalogue. -/
  | unknownParent (list parent : String)
  /-- A child is not in the catalogue. -/
  | unknownChild (name list child : String)
  /-- A hierarchy starts outside the catalogue. -/
  | unknownEntry (entry : String)
  deriving DecidableEq, Repr

/-- The wording of a catalogue error. -/
def CatalogueError.message : CatalogueError → String
  | invalidName name => s!"invalid attribute name '{name}'"
  | emptyColumn name => s!"target '{name}' has an empty column"
  | noChildren name => s!"pointer target '{name}' has no children"
  | selectFormat format => s!"select format '{format}' lacks %s"
  | columnFormat format => s!"column format '{format}' lacks %s"
  | missingKey list => s!"MAP list '{list}' needs a map type key"
  | missingParent list => s!"list '{list}' needs a parent list and parent target"
  | duplicateAttribute name list => s!"duplicate attribute '{name}' in list '{list}'"
  | duplicateList list => s!"duplicate target-list '{list}'"
  | unknownParent list parent => s!"list '{list}' names unknown parent '{parent}'"
  | unknownChild name list child =>
      s!"target '{name}' in '{list}' points to unknown list '{child}'"
  | unknownEntry entry => s!"unknown entry point '{entry}'"

/-- The characters that names consist of. -/
def isNameChar (char : Char) : Bool :=
  char.isAlphanum || char == '.' || char == '_' || char == '-'

/-- Whether a text may name attributes and lists. -/
def isName (name : String) : Bool :=
  name ≠ "" && name.toList.all isNameChar

/-- Accepts a name or refuses it. -/
def checkName (name : String) : Except CatalogueError Unit :=
  if isName name then .ok () else .error (.invalidName name)

/-- The place for the value in a format. -/
def formatSlot : List Char := ['%', 's']

/-- A format with its first `%s` replaced by a value. -/
def applyFormat (format value : String) : String :=
  String.ofList (replaceFirst formatSlot value.toList format.toList)

/-- Whether a format has a place for a value. -/
def hasSlot (format : String) : Bool :=
  occursIn formatSlot format.toList

namespace Attribute

/-- An attribute with no options set. -/
def plain (name : String) (source : AttributeSource) : Attribute :=
  { name := name, publicName := none, label := none, source := source, selectFormat := "%s",
    columnFormat := "%s", scalarOnly := false }

/-- An attribute that is a column expression. -/
def ofColumn (name expression : String) : Except CatalogueError Attribute := do
  checkName name
  if (trimmed expression) = "" then throw (.emptyColumn name)
  return plain name (.column expression)

/-- An attribute that points to child lists. -/
def ofChildren (name : String) (children : List String) : Except CatalogueError Attribute := do
  checkName name
  if children.isEmpty then throw (.noChildren name)
  return plain name (.pointer children)

/-- The attribute under another name for clients. -/
def withPublicName (name : String) (field : Attribute) : Except CatalogueError Attribute := do
  checkName name
  return { field with publicName := some name }

/-- The attribute with another label for its column. -/
def withLabel (label : String) (field : Attribute) : Except CatalogueError Attribute := do
  checkName label
  return { field with label := some label }

/-- The attribute with another projection. -/
def withSelectFormat (format : String) (field : Attribute) :
    Except CatalogueError Attribute := do
  if !hasSlot format then throw (.selectFormat format)
  return { field with selectFormat := format }

/-- The attribute with another projected column. -/
def withColumnFormat (format : String) (field : Attribute) :
    Except CatalogueError Attribute := do
  if !hasSlot format then throw (.columnFormat format)
  return { field with columnFormat := format }

/-- The attribute as one whose values have no inside. -/
def asScalar (field : Attribute) : Attribute :=
  { field with scalarOnly := true }

/-- The name that clients use. -/
def finalName (field : Attribute) : String :=
  field.publicName.getD field.name

/-- The column expression, if the attribute has one. -/
def column? (field : Attribute) : Option String :=
  match field.source with
  | .column expression => some expression
  | .pointer _ => none

/-- The child lists, none for a column. -/
def children (field : Attribute) : List String :=
  match field.source with
  | .column _ => []
  | .pointer children => children

/-- Whether the attribute points to child lists. -/
def isPointer (field : Attribute) : Bool :=
  !field.children.isEmpty

/-- The label of the attribute's column. -/
def columnLabel (field : Attribute) : String :=
  field.label.getD field.finalName

/-- The column expression as it is projected. -/
def projectedColumn? (field : Attribute) : Option String :=
  field.column?.map (applyFormat field.columnFormat)

/-- The projection of the whole field. -/
def fragment? (field : Attribute) : Option String :=
  field.projectedColumn?.map fun column =>
    applyFormat field.selectFormat (column ++ " as " ++ field.columnLabel)

end Attribute

namespace TargetList

/-- A list without attributes. A map needs a key, every other list a parent. -/
def empty (name : String) (lookUp : LookUp) : Except CatalogueError TargetList := do
  checkName name
  if lookUp.attachment = .map then
    if lookUp.key.isNone then throw (.missingKey name)
  else if lookUp.parentList.isNone || lookUp.parentTarget.isNone then
    throw (.missingParent name)
  return { name := name, lookUp := lookUp, attributes := [] }

/-- The names that clients use for the list's attributes. -/
def finalNames (list : TargetList) : List String :=
  list.attributes.map Attribute.finalName

/-- The attribute that clients know by a name. -/
def find? (name : String) (list : TargetList) : Option Attribute :=
  list.attributes.find? fun field => field.finalName = name

/-- The list with one more attribute, whose name for clients must be new. -/
def add (field : Attribute) (list : TargetList) : Except CatalogueError TargetList :=
  if field.finalName ∈ list.finalNames then
    .error (.duplicateAttribute field.finalName list.name)
  else .ok { list with attributes := list.attributes ++ [field] }

end TargetList

end StationGateway
