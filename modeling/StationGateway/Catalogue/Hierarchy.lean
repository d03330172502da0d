import StationGateway.Catalogue.Basic

/-!
# Hierarchies

The lists that can be reached from an entry list through pointers, level by level. Every list stands
on the first level that points to it, so cyclic pointers do no harm. Exit points cut the walk short.
-/

namespace StationGateway

/-- A list at which the walk through pointers stops. -/
structure ExitPoint where
  /-- The name of the list. -/
  list : String
  /-- Whether the list itself belongs to the hierarchy. -/
  inclusive : Bool
  deriving DecidableEq, Repr

namespace Catalogue

/-- The lists that a list points to, in order and with repetitions, as far as the exits let pass. -/
def successors (catalogue : Catalogue) (exits : List ExitPoint) (name : String) : List String :=
  if exits.contains ⟨name, true⟩ then []
  else
    match catalogue.get? name with
    | none => []
    | some list =>
        (list.attributes.flatMap Attribute.children).filter fun child =>
          !(exits.contains ⟨child, false⟩)

/-- The names that have not been visited, each at its first occurrence. -/
def unvisited (visited : List String) : List String → List String
  | [] => []
  | name :: rest =>
      if name ∈ visited then unvisited visited rest
      else name :: unvisited (name :: visited) rest

/-- The levels from a given one on. Each of them but the first visits a new list, so the number of
lists bounds their number. -/
def levelsFrom (catalogue : Catalogue) (exits : List ExitPoint) :
    Nat → List String → List String → List (List String)
  | 0, _, _ => []
  | budget + 1, visited, level =>
      if level.isEmpty then []
      else
        let next := unvisited visited (level.flatMap (catalogue.successors exits))
        level :: catalogue.levelsFrom exits budget (visited ++ next) next

/-- The levels of the hierarchy below an entry list, which is the first level. -/
def hierarchy (catalogue : Catalogue) (entry : String) (exits : List ExitPoint) :
    Except CatalogueError (List (List String)) :=
  if (catalogue.get? entry).isNone then .error (.unknownEntry entry)
  else .ok (catalogue.levelsFrom exits (catalogue.lists.length + 1) [entry] [entry])

/-- The key column of the first map of a level. -/
def levelKey? (catalogue : Catalogue) (level : List String) : Option String :=
  match (level.filterMap catalogue.get?).find? fun list => list.lookUp.attachment = .map with
  | some list => list.lookUp.key
  | none => none

/-- The key columns of the levels, up to the first level without a map. -/
def triggerKeys (catalogue : Catalogue) : List (List String) → List String
  | [] => []
  | level :: rest =>
      match catalogue.levelKey? level with
      | some key => key :: catalogue.triggerKeys rest
      | none => []

end Catalogue

end StationGateway
