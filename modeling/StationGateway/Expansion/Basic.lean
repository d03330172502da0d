import StationGateway.Expansion.Predicate

/-!
# Expansions

The `select` and `where` parameters of a request, resolved against the lists it may use: what is
projected from each list, which attributes and lists are in use, and the predicate of the filter.
-/

namespace StationGateway

open Text StationGateway.Filter

/-- A projected attribute of a list, or a place inside its JSON value. -/
structure Fragment where
  /-- The attribute. -/
  field : Attribute
  /-- The dotted path into its value. -/
  path : Option String
  deriving DecidableEq, Repr

/-- The text of a projection. A place inside a value that has no inside is null. -/
def Fragment.text (fragment : Fragment) : String :=
  match fragment.path with
  | none => fragment.field.fragment?.getD ""
  | some path =>
      let label := "\"" ++ fragment.field.finalName ++ "." ++ path ++ "\""
      if fragment.field.scalarOnly then "null::jsonb as " ++ label
      else
        fragment.field.column?.getD "null" ++ "#>'\x7b" ++ Selector.commaPath path ++ "\x7d' as " ++
          label

/-- What a request selects and requires. -/
structure Expansion where
  /-- The lists and operators it was resolved against. -/
  scope : Scope
  /-- The projections by list. -/
  fragments : List (String × List Fragment)
  /-- The attributes in use. -/
  usedAttributes : List String
  /-- The lists in use. -/
  usedLists : List String
  /-- The filter. -/
  filter : Option Filter
  /-- The predicate of the filter. -/
  predicate : Option Predicate
  /-- Whether repeated rows are dropped. -/
  distinct : Bool

/-- The projections found so far, and what they use. -/
structure Projections where
  /-- The projections by list. -/
  fragments : List (String × List Fragment)
  /-- The attributes in use. -/
  usedAttributes : List String
  /-- The lists in use. -/
  usedLists : List String
  deriving Repr

namespace Projections

/-- Nothing found yet. -/
def empty : Projections :=
  ⟨[], [], []⟩

/-- The projections with one more of a list. -/
def add (projections : Projections) (list : TargetList) (fragment : Fragment) : Projections :=
  let before := (Order.find? list.name projections.fragments).getD []
  { fragments := Order.put list.name (before ++ [fragment]) projections.fragments
    usedAttributes := Order.insert fragment.field.finalName projections.usedAttributes
    usedLists := Order.insert list.name projections.usedLists }

end Projections

namespace Scope

/-- The whole attributes of all allowed lists. -/
def everything (scope : Scope) : List Selector :=
  Order.ofList <|
    ((scope.allowed.filterMap scope.catalogue.get?).flatMap TargetList.finalNames).map
      Selector.whole

/-- The selectors of a `select` parameter, ascending. A blank one, or one that names `*`, asks for
everything. -/
def requested (scope : Scope) (select : String) : List Selector :=
  let selectors := Order.ofList ((pieces ',' select).filterMap Selector.ofText?)
  if selectors.isEmpty || selectors.any fun selector => selector.name = "*" then scope.everything
  else selectors

/-- The whole attributes of the allowed lists that an attribute points to. -/
def pointedTo (scope : Scope) (field : Attribute) : List Selector :=
  (((field.children.filter fun child => scope.allowed.contains child).filterMap
    scope.catalogue.get?).flatMap TargetList.finalNames).map Selector.whole

/-- The selectors that have not been seen, each at its first occurrence. -/
def unseen (seen : List Selector) : List Selector → List Selector
  | [] => []
  | selector :: rest =>
      if selector ∈ seen then unseen seen rest else selector :: unseen (selector :: seen) rest

/-- What one selector gives in one list: a projection, or for a pointer further selectors. -/
def visit (scope : Scope) (selector : Selector) (projections : Projections) (list : TargetList) :
    Projections × List Selector :=
  match list.find? selector.name with
  | none => (projections, [])
  | some field =>
      if field.isPointer then (projections, scope.pointedTo field)
      else (projections.add list ⟨field, selector.path⟩, [])

/-- What one selector gives in several lists. -/
def visitAll (scope : Scope) (selector : Selector) :
    Projections → List TargetList → Projections × List Selector
  | projections, [] => (projections, [])
  | projections, list :: rest =>
      let (projections, found) := scope.visit selector projections list
      let (projections, others) := scope.visitAll selector projections rest
      (projections, found ++ others)

/-- Works through a queue of selectors. Selectors found through pointers join the queue once; they
are whole attributes of the catalogue, so the budget of one step for each of those and for each
selector at the start is enough. -/
def project (scope : Scope) :
    Nat → List Selector → List Selector → Projections → Except GatewayError Projections
  | 0, _, _, projections => .ok projections
  | _ + 1, _, [], projections => .ok projections
  | budget + 1, seen, selector :: queue, projections => do
      let lists ← scope.resolve selector.name
      let (projections, found) := scope.visitAll selector projections lists
      let fresh := unseen seen found
      scope.project budget (seen ++ fresh) (queue ++ fresh) projections

/-- What a `select` parameter projects. -/
def projections (scope : Scope) (select : String) : Except GatewayError Projections :=
  let requested := scope.requested select
  scope.project (requested.length + scope.catalogue.attributeCount + 1) requested requested .empty

/-- The projections with what the comparisons of a filter use. -/
def addUses (scope : Scope) :
    Projections → List Clause → Except GatewayError Projections
  | projections, [] => .ok projections
  | projections, comparison :: rest => do
      let lists ← scope.resolve comparison.key
      scope.addUses
        { projections with
          usedLists := lists.foldl (fun used list => Order.insert list.name used)
            projections.usedLists
          usedAttributes := Order.insert comparison.key projections.usedAttributes }
        rest

/-- Resolves a `select` and a `where` parameter. Errors of the selection come first, then those of
the filter's notation, of its attributes, and of its comparisons. -/
def expand (scope : Scope) (select conditions : Option String) (distinct : Bool) :
    Except GatewayError Expansion := do
  let projections ← scope.projections (select.getD "")
  let filter ← match conditions with
    | some text => parse scope.operators.isName text
    | none => .ok none
  match filter with
  | none =>
      return { scope, fragments := projections.fragments,
               usedAttributes := projections.usedAttributes, usedLists := projections.usedLists,
               filter := none, predicate := none, distinct }
  | some filter =>
      let projections ← scope.addUses projections filter.clauses
      let predicate ← scope.compile none filter
      return { scope, fragments := projections.fragments,
               usedAttributes := projections.usedAttributes, usedLists := projections.usedLists,
               filter := some filter, predicate := some predicate, distinct }

end Scope

namespace Expansion

/-- Whether an attribute is in use. -/
def usesAttribute (expansion : Expansion) (key : String) : Bool :=
  expansion.usedAttributes.contains key

/-- Whether a list is in use. -/
def usesList (expansion : Expansion) (list : String) : Bool :=
  expansion.usedLists.contains list

/-- The projections of the given lists, of all lists if none is given, in name order. -/
def fragmentsOf (expansion : Expansion) (lists : List String) : List Fragment :=
  (expansion.fragments.filter fun entry => lists.isEmpty || lists.contains entry.1).flatMap (·.2)

/-- The text of the projections of the given lists. -/
def selectSql (expansion : Expansion) (lists : List String) : String :=
  join ", " ((expansion.fragmentsOf lists).map Fragment.text)

/-- The comparisons of the filter with an attribute, in the order of the text. -/
def comparisonsOf (expansion : Expansion) (key : String) : List Clause :=
  match expansion.filter with
  | some filter => filter.clauses.filter fun comparison => comparison.key = key
  | none => []

/-- The predicate of the filter, where an attribute that several lists define is read from the
preferred one. -/
def predicateFor (expansion : Expansion) (preferred : String) :
    Except GatewayError (Option Predicate) :=
  match expansion.filter with
  | some filter => (expansion.scope.compile (some preferred) filter).map some
  | none => .ok none

end Expansion

end StationGateway
