import StationGateway.Order.Sorted
import StationGateway.Text.Blank
import StationGateway.Text.Split

/-!
# Selectors

An attribute as a client writes it: the name, and after the first point a path into its JSON value.
-/

namespace StationGateway

open Text

/-- An attribute, or a place inside its JSON value. -/
structure Selector where
  /-- The name of the attribute. -/
  name : String
  /-- The dotted path into the value. -/
  path : Option String
  deriving DecidableEq, Repr

namespace Selector

/-- A whole attribute. -/
def whole (name : String) : Selector :=
  ⟨name, none⟩

/-- The selector that a text spells, none if it is blank. A point with nothing after it is dropped.
-/
def ofText? (given : String) : Option Selector :=
  let text := trim given.toList
  if text.isEmpty then none
  else
    match splitOnce '.' text with
    | some (name, []) => some (whole (String.ofList name))
    | some (name, path) => some ⟨String.ofList name, some (String.ofList path)⟩
    | none => some (whole (String.ofList text))

/-- A dotted path with commas for its points, as path literals of the database have it. -/
def commaPath (path : String) : String :=
  String.ofList (path.toList.map fun char => if char = '.' then ',' else char)

/-- The written form. -/
def text (selector : Selector) : String :=
  match selector.path with
  | some path => selector.name ++ "." ++ path
  | none => selector.name

/-- Whether a path comes before another; the whole attribute comes before every place inside it. -/
def pathBefore : Option String → Option String → Bool
  | none, some _ => true
  | some first, some second => first < second
  | _, none => false

/-- Whether a selector comes before another: by name, then by path. -/
def before (first second : Selector) : Bool :=
  first.name < second.name || (first.name == second.name && pathBefore first.path second.path)

instance : LT Selector := ⟨fun first second => before first second = true⟩

instance : DecidableLT Selector := fun first second =>
  inferInstanceAs (Decidable (before first second = true))

end Selector

end StationGateway
