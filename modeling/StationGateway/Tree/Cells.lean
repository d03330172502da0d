import StationGateway.Catalogue.Attribute
import StationGateway.Catalogue.Selector
import StationGateway.Json.Printer
import StationGateway.Row
import StationGateway.Tree.Forest

/-!
# Objects made of cells

The cells of a row that belong to a list make up one object of that list. A column that is a place
inside an attribute's JSON value is put back to that place. The size of an object is estimated along
the way.
-/

namespace StationGateway.Tree

open Text

/-- A column of a list: its name in rows, and the selector that the name spells. -/
structure ListColumn where
  /-- The name in rows. -/
  label : String
  /-- What the name spells. -/
  selector : Selector
  deriving Repr

/-- The columns of a row that the list defines. -/
def columnsOf (list : TargetList) (row : Row) : List ListColumn :=
  row.filterMap fun (label, _) =>
    match Selector.ofText? label with
    | some selector => if (list.find? selector.name).isSome then some ⟨label, selector⟩ else none
    | none => none

/-- A value with another one at a path below it. Objects are made on the way, and what is no object
stays as it is. -/
def nest (value : Json) : List String → Json → Json
  | [last], .object members => .object (Json.setMember last value members)
  | segment :: next :: rest, .object members =>
      let inner := (Json.member? segment members).getD (.object [])
      .object (Json.setMember segment (nest value (next :: rest) inner) members)
  | _, root => root

/-- The estimated size of a cell in bytes: its JSON text, strings without their quotes. -/
def cellSize : Json → Nat
  | .null => 0
  | .string text => text.utf8ByteSize
  | value => value.print.utf8ByteSize

/-- An object in the making and its estimated size. -/
structure Draft where
  /-- The fields. -/
  fields : List (String × Json)
  /-- The estimated size in bytes. -/
  size : Nat

/-- The object with one more cell. -/
def Draft.addCell (column : ListColumn) (cell : Json) (draft : Draft) : Draft :=
  match column.selector.path with
  | none =>
      { fields := Order.put column.label cell draft.fields
        size := draft.size + cellSize cell + column.label.utf8ByteSize }
  | some path =>
      let name := column.selector.name
      let whole := Order.find? name draft.fields
      { fields := Order.put name
          (nest cell (pieces '.' path) (whole.getD (.object []))) draft.fields
        size := draft.size + cellSize cell + (if whole.isSome then 0 else name.utf8ByteSize) +
          path.utf8ByteSize }

/-- The object that a row has for a list with the given columns. Nulls are left out unless
`showNull`. -/
def objectOf (showNull : Bool) (columns : List ListColumn) (row : Row) : Draft :=
  columns.foldl
    (fun draft column =>
      let cell := (Json.member? column.label row).getD .null
      if cell.isNull && !showNull then draft else draft.addCell column cell)
    ⟨[], 0⟩

end StationGateway.Tree
