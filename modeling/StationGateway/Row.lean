import StationGateway.Json.Basic

/-!
# Rows

A row is what the database answers for one record: cells by column, in order, each column once. Rows
with measured values carry a column for each of the tables the values are kept in.
-/

namespace StationGateway

/-- Cells by column, in order. -/
abbrev Row := List (String × Json)

namespace Row

/-- The column that measured values are shown in. -/
def valueColumn : String := "mvalue"

/-- The columns that measured values come in. -/
def valueSlots : List String :=
  [valueColumn, "mvalue_double", "mvalue_string", "mvalue_json"]

/-- Whether a column holds a measured value. -/
def isSlot (column : String) : Bool :=
  valueSlots.contains column

/-- What has been gathered of a row up to one of its columns. -/
structure Gathering where
  /-- The row so far, with the value column empty. -/
  row : Row := []
  /-- The first measured value that is not null. -/
  value : Json := .null
  /-- Whether the value column has its place. -/
  placed : Bool := false

/-- The next column. A slot leaves its value, and the first one the place of the value column. -/
def Gathering.add (gathering : Gathering) (entry : String × Json) : Gathering :=
  if isSlot entry.1 then
    { row := if gathering.placed then gathering.row else Json.setMember valueColumn .null gathering.row
      value := if gathering.value.isNull then entry.2 else gathering.value
      placed := true }
  else { gathering with row := Json.setMember entry.1 entry.2 gathering.row }

/-- The row with its measured value in one column, in the place of the first slot. A row with at
most that column stays as it is. -/
def collapse (row : Row) : Row :=
  if row.any fun (column, _) => column ≠ valueColumn && isSlot column then
    let gathered := row.foldl Gathering.add {}
    Json.setMember valueColumn gathered.value gathered.row
  else row

/-- The first character of columns that clients do not see. -/
def hiddenMark : Char := '_'

/-- Whether clients do not see a column. -/
def isHidden (column : String) : Bool :=
  column.toList.head? = some hiddenMark

/-- The row without hidden columns and, unless `showNull`, without nulls. -/
def visible (showNull : Bool) (row : Row) : Row :=
  row.filter fun (column, cell) => !isHidden column && (showNull || !cell.isNull)

end Row

end StationGateway
