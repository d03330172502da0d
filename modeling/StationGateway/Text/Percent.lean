import StationGateway.Text.Hex
import StationGateway.Text.Split
import StationGateway.Text.Utf8

/-!
# Percent signs in URLs

A percent sign and two hexadecimal digits stand for a byte. A percent sign without them stands for
itself. Query strings are pairs of names and values, in which a plus sign stands for a blank.
-/

namespace StationGateway.Text

/-- The value of a byte as a hexadecimal digit. -/
def hexByte? (byte : UInt8) : Option UInt8 :=
  (hexValue? (Char.ofNat byte.toNat)).map UInt8.ofNat

/-- The bytes with all percent signs resolved. -/
def resolvePercents : List UInt8 → List UInt8
  | 0x25 :: first :: second :: rest =>
      match hexByte? first, hexByte? second with
      | some high, some low => (high * 16 + low) :: resolvePercents rest
      | _, _ => 0x25 :: resolvePercents (first :: second :: rest)
  | byte :: rest => byte :: resolvePercents rest
  | [] => []

/-- The text of a path segment, none if its bytes are no text. -/
def decodeSegment? (segment : String) : Option String :=
  (decodeUtf8? (resolvePercents (utf8Bytes segment.toList))).map String.ofList

/-- The text of a name or value in a query string. -/
def decodeFormText (text : List Char) : String :=
  let spaced := text.map fun char => if char = '+' then ' ' else char
  String.ofList (decodeLossy (resolvePercents (utf8Bytes spaced)))

/-- The names and values of a query string, in order. A name without a sign of equality has an empty
value. -/
def formPairs (query : String) : List (String × String) :=
  ((splitOn '&' query.toList).filter fun pair => !pair.isEmpty).map fun pair =>
    match splitOnce '=' pair with
    | some (name, value) => (decodeFormText name, decodeFormText value)
    | none => (decodeFormText pair, "")

end StationGateway.Text
