import StationGateway.Json.Basic
import StationGateway.Text.Split

/-!
# JSON texts

The compact text of a JSON value: no blanks, members in order, and escapes only for quotes,
backslashes and control characters.
-/

namespace StationGateway.Json

open Text

/-- The lower-case hexadecimal digit of a number below sixteen. -/
def hexDigit (value : Nat) : Char :=
  (Nat.toDigits 16 value).headD '0'

/-- A character inside a string literal. -/
def escapeChar (char : Char) : List Char :=
  match char with
  | '"' => ['\\', '"']
  | '\\' => ['\\', '\\']
  | '\n' => ['\\', 'n']
  | '\r' => ['\\', 'r']
  | '\t' => ['\\', 't']
  | _ =>
      if char.toNat = 8 then ['\\', 'b']
      else if char.toNat = 12 then ['\\', 'f']
      else if char.toNat < 32 then
        ['\\', 'u', '0', '0', hexDigit (char.toNat / 16), hexDigit (char.toNat % 16)]
      else [char]

/-- A string literal with its quotes. -/
def quoted (text : String) : String :=
  "\"" ++ String.ofList (text.toList.flatMap escapeChar) ++ "\""

mutual

/-- The compact text of a value. -/
def print : Json → String
  | null => "null"
  | bool value => if value then "true" else "false"
  | number value => value.text
  | string value => quoted value
  | array items => "[" ++ join "," (printItems items) ++ "]"
  | object members => "\x7b" ++ join "," (printMembers members) ++ "\x7d"

/-- The compact texts of the items of an array. -/
def printItems : List Json → List String
  | [] => []
  | item :: rest => print item :: printItems rest

/-- The compact texts of the members of an object. -/
def printMembers : List (String × Json) → List String
  | [] => []
  | (name, value) :: rest => (quoted name ++ ":" ++ print value) :: printMembers rest

end

end StationGateway.Json
