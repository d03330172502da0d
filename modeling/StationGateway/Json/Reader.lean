import StationGateway.Json.Basic
import StationGateway.Text.Hex

/-!
# Reading JSON texts

A reader for whole JSON texts. Containers may nest 127 deep, strings hold no raw control characters
and no lone surrogates, and numbers beyond the range of doubles are refused. `skipValue` passes over
a value that nobody asks for, of which only the outline has to be right.
-/

namespace StationGateway.Json

open Decimal Text

/-- Blanks between the tokens of a JSON text. -/
def isGap (char : Char) : Bool :=
  char == ' ' || char == '\n' || char == '\t' || char == '\r'

/-- The text from the next token on. -/
def skipGaps (text : List Char) : List Char :=
  text.dropWhile isGap

/-- The number that four hexadecimal digits spell. -/
def hexUnit? (a b c d : Char) : Option Nat := do
  let a ← hexValue? a
  let b ← hexValue? b
  let c ← hexValue? c
  let d ← hexValue? d
  some (((a * 16 + b) * 16 + c) * 16 + d)

/-- The character that one letter after a backslash stands for. -/
def shortEscape? : Char → Option Char
  | '"' => some '"'
  | '\\' => some '\\'
  | '/' => some '/'
  | 'b' => some (Char.ofNat 8)
  | 'f' => some (Char.ofNat 12)
  | 'n' => some '\n'
  | 'r' => some '\r'
  | 't' => some '\t'
  | _ => none

/-- Reads a string after its opening quote: the characters in reverse, before those in `seen`, and
the text after the closing quote. -/
def readChars (seen : List Char) : List Char → Option (List Char × List Char)
  | [] => none
  | '"' :: rest => some (seen, rest)
  | '\\' :: 'u' :: a :: b :: c :: d :: '\\' :: 'u' :: e :: f :: g :: h :: rest =>
      match hexUnit? a b c d with
      | none => none
      | some unit =>
          if 0xD800 ≤ unit ∧ unit ≤ 0xDBFF then
            match hexUnit? e f g h with
            | none => none
            | some second =>
                if 0xDC00 ≤ second ∧ second ≤ 0xDFFF then
                  readChars
                    (Char.ofNat (0x10000 + (unit - 0xD800) * 0x400 + (second - 0xDC00)) :: seen) rest
                else none
          else if 0xDC00 ≤ unit ∧ unit ≤ 0xDFFF then none
          else readChars (Char.ofNat unit :: seen) ('\\' :: 'u' :: e :: f :: g :: h :: rest)
  | '\\' :: 'u' :: a :: b :: c :: d :: rest =>
      match hexUnit? a b c d with
      | none => none
      | some unit =>
          if 0xD800 ≤ unit ∧ unit ≤ 0xDFFF then none
          else readChars (Char.ofNat unit :: seen) rest
  | '\\' :: letter :: rest =>
      match shortEscape? letter with
      | none => none
      | some char => readChars (char :: seen) rest
  | char :: rest => if char.toNat < 32 then none else readChars (char :: seen) rest

/-- Reads a string after its opening quote. -/
def readString (text : List Char) : Option (String × List Char) :=
  (readChars [] text).map fun (chars, rest) => (String.ofList chars.reverse, rest)

/-- Reads a word, if it is the next thing in the text. -/
def readWord : List Char → List Char → Option (List Char)
  | [], text => some text
  | _ :: _, [] => none
  | letter :: word, char :: text => if letter = char then readWord word text else none

mutual

/-- Reads a value at the start of a text, with containers at most `depth` deep; `budget` bounds the
number of tokens. -/
def readValue : Nat → Nat → List Char → Option (Json × List Char)
  | 0, _, _ => none
  | budget + 1, depth, text =>
      match text with
      | 'n' :: rest => (readWord ['u', 'l', 'l'] rest).map fun rest => (null, rest)
      | 't' :: rest => (readWord ['r', 'u', 'e'] rest).map fun rest => (bool true, rest)
      | 'f' :: rest => (readWord ['a', 'l', 's', 'e'] rest).map fun rest => (bool false, rest)
      | '"' :: rest => (readString rest).map fun (value, rest) => (.string value, rest)
      | '[' :: rest =>
          match depth with
          | 0 => none
          | depth + 1 =>
              match skipGaps rest with
              | ']' :: rest => some (array [], rest)
              | rest => (readItems budget depth [] rest).map fun (items, rest) => (array items, rest)
      | '{' :: rest =>
          match depth with
          | 0 => none
          | depth + 1 =>
              match skipGaps rest with
              | '}' :: rest => some (object [], rest)
              | rest =>
                  (readMembers budget depth [] rest).map fun (members, rest) => (object members, rest)
      | rest => (Number.read rest).map fun (value, rest) => (number value, rest)

/-- Reads the items of an array from its next item on, after the ones in `seen`. -/
def readItems : Nat → Nat → List Json → List Char → Option (List Json × List Char)
  | 0, _, _, _ => none
  | budget + 1, depth, seen, text =>
      match readValue budget depth (skipGaps text) with
      | none => none
      | some (item, rest) =>
          match skipGaps rest with
          | ',' :: rest => readItems budget depth (item :: seen) rest
          | ']' :: rest => some ((item :: seen).reverse, rest)
          | _ => none

/-- Reads the members of an object from its next member on, after the ones in `seen`. -/
def readMembers : Nat → Nat → List (String × Json) → List Char →
    Option (List (String × Json) × List Char)
  | 0, _, _, _ => none
  | budget + 1, depth, seen, text =>
      match skipGaps text with
      | '"' :: rest =>
          match readString rest with
          | none => none
          | some (name, rest) =>
              match skipGaps rest with
              | ':' :: rest =>
                  match readValue budget depth (skipGaps rest) with
                  | none => none
                  | some (value, rest) =>
                      let seen := setMember name value seen
                      match skipGaps rest with
                      | ',' :: rest => readMembers budget depth seen rest
                      | '}' :: rest => some (seen, rest)
                      | _ => none
              | _ => none
      | _ => none

end

/-- The depth to which containers may nest. -/
def depthLimit : Nat := 127

/-- The value that a whole text spells, `none` if it spells none. Each step of the reader takes a
character or starts a value that does. -/
def ofText (text : List Char) : Option Json :=
  match readValue (2 * text.length + 2) depthLimit (skipGaps text) with
  | some (value, rest) => if (skipGaps rest).isEmpty then some value else none
  | none => none

/-- Passes over a string after its opening quote. Escapes need their outline only. -/
def skipString : List Char → Option (List Char)
  | [] => none
  | '"' :: rest => some rest
  | '\\' :: 'u' :: a :: b :: c :: d :: rest =>
      if (hexUnit? a b c d).isSome then skipString rest else none
  | '\\' :: letter :: rest => if (shortEscape? letter).isSome then skipString rest else none
  | char :: rest => if char.toNat < 32 then none else skipString rest

/-- Passes over the digits of a text, of which there must be one. -/
def skipDigits (text : List Char) : Option (List Char) :=
  match text with
  | char :: _ => if char.isDigit then some (text.dropWhile Char.isDigit) else none
  | [] => none

/-- Passes over the exponent of a number, if there is one. -/
def skipExponent : List Char → Option (List Char)
  | 'e' :: '+' :: rest => skipDigits rest
  | 'e' :: '-' :: rest => skipDigits rest
  | 'e' :: rest => skipDigits rest
  | 'E' :: '+' :: rest => skipDigits rest
  | 'E' :: '-' :: rest => skipDigits rest
  | 'E' :: rest => skipDigits rest
  | rest => some rest

/-- Passes over a number of any size. -/
def skipNumber (text : List Char) : Option (List Char) := do
  let unsigned := match text with
    | '-' :: rest => rest
    | rest => rest
  let afterWhole ← match unsigned with
    | '0' :: rest => if (rest.head?.map Char.isDigit).getD false then none else some rest
    | rest => skipDigits rest
  let afterFraction ← match afterWhole with
    | '.' :: rest => skipDigits rest
    | rest => some rest
  skipExponent afterFraction

mutual

/-- Passes over a value, however deep; `budget` bounds the number of tokens. -/
def skipValue : Nat → List Char → Option (List Char)
  | 0, _ => none
  | budget + 1, text =>
      match text with
      | 'n' :: rest => readWord ['u', 'l', 'l'] rest
      | 't' :: rest => readWord ['r', 'u', 'e'] rest
      | 'f' :: rest => readWord ['a', 'l', 's', 'e'] rest
      | '"' :: rest => skipString rest
      | '[' :: rest =>
          match skipGaps rest with
          | ']' :: rest => some rest
          | rest => skipItems budget rest
      | '{' :: rest =>
          match skipGaps rest with
          | '}' :: rest => some rest
          | rest => skipMembers budget rest
      | rest => skipNumber rest

/-- Passes over the items of an array from its next item on. -/
def skipItems : Nat → List Char → Option (List Char)
  | 0, _ => none
  | budget + 1, text =>
      match skipValue budget (skipGaps text) with
      | none => none
      | some rest =>
          match skipGaps rest with
          | ',' :: rest => skipItems budget rest
          | ']' :: rest => some rest
          | _ => none

/-- Passes over the members of an object from its next member on. -/
def skipMembers : Nat → List Char → Option (List Char)
  | 0, _ => none
  | budget + 1, text =>
      match skipGaps text with
      | '"' :: rest =>
          match skipString rest with
          | none => none
          | some rest =>
              match skipGaps rest with
              | ':' :: rest =>
                  match skipValue budget (skipGaps rest) with
                  | none => none
                  | some rest =>
                      match skipGaps rest with
                      | ',' :: rest => skipMembers budget rest
                      | '}' :: rest => some rest
                      | _ => none
              | _ => none
      | _ => none

end

end StationGateway.Json
