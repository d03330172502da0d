import StationGateway.Error
import StationGateway.Filter.Basic
import StationGateway.Text.Blank

/-!
# Reading filters

The notation `and(first,or(second,third))`, where a comparison is `key.path.operator.operand`. A
segment is the operator as soon as it names one and a point follows. Parts separated by commas at
the top stand for their conjunction. A refusal names the character at which reading stopped. -/

namespace StationGateway.Filter

open Decimal Text

/-- Why a text is no filter. -/
inductive SyntaxReason where
  /-- A part should begin here; the character found instead, if any. -/
  | partExpected (found : Option Char)
  /-- A sign should stand here; the character found instead, if any. -/
  | signExpected (sign : Char) (found : Option Char)
  /-- A filter goes on where it should end. -/
  | notAtEnd (found : Char)
  /-- A segment should begin here. -/
  | segmentExpected
  /-- The segment is no operator, but nothing follows that could be one. -/
  | operatorExpected (found : String)
  /-- A list goes on with something other than a comma. -/
  | notInList (found : Char)
  /-- A list is not closed. -/
  | unterminatedList
  /-- Something follows a quoted value. -/
  | afterQuoted (found : Char)
  /-- A quoted value is not closed. -/
  | unterminatedQuoted
  /-- A backslash ends the text. -/
  | danglingEscape
  /-- A sign inside a value needs a backslash. -/
  | unescaped (found : Char)
  /-- A value is blank. -/
  | missingValue
  deriving DecidableEq, Repr

/-- The wording for what was found in place of something expected. -/
def foundText : Option Char → String
  | some char => "found '" ++ String.singleton char ++ "'"
  | none => "reached end of input"

/-- The wording of a refusal. -/
def SyntaxReason.message : SyntaxReason → String
  | partExpected found => "expected an attribute, 'and(' or 'or(' but " ++ foundText found
  | signExpected sign found =>
      "expected '" ++ String.singleton sign ++ "' but " ++ foundText found
  | notAtEnd found => "unexpected '" ++ String.singleton found ++ "'"
  | segmentExpected => "expected a JSON path segment or operator"
  | operatorExpected found => "expected an operator followed by '.', found '" ++ found ++ "'"
  | notInList found => "unexpected '" ++ String.singleton found ++ "' in list"
  | unterminatedList => "unterminated list, missing ')'"
  | afterQuoted found => "unexpected '" ++ String.singleton found ++ "' after quoted value"
  | unterminatedQuoted => "unterminated quoted value"
  | danglingEscape => "dangling escape at end of input"
  | unescaped found => "unescaped '" ++ String.singleton found ++ "' inside value"
  | missingValue => "missing value"

/-- A refusal: the number of characters before the place, and the reason. -/
structure SyntaxError where
  /-- The number of characters before the place. -/
  position : Nat
  /-- What is wrong there. -/
  reason : SyntaxReason
  deriving DecidableEq, Repr

/-- A place in the text of a filter. -/
structure Cursor where
  /-- The text ahead. -/
  rest : List Char
  /-- The number of characters before it. -/
  position : Nat
  deriving Repr

namespace Cursor

/-- Refuses what stands here. -/
def refuse {α : Type} (cursor : Cursor) (reason : SyntaxReason) : Except SyntaxError α :=
  .error ⟨cursor.position, reason⟩

/-- The place after the first `count` characters. -/
def skip (cursor : Cursor) (count : Nat) : Cursor :=
  ⟨cursor.rest.drop count, cursor.position + count⟩

/-- The place after leading blanks. -/
def skipBlanks (cursor : Cursor) : Cursor :=
  cursor.skip (cursor.rest.takeWhile isBlank).length

/-- The place after a sign that must stand here. -/
def expect (sign : Char) (cursor : Cursor) : Except SyntaxError Cursor :=
  match cursor.rest with
  | char :: rest =>
      if char = sign then .ok ⟨rest, cursor.position + 1⟩
      else cursor.refuse (.signExpected sign (some char))
  | [] => cursor.refuse (.signExpected sign none)

end Cursor

/-- The characters of keys, path segments and operators. -/
def isWordChar (char : Char) : Bool :=
  char.isAlphanum || char == '_' || char == '-'

/-- The word that begins at a place, which may be empty, and the place after it. -/
def word (cursor : Cursor) : String × Cursor :=
  let letters := cursor.rest.takeWhile isWordChar
  (String.ofList letters, cursor.skip letters.length)

/-- Reads a quoted value after its opening quote, which stands at `opening`. A backslash takes the
next character as it is. -/
def readQuoted (quote : Char) (opening : Nat) (seen : List Char) :
    Nat → List Char → Except SyntaxError (Literal × Cursor)
  | _, [] => .error ⟨opening, .unterminatedQuoted⟩
  | position, '\\' :: [] => .error ⟨position + 1, .danglingEscape⟩
  | position, '\\' :: char :: rest => readQuoted quote opening (char :: seen) (position + 2) rest
  | position, char :: rest =>
      if char = quote then .ok (.text (String.ofList seen.reverse), ⟨rest, position + 1⟩)
      else readQuoted quote opening (char :: seen) (position + 1) rest

/-- Reads the characters of a bare value, up to a comma or a closing parenthesis: in reverse, and
whether one of them followed a backslash. -/
def readBareChars (seen : List Char) (escaped : Bool) :
    Nat → List Char → Except SyntaxError ((List Char × Bool) × Cursor)
  | position, [] => .ok ((seen, escaped), ⟨[], position⟩)
  | position, '\\' :: [] => .error ⟨position + 1, .danglingEscape⟩
  | position, '\\' :: char :: rest => readBareChars (char :: seen) true (position + 2) rest
  | position, char :: rest =>
      if char = ',' ∨ char = ')' then .ok ((seen, escaped), ⟨char :: rest, position⟩)
      else if char = '(' ∨ char = '\'' then .error ⟨position, .unescaped char⟩
      else readBareChars (char :: seen) escaped (position + 1) rest

/-- What a bare value without backslashes means: a word, a number or a text. -/
def bareLiteral (text : List Char) : Literal :=
  if text = ['n', 'u', 'l', 'l'] then .null
  else if text = ['t', 'r', 'u', 'e'] then .boolean true
  else if text = ['f', 'a', 'l', 's', 'e'] then .boolean false
  else
    match Number.ofText? text with
    | some number => .number number
    | none => .text (String.ofList text)

/-- Reads a bare value. Blanks around it do not count, and a backslash makes it a text. -/
def readBare (cursor : Cursor) : Except SyntaxError (Literal × Cursor) := do
  let ((seen, escaped), next) ← readBareChars [] false cursor.position cursor.rest
  let text := trim seen.reverse
  if text.isEmpty then cursor.refuse .missingValue
  else if escaped then .ok (.text (String.ofList text), next)
  else .ok (bareLiteral text, next)

/-- Reads a value in quotes of either kind, after which the list or the part must end. -/
def readQuotedLiteral (quote : Char) (cursor : Cursor) : Except SyntaxError (Literal × Cursor) := do
  let (literal, next) ←
    readQuoted quote cursor.position [] (cursor.position + 1) (cursor.rest.drop 1)
  let next := next.skipBlanks
  match next.rest with
  | [] => .ok (literal, next)
  | char :: _ =>
      if char = ',' ∨ char = ')' then .ok (literal, next) else next.refuse (.afterQuoted char)

/-- Reads a value. -/
def readLiteral (cursor : Cursor) : Except SyntaxError (Literal × Cursor) :=
  let cursor := cursor.skipBlanks
  match cursor.rest with
  | '\'' :: _ => readQuotedLiteral '\'' cursor
  | '"' :: _ => readQuotedLiteral '"' cursor
  | _ => readBare cursor

/-- Reads the further values of a list up to its closing parenthesis. Each takes a character. -/
def readMoreLiterals : Nat → List Literal → Cursor → Except SyntaxError (List Literal × Cursor)
  | 0, _, cursor => cursor.refuse .unterminatedList
  | budget + 1, seen, cursor =>
      match cursor.rest with
      | ',' :: rest => do
          let (literal, next) ← readLiteral ⟨rest, cursor.position + 1⟩
          readMoreLiterals budget (literal :: seen) next
      | ')' :: rest => .ok (seen.reverse, ⟨rest, cursor.position + 1⟩)
      | char :: _ => cursor.refuse (.notInList char)
      | [] => cursor.refuse .unterminatedList

/-- Reads an operand: a list in parentheses or one value. -/
def readOperand (cursor : Cursor) : Except SyntaxError (Operand × Cursor) :=
  match cursor.rest with
  | '(' :: rest => do
      let (first, next) ← readLiteral ⟨rest, cursor.position + 1⟩
      let (values, next) ← readMoreLiterals (next.rest.length + 1) [first] next
      .ok (.list values, next)
  | _ => do
      let (value, next) ← readLiteral cursor
      .ok (.scalar value, next)

/-- Reads the path segments and the operator after a key, each behind a point, and the point after
the operator: the segments in reverse and the operator. Each segment takes a character. -/
def readSegments (isOperator : String → Bool) :
    Nat → List String → Cursor → Except SyntaxError ((List String × String) × Cursor)
  | 0, _, cursor => cursor.refuse .segmentExpected
  | budget + 1, seen, cursor => do
      let start ← cursor.expect '.'
      let (segment, next) := word start
      if segment = "" then start.refuse .segmentExpected
      else
        match next.rest with
        | '.' :: rest =>
            if isOperator segment then .ok ((seen, segment), ⟨rest, next.position + 1⟩)
            else readSegments isOperator budget (segment :: seen) next
        | _ => start.refuse (.operatorExpected segment)

/-- Reads the rest of a comparison after its key, which began at `position`. -/
def readClause (isOperator : String → Bool) (key : String) (position : Nat) (cursor : Cursor) :
    Except SyntaxError (Filter × Cursor) := do
  let ((segments, operator), next) ← readSegments isOperator (cursor.rest.length + 1) [] cursor
  let (operand, next) ← readOperand next
  .ok (.clause ⟨key, segments.reverse, operator, operand, position⟩, next)

mutual

/-- Reads a part: a conjunction, a disjunction or a comparison. The budget bounds the nesting and
the number of parts, each of which takes a character. -/
def readPart (isOperator : String → Bool) : Nat → Cursor → Except SyntaxError (Filter × Cursor)
  | 0, cursor => cursor.refuse (.partExpected cursor.rest.head?)
  | budget + 1, cursor =>
      let start := cursor.skipBlanks
      let (key, next) := word start
      if key = "" then start.refuse (.partExpected start.rest.head?)
      else
        match next.rest with
        | '(' :: rest =>
            if key = "and" ∨ key = "or" then do
              let (parts, next) ← readParts isOperator budget ⟨rest, next.position + 1⟩
              let next ← next.skipBlanks.expect ')'
              .ok (if key = "and" then .all parts else .any parts, next)
            else readClause isOperator key start.position next
        | _ => readClause isOperator key start.position next

/-- Reads parts separated by commas. -/
def readParts (isOperator : String → Bool) : Nat → Cursor → Except SyntaxError (List Filter × Cursor)
  | 0, cursor => cursor.refuse (.partExpected cursor.rest.head?)
  | budget + 1, cursor => do
      let (first, next) ← readPart isOperator budget cursor
      let next := next.skipBlanks
      match next.rest with
      | ',' :: rest => do
          let (others, next) ← readParts isOperator budget ⟨rest, next.position + 1⟩
          .ok (first :: others, next)
      | _ => .ok ([first], next)

end

/-- The filter that a text spells, none if the text is blank. -/
def read (isOperator : String → Bool) (text : List Char) : Except SyntaxError (Option Filter) :=
  if isBlankText text then .ok none
  else do
    let (parts, next) ← readParts isOperator (2 * text.length + 2) ⟨text, 0⟩
    let next := next.skipBlanks
    match next.rest with
    | char :: _ => next.refuse (.notAtEnd char)
    | [] =>
        match parts with
        | [part] => .ok (some part)
        | _ => .ok (some (.all parts))

/-- A refusal as the answer to a request. -/
def SyntaxError.toGatewayError (error : SyntaxError) : GatewayError :=
  .filterSyntax error.position error.reason.message

/-- The filter that the `where` parameter of a request spells, none if it is blank. -/
def parse (isOperator : String → Bool) (text : String) : Except GatewayError (Option Filter) :=
  (read isOperator text.toList).mapError SyntaxError.toGatewayError

end StationGateway.Filter
