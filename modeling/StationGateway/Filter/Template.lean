import StationGateway.Text.Blank
import StationGateway.Text.Split

/-!
# Operator templates

A template is the text of a comparison with places for the column (`%c`), the path into its JSON
value (`%j`) and the operand (`%v`, or `%v[a:b]` for a slice of a list). `%%` is a percent sign, and
any other sign after `%` leaves it as it is.
-/

namespace StationGateway.Filter

open Text

/-- The least and the greatest bound of a slice. -/
def boundLimits : Int × Int := (-0x8000000000000000, 0x7FFFFFFFFFFFFFFF)

/-- A half-open range of positions, where negative bounds count from the end and missing ones stand
for the two ends. -/
structure Slice where
  /-- The first position. -/
  start : Option Int
  /-- The position after the last one. -/
  stop : Option Int
  deriving DecidableEq, Repr

/-- A bound as a position in a list of a given length. -/
def resolveBound (length : Nat) (bound : Int) : Nat :=
  min length (if bound < 0 then (length : Int) + bound else bound).toNat

/-- The positions of a list of a given length that a slice stands for. -/
def Slice.range (slice : Slice) (length : Nat) : Nat × Nat :=
  let start := match slice.start with
    | some bound => resolveBound length bound
    | none => 0
  let stop := match slice.stop with
    | some bound => resolveBound length bound
    | none => length
  (start, max start stop)

/-- The members of a list that a slice stands for. -/
def Slice.select {α : Type} (slice : Slice) (values : List α) : List α :=
  let (start, stop) := slice.range values.length
  (values.drop start).take (stop - start)

/-- The number that digits spell. -/
def digitsValue (digits : List Char) : Nat :=
  digits.foldl (fun value digit => 10 * value + (digit.toNat - 48)) 0

/-- The bound that a text spells between blanks: an optional sign and digits, within 64 bits. -/
def bound? (text : List Char) : Option Int :=
  let text := trim text
  let (negative, digits) := match text with
    | '-' :: rest => (true, rest)
    | '+' :: rest => (false, rest)
    | rest => (false, rest)
  if digits.isEmpty || !digits.all Char.isDigit then none
  else
    let value : Int := if negative then -(digitsValue digits : Int) else digitsValue digits
    if boundLimits.1 ≤ value ∧ value ≤ boundLimits.2 then some value else none

/-- The slice that a text between brackets spells: bounds around a colon, where one that is no
number is missing, or one index. An index that is no number selects the whole operand. The index
after the greatest bound wraps around to the least one. -/
def slice? (text : List Char) : Option Slice :=
  match splitOnce ':' text with
  | some (start, stop) => some ⟨bound? start, bound? stop⟩
  | none =>
      (bound? text).map fun index =>
        ⟨some index, some (if index = -1 then boundLimits.2
          else if index = boundLimits.2 then boundLimits.1 else index + 1)⟩

/-- A piece of a template. -/
inductive TemplatePart where
  /-- Text to be kept. -/
  | text (text : String)
  /-- The place of the column. -/
  | column
  /-- The place of the path. -/
  | path
  /-- The place of the operand or of a slice of it. -/
  | value (slice : Option Slice)
  deriving DecidableEq, Repr

/-- The text collected so far, in reverse, as a part in front of others. -/
def flushText (seen : List Char) (parts : List TemplatePart) : List TemplatePart :=
  if seen.isEmpty then parts else .text (String.ofList seen.reverse) :: parts

/-- How far the reading of a template has come. -/
inductive TemplateState where
  /-- In text, of which some characters have been seen. -/
  | text (seen : List Char)
  /-- After a percent sign in text. -/
  | percent (seen : List Char)
  /-- Right after `%v`. -/
  | value
  /-- Inside the brackets of a slice. -/
  | slice (seen : List Char)

/-- The parts of a template from a state on. An open bracket reaches to the end. -/
def templateParts : TemplateState → List Char → List TemplatePart
  | .text seen, [] => flushText seen []
  | .percent seen, [] => flushText ('%' :: seen) []
  | .value, [] => [.value none]
  | .slice seen, [] => [.value (slice? seen.reverse)]
  | .text seen, char :: rest =>
      if char = '%' then templateParts (.percent seen) rest
      else templateParts (.text (char :: seen)) rest
  | .percent seen, char :: rest =>
      if char = '%' then templateParts (.text ('%' :: seen)) rest
      else if char = 'c' then flushText seen (.column :: templateParts (.text []) rest)
      else if char = 'j' then flushText seen (.path :: templateParts (.text []) rest)
      else if char = 'v' then flushText seen (templateParts .value rest)
      else templateParts (.text (char :: '%' :: seen)) rest
  | .value, char :: rest =>
      if char = '[' then templateParts (.slice []) rest
      else if char = '%' then .value none :: templateParts (.percent []) rest
      else .value none :: templateParts (.text [char]) rest
  | .slice seen, char :: rest =>
      if char = ']' then .value (slice? seen.reverse) :: templateParts (.text []) rest
      else templateParts (.slice (char :: seen)) rest

/-- The parts of a template. -/
def parseTemplate (template : String) : List TemplatePart :=
  templateParts (.text []) template.toList

end StationGateway.Filter
