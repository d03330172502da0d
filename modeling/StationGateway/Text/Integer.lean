/-!
# Whole numbers in settings and parameters

A whole number is an optional sign and digits, and has to lie within bounds. The sign may be a minus
only where negative numbers are allowed. The first character that goes wrong decides on the refusal.
-/

namespace StationGateway.Text

/-- Why a text is no whole number. -/
inductive IntegerError where
  /-- There is no text. -/
  | empty
  /-- A character is no digit, or there is only a sign. -/
  | invalidDigit
  /-- The number exceeds the greatest one. -/
  | tooLarge
  /-- The number falls below the least one. -/
  | tooSmall
  deriving DecidableEq, Repr

/-- The wording of a refusal. -/
def IntegerError.message : IntegerError → String
  | empty => "cannot parse integer from empty string"
  | invalidDigit => "invalid digit found in string"
  | tooLarge => "number too large to fit in target type"
  | tooSmall => "number too small to fit in target type"

/-- The number that digits spell after `value`, at most `greatest`. -/
def readDigits (greatest : Nat) (overflow : IntegerError) :
    Nat → List Char → Except IntegerError Nat
  | value, [] => .ok value
  | value, char :: rest =>
      if !char.isDigit then .error .invalidDigit
      else
        let next := 10 * value + (char.toNat - 48)
        if next > greatest then .error overflow else readDigits greatest overflow next rest

/-- The whole number that a text spells, from `-negative` up to `greatest`. -/
def readInteger (negative greatest : Nat) (text : List Char) : Except IntegerError Int :=
  match text with
  | [] => .error .empty
  | ['+'] => .error .invalidDigit
  | ['-'] => .error .invalidDigit
  | '+' :: rest => (readDigits greatest .tooLarge 0 rest).map Int.ofNat
  | '-' :: rest =>
      if negative = 0 then .error .invalidDigit
      else (readDigits negative .tooSmall 0 rest).map fun value => -(value : Int)
  | text => (readDigits greatest .tooLarge 0 text).map Int.ofNat

end StationGateway.Text
