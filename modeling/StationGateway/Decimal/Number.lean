import StationGateway.Decimal.Layout

/-!
# Number literals

A number literal is a whole number if it has neither a fraction nor an exponent and fits 64 bits,
else a double. Doubles are read from a significand of at most 64 bits, whose further digits only
shift the power of ten, and one multiplication or division by a power of ten.
-/

namespace StationGateway.Decimal

/-- The value of a number literal. -/
inductive Number where
  /-- A whole number from `-2^63` up to `2^64 - 1`. -/
  | int (value : Int)
  /-- Any other number, as the double it reads to. -/
  | float (value : Binary64)
  deriving DecidableEq, Repr, Inhabited

namespace Number

/-- The greatest significand that is kept exactly. -/
def significandLimit : Nat := 0xFFFFFFFFFFFFFFFF

/-- The greatest power of ten applied in one step. -/
def powerLimit : Nat := 308

/-- The double nearest to a power of ten up to `10 ^ 308`. -/
def powerOfTen (exponent : Nat) : Float :=
  Float.ofScientific 1 false exponent

/-- `significand * 10 ^ exponent` for a negative exponent of the given size: one division if the
power is at most `10 ^ 308`, else repeated divisions by `10 ^ 308` until nothing is left. -/
def divideDown : Nat → Float → Nat → Float
  | 0, value, _ => value
  | budget + 1, value, exponent =>
      if exponent ≤ powerLimit then value / powerOfTen exponent
      else if value == 0 then value
      else divideDown budget (value / powerOfTen powerLimit) (exponent - powerLimit)

/-- The double of `significand * 10 ^ exponent` without sign, `none` if it is out of range. Three
divisions leave nothing of any significand. -/
def scale? (significand : Nat) (exponent : Int) : Option Float :=
  let value := (UInt64.ofNat significand).toFloat
  if exponent < 0 then some (divideDown 4 value exponent.natAbs)
  else if exponent.natAbs ≤ powerLimit then
    let scaled := value * powerOfTen exponent.natAbs
    if scaled.isInf then none else some scaled
  else if value == 0 then some value
  else none

/-- A double with its sign put on. -/
def signed (negative : Bool) (value : Float) : Number :=
  .float (.ofFloat (if negative then -value else value))

/-- Reads the exponent after `e`: an optional sign and digits. A power of ten beyond 31 bits is out
of range, unless it makes the number vanish. -/
def readExponent (negative : Bool) (significand : Nat) (exponent : Int) (text : List Char) :
    Option (Number × List Char) :=
  let (down, digits) :=
    match text with
    | '+' :: rest => (false, rest)
    | '-' :: rest => (true, rest)
    | rest => (false, rest)
  let shown := digits.takeWhile Char.isDigit
  let rest := digits.dropWhile Char.isDigit
  if shown.isEmpty then none
  else
    let power : Nat := shown.foldl (fun value digit => 10 * value + (digit.toNat - 48)) 0
    if power > 0x7FFFFFFF then
      if significand ≠ 0 ∧ !down then none else some (signed negative 0, rest)
    else
      let total : Int := if down then exponent - power else exponent + power
      (scale? significand total).map fun value => (signed negative value, rest)

/-- Ends a number or goes on with its exponent. -/
def finish (negative : Bool) (significand : Nat) (exponent : Int) :
    List Char → Option (Number × List Char)
  | 'e' :: rest => readExponent negative significand exponent rest
  | 'E' :: rest => readExponent negative significand exponent rest
  | rest => (scale? significand exponent).map fun value => (signed negative value, rest)

/-- Adds digits to a significand up to the first one that would exceed the limit: the significand,
the number of digits taken, and the rest. -/
def takeDigits : Nat → Nat → List Char → Nat × Nat × List Char
  | significand, taken, [] => (significand, taken, [])
  | significand, taken, char :: rest =>
      if char.isDigit && 10 * significand + (char.toNat - 48) ≤ significandLimit then
        takeDigits (10 * significand + (char.toNat - 48)) (taken + 1) rest
      else (significand, taken, char :: rest)

/-- Reads the fraction after the point. At least one digit must stand there, whether it is kept or
not. -/
def readFraction (negative : Bool) (significand : Nat) (exponent : Int) (text : List Char) :
    Option (Number × List Char) :=
  match text with
  | digit :: _ =>
      if digit.isDigit then
        let (significand, taken, rest) := takeDigits significand 0 text
        finish negative significand (exponent - taken) (rest.dropWhile Char.isDigit)
      else none
  | [] => none

/-- Ends a number whose whole part has been read. -/
def readTail (negative : Bool) (significand : Nat) (text : List Char) :
    Option (Number × List Char) :=
  match text with
  | '.' :: rest => readFraction negative significand 0 rest
  | 'e' :: rest => readExponent negative significand 0 rest
  | 'E' :: rest => readExponent negative significand 0 rest
  | rest =>
      if !negative then some (.int significand, rest)
      else if significand = 0 ∨ significand > 0x8000000000000000 then
        some (signed true (UInt64.ofNat significand).toFloat, rest)
      else some (.int (-significand), rest)

/-- Reads a literal whose whole part does not fit 64 bits. -/
def readLong (negative : Bool) (significand : Nat) (text : List Char) :
    Option (Number × List Char) :=
  let skipped := (text.takeWhile Char.isDigit).length
  match text.dropWhile Char.isDigit with
  | '.' :: rest => readFraction negative significand skipped rest
  | rest => finish negative significand skipped rest

/-- Reads an unsigned literal from the start of a text, and gives the rest. A leading zero stands
alone. -/
def readUnsigned (negative : Bool) (text : List Char) : Option (Number × List Char) :=
  match text with
  | '0' :: rest =>
      if (rest.head?.map Char.isDigit).getD false then none else readTail negative 0 rest
  | char :: _ =>
      if char.isDigit then
        let (significand, _, rest) := takeDigits 0 0 text
        if (rest.head?.map Char.isDigit).getD false then readLong negative significand rest
        else readTail negative significand rest
      else none
  | [] => none

/-- Reads a number literal from the start of a text, and gives the rest. -/
def read (text : List Char) : Option (Number × List Char) :=
  match text with
  | '-' :: rest => readUnsigned true rest
  | rest => readUnsigned false rest

/-- The number that a whole text spells. -/
def ofText? (text : List Char) : Option Number :=
  match read text with
  | some (number, []) => some number
  | _ => none

/-- The double nearest to a number. -/
def toBinary64 : Number → Binary64
  | .int value =>
      let size := (UInt64.ofNat value.natAbs).toFloat
      .ofFloat (if value < 0 then -size else size)
  | .float value => value

/-- The written form of a number. -/
def text : Number → String
  | .int value => toString value
  | .float value => Layout.json.write value

end Number

end StationGateway.Decimal
