import StationGateway.Decimal.Binary64

/-!
# Shortest decimals of doubles

Of the decimals that read back to a given double, the ones with the fewest digits, and of those the
nearest one. A decimal reads back to the double if it lies between the midpoints to the
neighbouring doubles, ends included when the mantissa is even.
-/

namespace StationGateway.Decimal

/-- A positive decimal `digits * 10 ^ exponent`. -/
structure Scaled where
  /-- The digits as a whole number. -/
  digits : Nat
  /-- The power of ten. -/
  exponent : Int
  deriving DecidableEq, Repr

/-- A positive real number and its rounding interval, in quarters of a unit in the last place. -/
structure Window where
  /-- The number times `denominator`. -/
  centre : Nat
  /-- The lower end of the interval times `denominator`. -/
  low : Nat
  /-- The upper end of the interval times `denominator`. -/
  high : Nat
  /-- The common denominator. -/
  denominator : Nat
  /-- Whether the ends belong to the interval. -/
  closed : Bool

/-- The numbers that round to a finite double other than zero, without its sign. -/
def Binary64.window (number : Binary64) : Window :=
  let (mantissa, exponent) := number.magnitude
  let scale := Nat.pow 2 (exponent - 2).toNat
  { centre := 4 * mantissa * scale
    low := (4 * mantissa - if number.isBinadeStart then 1 else 2) * scale
    high := (4 * mantissa + 2) * scale
    denominator := Nat.pow 2 (2 - exponent).toNat
    closed := mantissa % 2 == 0 }

/-- The number of decimal digits of a positive whole number. -/
def digitCount (number : Nat) : Nat :=
  (Nat.toDigits 10 number).length

/-- The power `p` with `10 ^ (p - 1) ≤ centre / denominator < 10 ^ p`. -/
def Window.decade (window : Window) : Int :=
  if window.denominator ≤ window.centre then
    digitCount (window.centre / window.denominator)
  else
    1 - (digitCount ((window.denominator - 1) / window.centre) : Int)

/-- Whether `digits * 10 ^ exponent` rounds to the window's number. -/
def Window.contains (window : Window) (digits : Nat) (exponent : Int) : Bool :=
  let value := digits * Nat.pow 10 exponent.toNat * window.denominator
  let unit := Nat.pow 10 (-exponent).toNat
  if window.closed then window.low * unit ≤ value && value ≤ window.high * unit
  else window.low * unit < value && value < window.high * unit

/-- The decimal on the grid `10 ^ exponent` that is nearest to the window's number among the two
around it, if one of them rounds to the number. A tie goes to the even digit. -/
def Window.onGrid? (window : Window) (exponent : Int) : Option Scaled :=
  let value := window.centre * Nat.pow 10 (-exponent).toNat
  let step := window.denominator * Nat.pow 10 exponent.toNat
  let below := value / step
  let remainder := value % step
  let lowerFits := window.contains below exponent && below != 0
  let upperFits := window.contains (below + 1) exponent
  let lowerNearer := 2 * remainder < step || (2 * remainder == step && below % 2 == 0)
  if lowerFits && (lowerNearer || !upperFits) then some ⟨below, exponent⟩
  else if upperFits then some ⟨below + 1, exponent⟩
  else none

/-- The first hit on the grids with `count`, `count + 1`, ... digits, of which seventeen suffice. -/
def Window.search (window : Window) (decade : Int) : Nat → Nat → Scaled
  | 0, _ => ⟨window.centre / window.denominator, 0⟩
  | tries + 1, count =>
      match window.onGrid? (decade - count) with
      | some found => found
      | none => window.search decade tries (count + 1)

/-- The shortest decimal that reads back to a finite double other than zero, without its sign. -/
def Binary64.shortest (number : Binary64) : Scaled :=
  let window := number.window
  window.search window.decade 17 1

end StationGateway.Decimal
