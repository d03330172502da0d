/-!
# Double-precision numbers

A double is kept as its 64 bits, which makes equality decidable and tells the two zeros apart. A
finite double other than zero is a whole number of units in the last place.
-/

namespace StationGateway.Decimal

/-- A number in the IEEE 754 format binary64, as its bits. -/
structure Binary64 where
  /-- Sign, eleven bits of exponent and fifty-two of fraction. -/
  bits : UInt64
  deriving DecidableEq, Repr, Inhabited

namespace Binary64

/-- The double that the processor computes with. -/
def toFloat (number : Binary64) : Float :=
  Float.ofBits number.bits

/-- The bits of a double that the processor computed. -/
def ofFloat (number : Float) : Binary64 :=
  ⟨number.toBits⟩

/-- The sign bit. -/
def isNegative (number : Binary64) : Bool :=
  number.bits.toNat / Nat.pow 2 63 == 1

/-- The biased exponent. -/
def exponentField (number : Binary64) : Nat :=
  number.bits.toNat / Nat.pow 2 52 % Nat.pow 2 11

/-- The fraction without the hidden bit. -/
def fractionField (number : Binary64) : Nat :=
  number.bits.toNat % Nat.pow 2 52

/-- Neither an infinity nor a NaN. -/
def isFinite (number : Binary64) : Bool :=
  number.exponentField ≠ 2047

/-- The magnitude of a finite double as a mantissa and a power of two. -/
def magnitude (number : Binary64) : Nat × Int :=
  if number.exponentField = 0 then (number.fractionField, -1074)
  else (Nat.pow 2 52 + number.fractionField, (number.exponentField : Int) - 1075)

/-- Whether the next smaller double is only half a unit in the last place away. -/
def isBinadeStart (number : Binary64) : Bool :=
  number.fractionField = 0 && 1 < number.exponentField

end Binary64

end StationGateway.Decimal
