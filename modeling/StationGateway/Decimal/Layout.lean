import StationGateway.Decimal.Shortest

/-!
# Written forms of doubles

A layout says which magnitudes are written with a positional point and how the others carry their
exponent. The digits are always the shortest ones.
-/

namespace StationGateway.Decimal

/-- How the shortest digits of a double are laid out. A number is written positionally if its
decimal point stands after `pointLow` up to `pointHigh` digits. -/
structure Layout where
  /-- The least position of the point that is written positionally, `none` for no bound. -/
  pointLow : Option Int
  /-- The greatest such position, `none` for no bound. -/
  pointHigh : Option Int
  /-- Whether a whole number ends in `.0`. -/
  keepsPoint : Bool

/-- The layout of numbers in JSON texts: positional from `0.00001` up to sixteen whole digits. -/
def Layout.json : Layout :=
  { pointLow := some (-4), pointHigh := some 16, keepsPoint := true }

/-- The layout of numbers as statement texts: always positional, whole numbers without a point. -/
def Layout.plain : Layout :=
  { pointLow := none, pointHigh := none, keepsPoint := false }

/-- A number of zeros. -/
def zeros (count : Nat) : String :=
  String.ofList (List.replicate count '0')

/-- The digits without trailing zeros, and the exponent that makes up for them. -/
def Scaled.normalize (number : Scaled) : Scaled :=
  go number.digits number.exponent (digitCount number.digits)
where
  /-- Drops at most `budget` zeros. -/
  go (digits : Nat) (exponent : Int) : Nat → Scaled
    | 0 => ⟨digits, exponent⟩
    | budget + 1 =>
        if digits ≠ 0 ∧ digits % 10 = 0 then go (digits / 10) (exponent + 1) budget
        else ⟨digits, exponent⟩

/-- The written form of a positive decimal whose last digit is not zero. -/
def Layout.writeScaled (layout : Layout) (number : Scaled) : String :=
  let digits := Nat.toDigits 10 number.digits
  let count := digits.length
  let point : Int := count + number.exponent
  let positional :=
    (match layout.pointLow with | some low => low ≤ point | none => true) &&
      (match layout.pointHigh with | some high => point ≤ high | none => true)
  if positional then
    if point ≤ 0 then "0." ++ zeros (-point).toNat ++ String.ofList digits
    else if (count : Int) ≤ point then
      String.ofList digits ++ zeros (point - count).toNat ++ (if layout.keepsPoint then ".0" else "")
    else
      String.ofList (digits.take point.toNat) ++ "." ++ String.ofList (digits.drop point.toNat)
  else
    let exponent := point - 1
    String.ofList (digits.take 1) ++
      (if count = 1 then "" else "." ++ String.ofList (digits.drop 1)) ++
      "e" ++ (if exponent < 0 then "-" else "+") ++ toString exponent.natAbs

/-- The written form of a double. Infinities and NaN have words, which JSON texts never contain. -/
def Layout.write (layout : Layout) (number : Binary64) : String :=
  let sign := if number.isNegative then "-" else ""
  if !number.isFinite then
    if number.fractionField = 0 then sign ++ "inf" else "NaN"
  else if number.magnitude.1 = 0 then sign ++ (if layout.keepsPoint then "0.0" else "0")
  else sign ++ layout.writeScaled number.shortest.normalize

end StationGateway.Decimal
