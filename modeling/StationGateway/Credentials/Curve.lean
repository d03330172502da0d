import StationGateway.Credentials.Der
import StationGateway.Credentials.Modular

/-!
# Curves of keys

The curves `y² = x³ - 3x + b` modulo a prime, whose points form a group. A private key is a factor,
and its public key is that multiple of a fixed point. -/

namespace StationGateway.Credentials

/-- A point of a curve, none for the zero of the group. -/
abbrev CurvePoint := Option (Nat × Nat)

/-- A curve with a point that generates its group. -/
structure Curve where
  /-- The name of the curve. -/
  name : List UInt8
  /-- The number of bytes of a coordinate and of a factor. -/
  width : Nat
  /-- The prime. -/
  prime : Nat
  /-- The number of points. -/
  order : Nat
  /-- The generating point. -/
  generator : Nat × Nat

namespace Curve

/-- The curve of 256 bits. -/
def small : Curve :=
  { name := [0x2A, 0x86, 0x48, 0xCE, 0x3D, 0x03, 0x01, 0x07]
    width := 32
    prime := Nat.pow 2 256 - Nat.pow 2 224 + Nat.pow 2 192 + Nat.pow 2 96 - 1
    order := 0xFFFFFFFF00000000FFFFFFFFFFFFFFFFBCE6FAADA7179E84F3B9CAC2FC632551
    generator :=
      (0x6B17D1F2E12C4247F8BCE6E563A440F277037D812DEB33A0F4A13945D898C296,
        0x4FE342E2FE1A7F9B8EE7EB4A7C0F9E162BCE33576B315ECECBB6406837BF51F5) }

/-- The curve of 384 bits. -/
def large : Curve :=
  { name := [0x2B, 0x81, 0x04, 0x00, 0x22]
    width := 48
    prime := Nat.pow 2 384 - Nat.pow 2 128 - Nat.pow 2 96 + Nat.pow 2 32 - 1
    order := Nat.pow 2 384 - 0x389CB27E0BC8D220A7E5F24DB74F58851313E695333AD68D
    generator :=
      (0xAA87CA22BE8B05378EB1C71EF320AD746E1D3B628BA79B98 * Nat.pow 2 192 +
          0x59F741E082542A385502F25DBF55296C3A545E3872760AB7,
        0x3617DE4A96262C6F5D9E98BF9292DC29F8F41DBD289A147C * Nat.pow 2 192 +
          0xE9DA3113B5F0B8C00A60B1CE1D7E819D7A431D7C90EA0E5F) }

/-- The third point on the line of a slope through a point and one with another abscissa, reflected.
-/
def third (curve : Curve) (slope : Nat) (point : Nat × Nat) (abscissa : Nat) : CurvePoint :=
  let sub := Modular.sub curve.prime
  let x := sub (sub (slope * slope % curve.prime) point.1) abscissa
  some (x, sub (slope * sub point.1 x % curve.prime) point.2)

/-- The sum of two points. -/
def add (curve : Curve) : CurvePoint → CurvePoint → CurvePoint
  | none, right => right
  | left, none => left
  | some left, some right =>
      let sub := Modular.sub curve.prime
      let divide := Modular.divide curve.prime
      if left.1 ≠ right.1 then
        curve.third (divide (sub right.2 left.2) (sub right.1 left.1)) left right.1
      else if left.2 = right.2 ∧ left.2 ≠ 0 then
        curve.third (divide (sub (3 * left.1 * left.1 % curve.prime) 3) (2 * left.2)) left right.1
      else none

/-- The point of the public key for a private key. -/
def publicPoint (curve : Curve) (factor : Nat) : CurvePoint :=
  Modular.multiple curve.add none (8 * curve.width) factor (some curve.generator)

/-- The bytes of the public key for the bytes of a private key, which is a factor between zero and
the number of points. -/
def publicBytes? (curve : Curve) (factor : List UInt8) : Option (List UInt8) := do
  if factor.length = curve.width ∧ bytesValue factor < curve.order then
    let (x, y) ← curve.publicPoint (bytesValue factor)
    some (4 :: numberBytes curve.width x ++ numberBytes curve.width y)
  else none

end Curve

end StationGateway.Credentials
