import StationGateway.Credentials.Digest
import StationGateway.Credentials.Modular

/-!
# Keys on the twisted curve

The curve `y² - x² = 1 + d x² y²` modulo `2²⁵⁵ - 19`, whose points form a group. A private key is a
seed, whose digest gives a factor, and its public key is that multiple of a fixed point.
-/

namespace StationGateway.Credentials.Edwards

/-- The prime. -/
def prime : Nat :=
  Nat.pow 2 255 - 19

/-- The coefficient of the curve. -/
def coefficient : Nat :=
  Modular.divide prime (prime - 121665) 121666

/-- The generating point. -/
def generator : Nat × Nat :=
  (0x216936D3CD6E53FEC0A4E231FDD6DC5C692CC7609525A7B2C9562D608F25D51A, Modular.divide prime 4 5)

/-- The sum of two points. -/
def add (left right : Nat × Nat) : Nat × Nat :=
  let (x, y) := left
  let (u, v) := right
  let product := coefficient * (x * u % prime) * (y * v % prime) % prime
  (Modular.divide prime (x * v + y * u) (1 + product),
    Modular.divide prime (y * v + x * u) (Modular.sub prime 1 product))

/-- The number of bytes of a seed, and of a public key. -/
def width : Nat := 32

/-- The factor for a seed: from half of its digest, a multiple of eight with a fixed highest digit.
-/
def factor (seed : List UInt8) : Nat :=
  let number := bytesValue ((Digest.ofMessage seed).take width).reverse
  Nat.pow 2 254 + number % Nat.pow 2 254 / 8 * 8

/-- The bytes of the public key for a seed: the ordinate, and the last digit of the abscissa. -/
def publicBytes? (seed : List UInt8) : Option (List UInt8) :=
  if seed.length = width then
    let (x, y) := Modular.multiple add (0, 1) 255 (factor seed) generator
    some (numberBytes width (y + x % 2 * Nat.pow 2 255)).reverse
  else none

end StationGateway.Credentials.Edwards
