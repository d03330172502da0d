import StationGateway.Credentials.Curve
import StationGateway.Credentials.Edwards
import StationGateway.Credentials.Pem

/-!
# Private keys

Keys of RSA, of two curves, and of the twisted curve. A key holds its public key too, and its
numbers have to fit together. The public key of a private key is the one that its certificate has to
hold. -/

namespace StationGateway.Credentials.PrivateKey

open Der

/-- The greatest length of an element of a key. -/
def maxLength : Nat := 0xFFFF

/-- Reads an element of a key. -/
def part (tag : UInt8) : ByteReader (List UInt8) :=
  element maxLength tag

/-- The algorithm RSA. -/
def rsaAlgorithm : List UInt8 :=
  encode nameTag [0x2A, 0x86, 0x48, 0x86, 0xF7, 0x0D, 0x01, 0x01, 0x01] ++ [0x05, 0x00]

/-- The algorithm of a curve. -/
def curveAlgorithm (curve : Curve) : List UInt8 :=
  encode nameTag [0x2A, 0x86, 0x48, 0xCE, 0x3D, 0x02, 0x01] ++ encode nameTag curve.name

/-- The algorithm of the twisted curve. -/
def edwardsAlgorithm : List UInt8 :=
  encode nameTag [0x2B, 0x65, 0x70]

/-- A public key as certificates hold it: its algorithm and its bits. -/
def publicKey (algorithm bits : List UInt8) : List UInt8 :=
  encode sequenceTag algorithm ++ encodeBits bits

/-! ## Keys of RSA -/

/-- A key of RSA. -/
structure RsaKey where
  /-- The modulus. -/
  modulus : Nat
  /-- The exponent of the public key. -/
  exponent : Nat
  /-- The exponent of the private key. -/
  secret : Nat
  /-- The first prime. -/
  first : Nat
  /-- The second prime. -/
  second : Nat
  /-- The exponent for the first prime. -/
  firstExponent : Nat
  /-- The exponent for the second prime. -/
  secondExponent : Nat
  /-- The inverse of the second prime modulo the first one. -/
  inverse : Nat
  deriving DecidableEq, Repr

/-- Half of the binary digits of a number, rounded up. -/
def halfLength (number : Nat) : Nat :=
  (bitLength number + 1) / 2

/-- Whether a number can be a modulus, of 2048 to 4096 binary digits in whole bytes. -/
def isModulus (number : Nat) : Bool :=
  number % 2 = 1 && 2048 ≤ (bitLength number + 7) / 8 * 8 && bitLength number ≤ 4096

/-- Whether a number can be the exponent of a public key. -/
def isPublicExponent (number : Nat) : Bool :=
  number % 2 = 1 && 65537 ≤ number && number < Nat.pow 2 33

/-- Whether a number can be the exponent of the private key for a modulus. -/
def isSecretFor (modulus number : Nat) : Bool :=
  number % 2 = 1 && halfLength modulus < bitLength number && number < modulus

/-- Whether a number can be a prime of a key with a modulus. -/
def isPrimeFor (modulus number : Nat) : Bool :=
  number % 2 = 1 && bitLength number = halfLength modulus && halfLength modulus % 512 = 0

/-- Whether a number can be the exponent for a prime. -/
def isExponentFor (prime number : Nat) : Bool :=
  number % 2 = 1 && number < prime

/-- Whether the numbers of a key are in range and fit together, as far as that can be seen without
factoring. -/
def RsaKey.isSound (key : RsaKey) : Bool :=
  isModulus key.modulus && isPublicExponent key.exponent && isSecretFor key.modulus key.secret &&
    isPrimeFor key.modulus key.first && isPrimeFor key.modulus key.second &&
    key.first * key.second % key.modulus = 0 &&
    isExponentFor key.first key.firstExponent && isExponentFor key.second key.secondExponent &&
    key.inverse < key.first && key.inverse * key.second % key.first = 1

/-- Reads a key of RSA: a version and its numbers. -/
def rsaKey : ByteReader RsaKey :=
  inside maxLength sequenceTag do
    let version ← natural maxLength
    let modulus ← natural maxLength
    let exponent ← natural maxLength
    let secret ← natural maxLength
    let first ← natural maxLength
    let second ← natural maxLength
    let firstExponent ← natural maxLength
    let secondExponent ← natural maxLength
    let inverse ← natural maxLength
    if version = 0 then
      return { modulus, exponent, secret, first, second, firstExponent, secondExponent, inverse }
    else failure

/-- The public key for a key of RSA. -/
def rsaPublic? (bytes : List UInt8) : Option (List UInt8) := do
  let key ← whole? rsaKey bytes
  if key.isSound then
    some (publicKey rsaAlgorithm
      (encode sequenceTag (encodeNatural key.modulus ++ encodeNatural key.exponent)))
  else none

/-! ## Keys of curves -/

/-- Reads a key of a curve: a version, a factor, the name of the curve if it is there, and the
public key. -/
def curveKey (curve : Curve) : ByteReader (List UInt8 × List UInt8) :=
  inside maxLength sequenceTag do
    let version ← natural maxLength
    let factor ← part bytesTag
    if ← isAhead (optionalTag 0) then
      let name ← part (optionalTag 0)
      if name ≠ encode nameTag curve.name then failure
    let point ← inside maxLength (optionalTag 1) (fullBits maxLength bitsTag)
    if version = 1 then return (factor, point) else failure

/-- The public key for a key of a curve, which has to hold it. -/
def curvePublic? (curve : Curve) (bytes : List UInt8) : Option (List UInt8) := do
  let (factor, given) ← whole? (curveKey curve) bytes
  let point ← curve.publicBytes? factor
  if given = point then some (publicKey (curveAlgorithm curve) point) else none

/-! ## Keys with the name of their algorithm -/

/-- Reads a key of an algorithm with the name of it. In the first version there is no public key, in
the second one there has to be. -/
def namedKey (algorithm : List UInt8) : ByteReader (List UInt8 × Option (List UInt8)) :=
  inside maxLength sequenceTag do
    let version ← natural maxLength
    let name ← part sequenceTag
    let key ← part bytesTag
    if ← isAhead (optionalTag 0) then
      let _ ← part (optionalTag 0)
    if name ≠ algorithm then failure
    else if version = 0 then return (key, none)
    else if version = 1 then
      let bits ←
        if ← isAhead (optionalTag 1) then
          inside maxLength (optionalTag 1) (fullBits maxLength bitsTag)
        else fullBits maxLength (optionalBytesTag 1)
      return (key, some bits)
    else failure

/-- A key of an algorithm without its name. It has no public key. -/
def unnamed? (algorithm bytes : List UInt8) : Option (List UInt8) := do
  match ← whole? (namedKey algorithm) bytes with
  | (key, none) => some key
  | _ => none

/-- The public key for a key of the twisted curve, which may hold it. -/
def edwardsPublic? (bytes : List UInt8) : Option (List UInt8) := do
  let (key, given) ← whole? (namedKey edwardsAlgorithm) bytes
  let seed ← whole? (part bytesTag) key
  let point ← Edwards.publicBytes? seed
  if given.all (· = point) then some (publicKey edwardsAlgorithm point) else none

/-- The public key for a key with the name of its algorithm. -/
def namedPublic? (bytes : List UInt8) : Option (List UInt8) :=
  ((unnamed? rsaAlgorithm bytes).bind rsaPublic?)
    |>.or ((unnamed? (curveAlgorithm .small) bytes).bind (curvePublic? .small))
    |>.or ((unnamed? (curveAlgorithm .large) bytes).bind (curvePublic? .large))
    |>.or (edwardsPublic? bytes)

/-- The public key for a key of some kind. -/
def public? (kind : PemKind) (bytes : List UInt8) : Option (List UInt8) :=
  match kind with
  | .rsaKey => rsaPublic? bytes
  | .curveKey => (curvePublic? .small bytes).or (curvePublic? .large bytes)
  | .namedKey => namedPublic? bytes
  | _ => none

end StationGateway.Credentials.PrivateKey
