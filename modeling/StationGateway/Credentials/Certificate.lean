import StationGateway.Credentials.Der

/-!
# Certificates

A certificate is what is signed, an algorithm and a signature. What is signed says by which
algorithm again, and holds a public key. A certificate of the third version may have extensions, and
all but a few of them must not be critical. Signatures and names are not looked into. -/

namespace StationGateway.Credentials

/-- A certificate of the third version. -/
structure Certificate where
  /-- The algorithm and the bits of the public key. -/
  publicKey : List UInt8
  deriving DecidableEq, Repr

/-- What is signed, and by which algorithm. -/
structure SignedPart where
  /-- What is signed. -/
  body : List UInt8
  /-- The algorithm. -/
  algorithm : List UInt8
  deriving DecidableEq, Repr

namespace Certificate

open Der

/-- The greatest length of an element of a certificate. -/
def maxLength : Nat := 0xFFFE

/-- Reads an element of a certificate. -/
def part (tag : UInt8) : ByteReader (List UInt8) :=
  element maxLength tag

/-- Reads a certificate as what is signed, an algorithm and a signature. -/
def signedPart : ByteReader SignedPart :=
  inside maxLength sequenceTag do
    let body ← part sequenceTag
    let algorithm ← part sequenceTag
    let _ ← fullBits maxLength bitsTag
    return ⟨body, algorithm⟩

/-- Reads the version, which has to be the third one. -/
def version : ByteReader Unit :=
  inside maxLength (optionalTag 0) do
    if (← natural maxLength) = 2 then return () else failure

/-- An extension. -/
structure Extension where
  /-- What it is called. -/
  name : List UInt8
  /-- Whether it must not be passed over. -/
  critical : Bool
  /-- What it says. -/
  value : List UInt8
  deriving DecidableEq, Repr

/-- Reads a truth value, or none, which is false. -/
def flag : ByteReader Bool := do
  if ← isAhead booleanTag then
    match ← part booleanTag with
    | [0xFF] => return true
    | [0x00] => return false
    | _ => failure
  else return false

/-- Reads an extension. -/
def extension : ByteReader Extension :=
  inside maxLength sequenceTag do
    let name ← part nameTag
    let critical ← flag
    let value ← part bytesTag
    return ⟨name, critical, value⟩

/-- The extension that says what a key may be used for, whose value is a sequence of bits. -/
def keyUsage : List UInt8 := [0x55, 0x1D, 15]

/-- The known extensions whose value is a sequence: further names of the subject, basic constraints,
constraints on names, points of distribution, and further uses of the key. -/
def sequenceExtensions : List (List UInt8) :=
  [17, 19, 30, 31, 37].map fun number => [0x55, 0x1D, number]

/-- The names of the known extensions seen so far with that of a further extension. A known one must
not be repeated, and an unknown one must not be critical. -/
def noteExtension (seen : List (List UInt8)) (next : Extension) : Option (List (List UInt8)) :=
  if next.name = keyUsage ∨ next.name ∈ sequenceExtensions then
    let sound := next.name = keyUsage ∨ (whole? (part sequenceTag) next.value).isSome
    if next.name ∉ seen ∧ sound then some (next.name :: seen) else none
  else if next.critical then none
  else some seen

/-- Reads extensions up to the end, of which there may be none. Each takes a byte. -/
def extensions : Nat → List (List UInt8) → ByteReader Unit
  | 0, _ => failure
  | budget + 1, seen => do
      if ← isAtEnd then return ()
      else
        let next ← extension
        let seen ← StateT.lift (noteExtension seen next)
        extensions budget seen

/-- Reads the optional extensions at the end of what is signed. -/
def optionalExtensions : ByteReader Unit := do
  if ← isAtEnd then return ()
  else
    inside maxLength (optionalTag 3) do
      let contents ← part sequenceTag
      StateT.lift (whole? (extensions (contents.length + 1) []) contents)

/-- Reads a number, an algorithm, an issuer, a validity, a subject and a public key: the algorithm
and the key. -/
def core : ByteReader (List UInt8 × List UInt8) := do
  let _ ← part integerTag
  let algorithm ← part sequenceTag
  let _ ← part sequenceTag
  let _ ← part sequenceTag
  let _ ← part sequenceTag
  let publicKey ← part sequenceTag
  return (algorithm, publicKey)

/-- Reads what is signed by an algorithm in a certificate of the third version. -/
def body (algorithm : List UInt8) : ByteReader Certificate := do
  version
  let (signedBy, publicKey) ← core
  if signedBy = algorithm then
    optionalExtensions
    return ⟨publicKey⟩
  else failure

/-- The certificate of the third version that bytes are. -/
def ofBytes? (bytes : List UInt8) : Option Certificate := do
  let signed ← whole? signedPart bytes
  whole? (body signed.algorithm) signed.body

/-- Whether bytes are a certificate that others can be trusted by: one of the third version, or one
of the first, which has neither a version nor extensions. -/
def isRoot (bytes : List UInt8) : Bool :=
  match whole? signedPart bytes with
  | none => false
  | some signed =>
      (whole? (body signed.algorithm) signed.body).isSome || (whole? core signed.body).isSome

end Certificate

end StationGateway.Credentials
