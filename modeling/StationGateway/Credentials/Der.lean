/-!
# Nested elements

Certificates and keys are elements of bytes, each a tag, a length and contents, which may be
elements again. A length has one form, the shortest one, and takes at most two bytes besides the one
that counts them. -/

namespace StationGateway.Credentials

/-- Reads something at the beginning of bytes and leaves the bytes ahead. -/
abbrev ByteReader (α : Type) := StateT (List UInt8) Option α

/-- The number that bytes spell, the highest one first. -/
def bytesValue (bytes : List UInt8) : Nat :=
  bytes.foldl (fun value byte => 256 * value + byte.toNat) 0

/-- The lowest bytes of a number, the highest one first. -/
def numberBytes (width number : Nat) : List UInt8 :=
  (List.range width).reverse.map fun place => UInt8.ofNat (number / Nat.pow 256 place % 256)

/-- The number of binary digits of a number. -/
def bitLength (number : Nat) : Nat :=
  if number = 0 then 0 else number.log2 + 1

namespace Der

/-- The tag of truth values. -/
def booleanTag : UInt8 := 0x01

/-- The tag of whole numbers. -/
def integerTag : UInt8 := 0x02

/-- The tag of sequences of bits. -/
def bitsTag : UInt8 := 0x03

/-- The tag of sequences of bytes. -/
def bytesTag : UInt8 := 0x04

/-- The tag of names of algorithms and the like. -/
def nameTag : UInt8 := 0x06

/-- The tag of sequences of elements. -/
def sequenceTag : UInt8 := 0x30

/-- The tag of the optional part of some number, which holds elements. -/
def optionalTag (number : UInt8) : UInt8 :=
  0xA0 + number

/-- The tag of the optional part of some number, which holds bytes. -/
def optionalBytesTag (number : UInt8) : UInt8 :=
  0x80 + number

/-- The length at the beginning of bytes, and the bytes ahead. -/
def length? : List UInt8 → Option (Nat × List UInt8)
  | [] => none
  | 0x81 :: byte :: rest => if 0x80 ≤ byte then some (byte.toNat, rest) else none
  | 0x82 :: high :: low :: rest => if high = 0 then none else some (bytesValue [high, low], rest)
  | byte :: rest => if byte < 0x80 then some (byte.toNat, rest) else none

/-- Reads the contents of an element with a tag, which has at most some bytes. -/
def element (greatest : Nat) (tag : UInt8) : ByteReader (List UInt8)
  | [] => none
  | first :: rest =>
      match length? rest with
      | none => none
      | some (length, rest) =>
          if first = tag ∧ length ≤ greatest ∧ length ≤ rest.length then
            some (rest.take length, rest.drop length)
          else none

/-- Whether an element with a tag is ahead. -/
def isAhead (tag : UInt8) : ByteReader Bool :=
  fun bytes => some (bytes.head? = some tag, bytes)

/-- Whether nothing is ahead. -/
def isAtEnd : ByteReader Bool :=
  fun bytes => some (bytes.isEmpty, bytes)

/-- What the whole of some bytes is read as. -/
def whole? {α : Type} (reader : ByteReader α) (bytes : List UInt8) : Option α :=
  match reader.run bytes with
  | some (value, []) => some value
  | _ => none

/-- Reads an element with a tag, and the whole of its contents with another reader. -/
def inside {α : Type} (greatest : Nat) (tag : UInt8) (reader : ByteReader α) : ByteReader α := do
  let contents ← element greatest tag
  StateT.lift (whole? reader contents)

/-- Reads a sequence of bits that fill bytes, of which there may be none. -/
def fullBits (greatest : Nat) (tag : UInt8) : ByteReader (List UInt8) := do
  match ← element greatest tag with
  | 0 :: bytes => return bytes
  | _ => failure

/-- Reads a whole number that is not negative, in its shortest form. -/
def natural (greatest : Nat) : ByteReader Nat := do
  match ← element greatest integerTag with
  | [] => failure
  | [byte] => if byte < 0x80 then return byte.toNat else failure
  | high :: next :: rest =>
      if high < 0x80 ∧ (high ≠ 0 ∨ 0x80 ≤ next) then return bytesValue (high :: next :: rest)
      else failure

/-- The bytes of a length. -/
def encodeLength (length : Nat) : List UInt8 :=
  if length < 0x80 then numberBytes 1 length
  else if length < 0x100 then 0x81 :: numberBytes 1 length
  else 0x82 :: numberBytes 2 length

/-- The bytes of an element. -/
def encode (tag : UInt8) (contents : List UInt8) : List UInt8 :=
  tag :: encodeLength contents.length ++ contents

/-- The bytes of a sequence of bits that fill bytes. -/
def encodeBits (bytes : List UInt8) : List UInt8 :=
  encode bitsTag (0 :: bytes)

/-- The bytes of a whole number that is not negative. -/
def encodeNatural (number : Nat) : List UInt8 :=
  encode integerTag (numberBytes (bitLength number / 8 + 1) number)

end Der

end StationGateway.Credentials
