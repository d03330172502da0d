/-!
# UTF-8

Texts as bytes and bytes as texts. A lead byte fixes the number of continuation bytes and the range
of the first of them, so that overlong forms, surrogates and codes beyond `0x10FFFF` are no
characters. -/

namespace StationGateway.Text

/-- The character that stands for an octet in a text that is read octet by octet. -/
def octetChar (byte : UInt8) : Char :=
  Char.ofNat byte.toNat

/-- The octet that a character stands for. -/
def octet (char : Char) : UInt8 :=
  UInt8.ofNat char.toNat

/-- The bytes of a text. -/
def utf8Bytes (text : List Char) : List UInt8 :=
  text.flatMap String.utf8EncodeChar

/-- What a lead byte says about the bytes that follow. -/
structure Utf8Lead where
  /-- The number of continuation bytes. -/
  continuations : Nat
  /-- The least value of the first continuation byte. -/
  least : UInt8
  /-- The greatest value of the first continuation byte. -/
  greatest : UInt8
  /-- The bits of the character that the lead byte holds. -/
  bits : Nat
  deriving Repr

/-- What a byte says as a lead byte, none if it is none. -/
def utf8Lead? (byte : UInt8) : Option Utf8Lead :=
  let code := byte.toNat
  if code < 0x80 then some ⟨0, 0, 0, code⟩
  else if code < 0xC2 then none
  else if code < 0xE0 then some ⟨1, 0x80, 0xBF, code % 0x20⟩
  else if code = 0xE0 then some ⟨2, 0xA0, 0xBF, 0⟩
  else if code = 0xED then some ⟨2, 0x80, 0x9F, 0xD⟩
  else if code < 0xF0 then some ⟨2, 0x80, 0xBF, code % 0x10⟩
  else if code = 0xF0 then some ⟨3, 0x90, 0xBF, 0⟩
  else if code < 0xF4 then some ⟨3, 0x80, 0xBF, code % 8⟩
  else if code = 0xF4 then some ⟨3, 0x80, 0x8F, 4⟩
  else none

/-- Reads continuation bytes, the first of them within bounds: the character, none if it is broken
off, and the bytes ahead. -/
def continueChar : Nat → UInt8 → UInt8 → Nat → List UInt8 → Option Char × List UInt8
  | 0, _, _, bits, rest => (some (Char.ofNat bits), rest)
  | _ + 1, _, _, _, [] => (none, [])
  | count + 1, least, greatest, bits, byte :: rest =>
      if least ≤ byte ∧ byte ≤ greatest then
        continueChar count 0x80 0xBF (bits * 0x40 + byte.toNat % 0x40) rest
      else (none, byte :: rest)

/-- The characters of bytes, none for each malformed stretch, which reaches up to the first byte
that does not continue it. Every character takes a byte, so their number is enough as a budget. -/
def utf8Chars : Nat → List UInt8 → List (Option Char)
  | 0, _ => []
  | _ + 1, [] => []
  | budget + 1, byte :: rest =>
      match utf8Lead? byte with
      | none => none :: utf8Chars budget rest
      | some lead =>
          let (char, rest) :=
            continueChar lead.continuations lead.least lead.greatest lead.bits rest
          char :: utf8Chars budget rest

/-- What stands for a malformed stretch. -/
def replacementChar : Char := Char.ofNat 0xFFFD

/-- The text of bytes, with a replacement character for each malformed stretch. -/
def decodeLossy (bytes : List UInt8) : List Char :=
  (utf8Chars bytes.length bytes).map fun char => char.getD replacementChar

/-- The text of bytes, if they are well-formed. -/
def decodeUtf8? (bytes : List UInt8) : Option (List Char) :=
  (utf8Chars bytes.length bytes).mapM id

end StationGateway.Text
