import StationGateway.Text.Base64
import StationGateway.Text.Split

/-!
# PEM files

Sections of bytes in Base64, each between a line that begins and a line that ends it and that say
what it is. Text outside sections does not matter, nor do the contents of sections of an unknown
kind. -/

namespace StationGateway.Credentials

open Text

/-- What a section holds. -/
inductive PemKind where
  /-- A certificate. -/
  | certificate
  /-- A private key in the form of its algorithm, which is RSA. -/
  | rsaKey
  /-- A private key in the form of its algorithm, which works on a curve. -/
  | curveKey
  /-- A private key with the name of its algorithm. -/
  | namedKey
  /-- Something that is read but of no use here. -/
  | other
  deriving DecidableEq, Repr

/-- The kind of a section by its label, none if it is unknown. -/
def PemKind.ofLabel? (label : List Char) : Option PemKind :=
  match String.ofList label with
  | "CERTIFICATE" => some certificate
  | "RSA PRIVATE KEY" => some rsaKey
  | "EC PRIVATE KEY" => some curveKey
  | "PRIVATE KEY" => some namedKey
  | "PUBLIC KEY" => some other
  | "X509 CRL" => some other
  | "CERTIFICATE REQUEST" => some other
  | "ECHCONFIG" => some other
  | _ => none

/-- A section of a known kind. -/
structure PemSection where
  /-- What the section holds. -/
  kind : PemKind
  /-- The bytes. -/
  bytes : List UInt8
  deriving DecidableEq, Repr

/-- The sections of a file up to the first fault. -/
structure PemFile where
  /-- The sections. -/
  sections : List PemSection
  /-- Whether there is no fault. -/
  sound : Bool
  deriving Repr

/-- The hyphens around what a section is. -/
def hyphens : List Char := ['-', '-', '-', '-', '-']

/-- What begins a section. -/
def beginMark : List Char := hyphens ++ "BEGIN ".toList

/-- What ends a section. -/
def endMark : List Char := hyphens ++ "END ".toList

/-- The label at the beginning of a text whose end, read backwards, has blanks between hyphens. Five
hyphens have to be there. -/
def labelBefore? (text : List Char) : Option (List Char) :=
  let ending := text.reverse.takeWhile fun char => char = '-' || char = ' '
  if ending.count '-' = hyphens.length then
    some (text.take (text.length - (ending.reverse.dropWhile (· = ' ')).length))
  else none

/-- The label of the section that a line begins: none if it begins none, and nothing in that if the
line is malformed. -/
def begun? (line : List Char) : Option (Option (List Char)) :=
  (stripStart? beginMark line).map labelBefore?

/-- Whether a line ends a section. -/
def ends (label line : List Char) : Bool :=
  (stripStart? (endMark ++ label ++ hyphens) line).isSome

/-- The sections of lines. A section of some label may be open, and text of it may have been seen,
which is kept backwards, and also by a section that begins inside another one. -/
def readSections (opened : Option (List Char)) (seen : List Char) : List (List Char) → PemFile
  | [] => ⟨[], opened.isNone⟩
  | line :: rest =>
      match begun? line, opened with
      | some (some label), _ => readSections (some label) seen rest
      | some none, _ => ⟨[], false⟩
      | none, none => readSections none seen rest
      | none, some label =>
          if ends label line then
            match PemKind.ofLabel? label with
            | none => readSections none [] rest
            | some kind =>
                match decodeBase64File? seen.reverse with
                | some bytes =>
                    let file := readSections none [] rest
                    { file with sections := ⟨kind, bytes⟩ :: file.sections }
                | none => ⟨[], false⟩
          else readSections opened (line.reverse ++ seen) rest

/-- The lines of a text, which a line feed or a carriage return ends. -/
def pemLines (text : List Char) : List (List Char) :=
  (splitOn '\n' text).flatMap (splitOn '\r')

/-- The sections of the text of a file. -/
def PemFile.ofText (text : String) : PemFile :=
  readSections none [] (pemLines text.toList)

end StationGateway.Credentials
