import StationGateway.Text.Hex
import StationGateway.Text.Integer
import StationGateway.Text.Split

/-!
# Addresses

Numeric addresses of hosts, with a port. The written form of a long address leaves out its longest
run of zeros. -/

namespace StationGateway.Settings

open Text

/-- The address of a host. -/
inductive HostAddress where
  /-- Four bytes. -/
  | short (bytes : List Nat)
  /-- Eight groups of sixteen bits. -/
  | long (groups : List Nat)
  deriving DecidableEq, Repr

/-- The address of a host and a port. -/
structure Address where
  /-- The host. -/
  host : HostAddress
  /-- The number of the zone of a long address, zero if there is none. -/
  zone : Nat
  /-- The port. -/
  port : Nat
  deriving DecidableEq, Repr

/-- The number that digits spell, at least one and all digits, up to a greatest number. -/
def decimal? (greatest : Nat) (digits : List Char) : Option Nat :=
  if digits.isEmpty then none
  else
    match readDigits greatest .tooLarge 0 digits with
    | .ok number => some number
    | .error _ => none

/-- A byte of a short address: up to three digits without a leading zero. -/
def byte? (digits : List Char) : Option Nat :=
  if digits.length > 3 || (digits.length > 1 && digits.head? = some '0') then none
  else decimal? 255 digits

/-- The bytes of a short address. -/
def shortBytes? (text : List Char) : Option (List Nat) := do
  let bytes ← (splitOn '.' text).mapM byte?
  if bytes.length = 4 then some bytes else none

/-- A part of a loosely written short address: digits of base sixteen after `0x`, of base eight
after `0`, else of base ten. -/
def loosePart? (text : List Char) : Option Nat := do
  let (base, digits) : Nat × List Char :=
    match text with
    | '0' :: 'x' :: rest => (16, rest)
    | '0' :: 'X' :: rest => (16, rest)
    | '0' :: rest => (8, '0' :: rest)
    | rest => (10, rest)
  let values ← digits.mapM hexValue?
  if values.isEmpty || values.any (base ≤ ·) then none
  else some (values.foldl (fun value digit => base * value + digit) 0)

/-- The bytes of a number, the greatest first, if that many suffice. -/
def bytesOf? (count number : Nat) : Option (List Nat) :=
  if number < Nat.pow 256 count then
    some ((List.range count).reverse.map fun place => number / Nat.pow 256 place % 256)
  else none

/-- The bytes of a loosely written short address: up to four parts, each of which but the last is a
byte, and the last fills what is left. -/
def looseBytes? (text : List Char) : Option (List Nat) := do
  let parts ← (splitOn '.' text).mapM loosePart?
  let head := parts.dropLast
  if head.length > 3 || head.any (255 < ·) then none
  else
    let tail ← bytesOf? (4 - head.length) (parts.getLastD 0)
    some (head ++ tail)

/-- A group of a long address: up to four hexadecimal digits. -/
def group? (text : List Char) : Option Nat := do
  if text.isEmpty || text.length > 4 then none
  else
    let digits ← text.mapM hexValue?
    some (digits.foldl (fun value digit => 16 * value + digit) 0)

/-- Groups separated by colons, the last two of which may be written as a short address. -/
def groups? (shortTail : Bool) : List (List Char) → Option (List Nat)
  | [] => some []
  | [last] =>
      match group? last, shortTail, shortBytes? last with
      | some group, _, _ => some [group]
      | none, true, some [a, b, c, d] => some [256 * a + b, 256 * c + d]
      | _, _, _ => none
  | first :: rest => do
      let group ← group? first
      let groups ← groups? shortTail rest
      some (group :: groups)

/-- Groups of one half of a long address, which may be empty. -/
def halfGroups? (shortTail : Bool) (text : List Char) : Option (List Nat) :=
  if text.isEmpty then some [] else groups? shortTail (splitOn ':' text)

/-- The texts before and after the first double colon. -/
def splitGap : List Char → Option (List Char × List Char)
  | ':' :: ':' :: rest => some ([], rest)
  | char :: rest => (splitGap rest).map fun (before, after) => (char :: before, after)
  | [] => none

/-- The groups of a long address. A double colon stands for at least one group of zeros. -/
def longGroups? (text : List Char) : Option (List Nat) :=
  match splitGap text with
  | none => do
      let groups ← halfGroups? true text
      if groups.length = 8 then some groups else none
  | some (before, after) => do
      let head ← halfGroups? false before
      let tail ← halfGroups? true after
      if head.length + tail.length ≤ 7 then
        some (head ++ List.replicate (8 - head.length - tail.length) 0 ++ tail)
      else none

/-- The address of a host that a text spells exactly. -/
def HostAddress.literal? (text : List Char) : Option HostAddress :=
  ((shortBytes? text).map .short).or ((longGroups? text).map .long)

/-- The greatest port. -/
def maxPort : Nat := 65535

/-- The number of a zone that digits spell. -/
def zoneNumber? (text : List Char) : Option Nat :=
  decimal? 0xFFFFFFFF text

/-- The groups of a long address before its zone, and the number of the zone. -/
def zone? (text : List Char) : Option (List Char × Nat) :=
  match splitOnce '%' text with
  | none => some (text, 0)
  | some (groups, zone) => (zoneNumber? zone).map fun zone => (groups, zone)

/-- The address that a text spells exactly: a short address, or a long one in brackets, and a port.
-/
def Address.literal? (text : List Char) : Option Address := do
  let (host, port) ← splitLast ':' text
  let port ← decimal? maxPort port
  match stripStart? ['['] host with
  | some inside =>
      let inside ← stripEnd? [']'] inside
      let (groups, zone) ← zone? inside
      let groups ← longGroups? groups
      some ⟨.long groups, zone, port⟩
  | none =>
      let bytes ← shortBytes? host
      some ⟨.short bytes, 0, port⟩

/-- Why a text is no address. -/
inductive AddressError where
  /-- There is no port. -/
  | noPort
  /-- The port is no number of sixteen bits. -/
  | badPort
  /-- The host is neither numeric nor the machine itself. -/
  | unknownHost
  deriving DecidableEq, Repr

/-- The wording of a refusal. -/
def AddressError.message : AddressError → String
  | noPort => "invalid socket address"
  | badPort => "invalid port value"
  | unknownHost => "failed to lookup address information: Name or service not known"

/-- The name of the machine itself. -/
def ownName : String := "localhost"

/-- Whether a long address counts on one link or one machine only: by its first ten bits, or as that
of several hosts with such a scope. -/
def isLinkLocal (groups : List Nat) : Bool :=
  let first := groups.headD 0
  first / 64 = 0x3FA || (first / 256 = 0xFF && (first % 16 = 1 || first % 16 = 2))

/-- The name and the number of the interface of the machine to itself. -/
def ownInterface : String × Nat := ("lo", 1)

/-- The number of the zone of a long address. Where one link matters, an interface names its zone.
-/
def namedZone? (groups : List Nat) (zone : List Char) : Option Nat :=
  if isLinkLocal groups && zone = ownInterface.1.toList then some ownInterface.2
  else zoneNumber? zone

/-- The address of a host and its zone: of the machine itself by its name, of any other in numbers,
in which a long address needs no brackets and a short one may be written loosely. -/
def resolveHost? (text : List Char) : Option (HostAddress × Nat) :=
  if text = ownName.toList then some (.short [127, 0, 0, 1], 0)
  else
    match (shortBytes? text).or (looseBytes? text), splitOnce '%' text with
    | some bytes, _ => some (.short bytes, 0)
    | none, none => (longGroups? text).map fun groups => (.long groups, 0)
    | none, some (groups, zone) => do
        let groups ← longGroups? groups
        let zone ← namedZone? groups zone
        some (.long groups, zone)

/-- The address that a text spells: exactly, or up to its last colon as a host and then as a port.
-/
def Address.ofText (text : String) : Except AddressError Address :=
  match Address.literal? text.toList with
  | some address => .ok address
  | none =>
      match splitLast ':' text.toList with
      | none => .error .noPort
      | some (host, port) =>
          match readInteger 0 maxPort port with
          | .error _ => .error .badPort
          | .ok port =>
              match resolveHost? host with
              | some (host, zone) => .ok ⟨host, zone, port.toNat⟩
              | none => .error .unknownHost

/-- The hexadecimal form of a group. -/
def groupText (group : Nat) : String :=
  String.ofList (Nat.toDigits 16 group)

/-- The lengths of the runs of zeros that begin at each group. -/
def zeroRuns : List Nat → List Nat
  | [] => []
  | group :: rest =>
      let runs := zeroRuns rest
      (if group = 0 then runs.headD 0 + 1 else 0) :: runs

/-- The position and length of the first longest run of zeros. -/
def longestRun (groups : List Nat) : Nat × Nat :=
  let runs := zeroRuns groups
  let length := runs.foldl max 0
  (runs.findIdx (· = length), length)

/-- The written form of a long address. -/
def longText (groups : List Nat) : String :=
  match groups with
  | [0, 0, 0, 0, 0, 0xFFFF, high, low] =>
      "::ffff:" ++ join "." ([high / 256, high % 256, low / 256, low % 256].map toString)
  | _ =>
      let (start, length) := longestRun groups
      if length > 1 then
        join ":" ((groups.take start).map groupText) ++ "::" ++
          join ":" ((groups.drop (start + length)).map groupText)
      else join ":" (groups.map groupText)

/-- The written form of the address of a host. -/
def HostAddress.text : HostAddress → String
  | short bytes => join "." (bytes.map toString)
  | long groups => longText groups

/-- The written form of an address. -/
def Address.text (address : Address) : String :=
  match address.host with
  | .short _ => address.host.text ++ ":" ++ toString address.port
  | .long _ =>
      "[" ++ address.host.text ++
        (if address.zone = 0 then "" else "%" ++ toString address.zone) ++ "]:" ++
        toString address.port

end StationGateway.Settings
