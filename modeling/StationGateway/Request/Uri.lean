import StationGateway.Text.Split

/-!
# Request targets

A request target is a path with a query, or a whole URL. A path keeps its percent signs, and what
follows a number sign is dropped.
-/

namespace StationGateway

open Text

/-- Why a text is no request target. -/
inductive UriError where
  /-- There is no text, or none behind the name of a protocol. -/
  | empty
  /-- The text is too long. -/
  | tooLong
  /-- A character is not allowed where it stands. -/
  | invalidChar
  /-- The name of the host is malformed. -/
  | invalidAuthority
  /-- The text is neither a path nor a URL. -/
  | invalidFormat
  /-- The name of the protocol is too long. -/
  | schemeTooLong
  deriving DecidableEq, Repr

/-- The wording of a refusal. -/
def UriError.message : UriError → String
  | empty => "empty string"
  | tooLong => "uri too long"
  | invalidChar => "invalid uri character"
  | invalidAuthority => "invalid authority"
  | invalidFormat => "invalid format"
  | schemeTooLong => "scheme too long"

/-- A request target. -/
structure Uri where
  /-- The path, with its percent signs; empty if only a host is named. -/
  path : String
  /-- The query string, if there is one. -/
  query : Option String
  deriving DecidableEq, Repr

namespace Uri

/-- The greatest number of bytes of a request target. -/
def maxBytes : Nat := 65534

/-- The greatest number of characters of the name of a protocol. -/
def maxSchemeLength : Nat := 64

/-- Whether a character may stand in the name of a protocol. -/
def isSchemeChar (char : Char) : Bool :=
  char.isAlphanum || ['+', '-', '.', '~'].contains char

/-- Whether a character may stand in the name of a host. -/
def isAuthorityChar (char : Char) : Bool :=
  char.isAlphanum ||
    ['!', '$', '&', '\'', '(', ')', '*', '+', ',', '-', '.', ';', '=', '_', '~'].contains char

/-- Whether a character may stand in a path. -/
def isPathChar (char : Char) : Bool :=
  let code := char.toNat
  code = 0x21 || code = 0x22 || (0x24 ≤ code && code ≤ 0x3B) || code = 0x3D ||
    (0x40 ≤ code && code ≤ 0x5F) || (0x61 ≤ code)

/-- Whether a character may stand in a query string. -/
def isQueryChar (char : Char) : Bool :=
  let code := char.toNat
  code = 0x21 || (0x24 ≤ code && code ≤ 0x3B) || code = 0x3D || 0x3F ≤ code

/-- Reads a path and its query. -/
def ofPathText (text : List Char) : Except UriError Uri :=
  let path := text.takeWhile fun char => char ≠ '?' && char ≠ '#'
  if !path.all isPathChar then .error .invalidChar
  else
    match text.drop path.length with
    | '?' :: rest =>
        let query := rest.takeWhile (· ≠ '#')
        if query.all isQueryChar then .ok ⟨String.ofList path, some (String.ofList query)⟩
        else .error .invalidChar
    | _ => .ok ⟨String.ofList path, none⟩

/-- What has been seen of the name of a host. -/
structure HostScan where
  /-- The colons since the last sign that ends a user's name or an address in brackets. -/
  colons : Nat
  /-- Whether a bracket has been opened. -/
  opened : Bool
  /-- Whether a bracket has been closed. -/
  closed : Bool
  /-- Whether a percent sign has been seen outside a user's name and brackets. -/
  percent : Bool
  /-- Whether the last character ended a user's name. -/
  atSign : Bool

/-- The greatest number of colons in an address. -/
def maxColons : Nat := 8

/-- What has been seen after one more character. -/
def HostScan.step (scan : HostScan) (char : Char) : Except UriError HostScan :=
  let scan := { scan with atSign := false }
  if char = ':' then
    if scan.colons ≥ maxColons then .error .invalidAuthority
    else .ok { scan with colons := scan.colons + 1 }
  else if char = '[' then
    if scan.percent || scan.opened then .error .invalidAuthority
    else .ok { scan with opened := true }
  else if char = ']' then
    if !scan.opened || scan.closed then .error .invalidAuthority
    else .ok { scan with closed := true, colons := 0, percent := false }
  else if char = '@' then .ok { scan with atSign := true, colons := 0, percent := false }
  else if char = '%' then .ok { scan with percent := true }
  else if isAuthorityChar char then .ok scan
  else .error .invalidChar

/-- Whether a name of a host is complete. -/
def HostScan.isSound (scan : HostScan) : Bool :=
  scan.opened == scan.closed && scan.colons ≤ 1 && !scan.atSign && !scan.percent

/-- Whether a character ends the name of a host. -/
def endsHost (char : Char) : Bool :=
  char = '/' || char = '?' || char = '#'

/-- The text after the name of a host. -/
def afterHost (text : List Char) : Except UriError (List Char) := do
  let host := text.takeWhile fun char => !endsHost char
  let scan ← host.foldlM HostScan.step ⟨0, false, false, false, false⟩
  if scan.isSound then .ok (text.drop host.length) else .error .invalidAuthority

/-- Whether a text begins with the name of a known protocol, of which capitals do not matter: the
text after it. -/
def afterKnownScheme? (text : List Char) : Option (List Char) :=
  ["http://", "https://"].findSome? fun scheme =>
    if (text.take scheme.length).map Char.toLower = scheme.toList then
      some (text.drop scheme.length)
    else none

/-- The text after the name of any protocol, none if there is no such name. -/
def afterScheme? (text : List Char) : Except UriError (Option (List Char)) :=
  match afterKnownScheme? text with
  | some rest => .ok (some rest)
  | none =>
      let name := text.takeWhile isSchemeChar
      match text.drop name.length with
      | ':' :: '/' :: '/' :: rest =>
          if name.isEmpty && rest.isEmpty then .ok none
          else if name.length > maxSchemeLength then .error .schemeTooLong
          else .ok (some rest)
      | _ => .ok none

/-- Reads a text that is neither a path nor one sign: a URL, or only the name of a host. -/
def ofUrlText (text : List Char) : Except UriError Uri := do
  match ← afterScheme? text with
  | none =>
      let rest ← afterHost text
      if rest.isEmpty then .ok ⟨"", none⟩ else .error .invalidFormat
  | some [] => .error .empty
  | some text =>
      let rest ← afterHost text
      if rest.length = text.length then .error .invalidFormat
      else
        let uri ← ofPathText rest
        .ok { uri with path := if uri.path = "" then "/" else uri.path }

/-- Reads one sign: a path, all paths, or the name of a host. -/
def ofSign (sign : Char) : Except UriError Uri :=
  if sign = '/' then .ok ⟨"/", none⟩
  else if sign = '*' then .ok ⟨"*", none⟩
  else do
    let rest ← afterHost [sign]
    if rest.isEmpty then .ok ⟨"", none⟩ else .error .invalidChar

/-- Reads a request target. -/
def ofText (text : String) : Except UriError Uri :=
  if text.utf8ByteSize > maxBytes then .error .tooLong
  else
    match text.toList with
    | [] => .error .empty
    | '/' :: rest => ofPathText ('/' :: rest)
    | [sign] => ofSign sign
    | chars => ofUrlText chars

end Uri

end StationGateway
