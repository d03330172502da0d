import StationGateway.Settings.Address
import StationGateway.Text.Blank
import StationGateway.Text.Percent

/-!
# Database URLs

A database is named by a URL or by options `name = value`, whose values may be quoted. A URL holds
the name and password of the user, hosts with ports, the name of the database, and further options.
-/

namespace StationGateway.Settings

open Text

/-- What an option takes. -/
inductive OptionKind where
  /-- Any text. -/
  | text
  /-- One of some words. -/
  | word (words : List String)
  /-- Addresses with commas between them. -/
  | addresses
  /-- Ports with commas between them, each of which may be left out. -/
  | ports
  /-- A whole number from `-negative` up to `greatest`. -/
  | number (negative greatest : Nat)

/-- The kind of options that are whole numbers of 64 bits. -/
def longNumber : OptionKind :=
  .number 0x8000000000000000 0x7FFFFFFFFFFFFFFF

/-- The options of a connection. -/
def connectionOptions : List (String × OptionKind) :=
  [("user", .text), ("password", .text), ("dbname", .text), ("options", .text),
    ("application_name", .text), ("host", .text), ("hostaddr", .addresses), ("port", .ports),
    ("sslmode", .word ["disable", "prefer", "require"]),
    ("sslnegotiation", .word ["postgres", "direct"]),
    ("target_session_attrs", .word ["any", "read-write", "read-only"]),
    ("channel_binding", .word ["disable", "prefer", "require"]),
    ("load_balance_hosts", .word ["disable", "random"]),
    ("connect_timeout", longNumber), ("tcp_user_timeout", longNumber),
    ("keepalives", .number 0 0xFFFFFFFFFFFFFFFF), ("keepalives_idle", longNumber),
    ("keepalives_interval", longNumber), ("keepalives_retries", .number 0 0xFFFFFFFF)]

/-- Whether a text spells a whole number within bounds. -/
def spellsNumber (negative greatest : Nat) (value : List Char) : Bool :=
  (readInteger negative greatest value).isOk

/-- Whether a value is of a kind. -/
def OptionKind.admits (value : List Char) : OptionKind → Bool
  | text => true
  | word words => words.contains (String.ofList value)
  | addresses => (splitOn ',' value).all fun address => (HostAddress.literal? address).isSome
  | ports => (splitOn ',' value).all fun port => port.isEmpty || spellsNumber 0 maxPort port
  | number negative greatest => spellsNumber negative greatest value

/-- Whether there is such an option and it takes a value. -/
def isOption (name : String) (value : List Char) : Bool :=
  connectionOptions.any fun (known, kind) => known = name && kind.admits value

/-- A quoted value after its opening quote, and the text ahead. A backslash takes the next character
as it is. -/
def quotedValue? : List Char → Option (List Char × List Char)
  | [] => none
  | '\\' :: char :: rest => (quotedValue? rest).map fun (value, rest) => (char :: value, rest)
  | char :: rest =>
      if char = '\'' then some ([], rest)
      else (quotedValue? rest).map fun (value, rest) => (char :: value, rest)

/-- A value up to the first blank, and the text ahead. A backslash takes the next character as it
is. -/
def bareValue : List Char → List Char × List Char
  | [] => ([], [])
  | '\\' :: [] => ([], [])
  | '\\' :: char :: rest =>
      let (value, rest) := bareValue rest
      (char :: value, rest)
  | char :: rest =>
      if isBlank char then ([], char :: rest)
      else
        let (value, rest) := bareValue rest
        (char :: value, rest)

/-- A value, which is not empty unless it is quoted, and the text ahead. -/
def optionValue? : List Char → Option (List Char × List Char)
  | '\'' :: rest => quotedValue? rest
  | text =>
      let (value, rest) := bareValue text
      if value.isEmpty then none else some (value, rest)

/-- Whether a text is a sequence of options. It ends where no name follows. Every option takes a
character. -/
def areOptions : Nat → List Char → Bool
  | 0, _ => false
  | budget + 1, text =>
      let text := dropBlanks text
      let name := text.takeWhile fun char => !isBlank char && char ≠ '='
      if name.isEmpty then true
      else
        match dropBlanks (text.drop name.length) with
        | '=' :: rest =>
            match optionValue? (dropBlanks rest) with
            | some (value, rest) => isOption (String.ofList name) value && areOptions budget rest
            | none => false
        | _ => false

/-- The text that a part of a URL stands for. -/
def urlText? (part : List Char) : Option (List Char) :=
  decodeUtf8? (resolvePercents (utf8Bytes part))

/-- Whether a part of a URL stands for the name of a host, or for a path to a socket. -/
def isUrlHost (part : List Char) : Bool :=
  (resolvePercents (utf8Bytes part)).head? = some 0x2F || (urlText? part).isSome

/-- The port unless a URL says otherwise. -/
def databasePort : List Char := ['5', '4', '3', '2']

/-- The host and port of a part of a URL. An address in brackets may hold colons. -/
def hostAndPort? (part : List Char) : Option (List Char × List Char) :=
  match part with
  | '[' :: rest =>
      match splitOnce ']' rest with
      | some (host, []) => some (host, databasePort)
      | some (host, ':' :: port) => some (host, port)
      | _ => none
  | _ => some ((splitOnce ':' part).getD (part, databasePort))

/-- Whether a part of a URL names a host and its port. -/
def isHostAndPort (part : List Char) : Bool :=
  match hostAndPort? part with
  | none => false
  | some (host, port) => isUrlHost host && (urlText? port).any (isOption "port")

/-- Whether a name and a value of a URL are an option. -/
def isUrlOption (name value : List Char) : Bool :=
  match urlText? name with
  | none => false
  | some name =>
      if name = "host".toList then isUrlHost value
      else (urlText? value).any (isOption (String.ofList name))

/-- Whether the text after the question mark of a URL is a sequence of options. Each takes a
character. -/
def areUrlOptions : Nat → List Char → Bool
  | 0, _ => false
  | budget + 1, text =>
      if text.isEmpty then true
      else
        match splitOnce '=' text with
        | none => false
        | some (name, rest) =>
            let value := rest.takeWhile (· ≠ '&')
            isUrlOption name value && areUrlOptions budget (rest.drop (value.length + 1))

/-- Whether a text is what follows the protocol of a database URL. -/
def isUrlRest (text : List Char) : Bool :=
  let (user, text) := match splitOnce '@' text with
    | some (credentials, rest) => (credentials.takeWhile (· ≠ ':'), rest)
    | none => ([], text)
  let hosts := text.takeWhile fun char => char ≠ '/' && char ≠ '?'
  let text := text.drop hosts.length
  let database := text.takeWhile (· ≠ '?')
  let options := text.drop (database.length + 1)
  (urlText? user).isSome && (hosts.isEmpty || (splitOn ',' hosts).all isHostAndPort) &&
    (urlText? database).isSome && areUrlOptions (options.length + 1) options

/-- The protocols of database URLs. -/
def databaseProtocols : List String := ["postgres://", "postgresql://"]

/-- Whether a text names a database. -/
def isDatabaseUrl (text : String) : Bool :=
  match databaseProtocols.findSome? fun start => stripStart? start.toList text.toList with
  | some rest => isUrlRest rest
  | none => areOptions (text.length + 1) text.toList

end StationGateway.Settings
