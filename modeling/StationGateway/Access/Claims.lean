import StationGateway.Json.Reader
import StationGateway.Order.Sorted
import StationGateway.Text.Base64
import StationGateway.Text.Split
import StationGateway.Text.Utf8

/-!
# Claims

The claims of a bearer token that say who the caller is and which roles it has. The token has been
verified before, so only its payload is read. A claim of the wrong type or given twice makes the
whole token worthless, and members that nobody asks for are passed over. A record may also be
written as the array of its members.

A payload is read octet by octet, and only the strings that are asked for have to be UTF-8.
-/

namespace StationGateway.Access

open Text

/-- What is read from the octets of a text, and the octets ahead; none if the text is refused. -/
abbrev Reading (α : Type) := Option (α × List Char)

/-- Reads a string, which has to be UTF-8. -/
def readText : List Char → Option (String × List Char)
  | '"' :: rest => do
      let ahead ← Json.skipString rest
      let text ← decodeUtf8? ((rest.take (rest.length - ahead.length)).map octet)
      let (value, _) ← Json.readString text
      some (value, ahead)
  | _ => none

/-- The claims about a caller. -/
structure Claims where
  /-- The roles in the realm. -/
  realmRoles : List String
  /-- The roles at clients, by name of the client. -/
  clientRoles : List (String × List String)
  /-- The name that the caller chose. -/
  preferredName : Option String
  /-- The identifier of the caller. -/
  identifier : Option String
  deriving Repr

/-- No claims. -/
def Claims.none : Claims :=
  ⟨[], [], Option.none, Option.none⟩

/-- Reads the items of an array after its opening bracket, each with its position. Each takes a
character. -/
def readItems {σ : Type} (item : Nat → σ → List Char → Reading σ) :
    Nat → Nat → σ → List Char → Option (σ × List Char)
  | 0, _, _, _ => none
  | budget + 1, position, state, text => do
      let (state, rest) ← item position state (Json.skipGaps text)
      match Json.skipGaps rest with
      | ',' :: rest => readItems item budget (position + 1) state rest
      | ']' :: rest => some (state, rest)
      | _ => none

/-- Reads an array. -/
def readArray {σ : Type} (item : Nat → σ → List Char → Reading σ) (state : σ) :
    List Char → Reading σ
  | '[' :: rest =>
      match Json.skipGaps rest with
      | ']' :: rest => some (state, rest)
      | rest => readItems item (rest.length + 1) 0 state rest
  | _ => none

/-- Reads the members of an object after its opening brace, each with its name. Each takes a
character. -/
def readMembers {σ : Type} (member : String → σ → List Char → Reading σ) :
    Nat → σ → List Char → Option (σ × List Char)
  | 0, _, _ => none
  | budget + 1, state, text =>
      match readText (Json.skipGaps text) with
      | some (name, rest) =>
          match Json.skipGaps rest with
          | ':' :: rest => do
              let (state, rest) ← member name state (Json.skipGaps rest)
              match Json.skipGaps rest with
              | ',' :: rest => readMembers member budget state rest
              | '}' :: rest => some (state, rest)
              | _ => none
          | _ => none
      | none => none

/-- Reads an object. -/
def readObject {σ : Type} (member : String → σ → List Char → Reading σ) (state : σ) :
    List Char → Reading σ
  | '{' :: rest =>
      match Json.skipGaps rest with
      | '}' :: rest => some (state, rest)
      | rest => readMembers member (rest.length + 1) state rest
  | _ => none

/-- Reads a value or `null`. -/
def readOptional {α : Type} (read : List Char → Reading α) (text : List Char) :
    Reading (Option α) :=
  match Json.readWord ['n', 'u', 'l', 'l'] text with
  | some rest => some (none, rest)
  | none => (read text).map fun (value, rest) => (some value, rest)

/-- Passes over a member that nobody asks for. -/
def passOver {σ : Type} (state : σ) (text : List Char) : Reading σ :=
  (Json.skipValue (2 * text.length + 2) text).map fun rest => (state, rest)

/-- Reads a member that may be given once: `known` says whether it has been. -/
def readOnce {α σ : Type} (known : Bool) (read : List Char → Reading α) (set : α → σ)
    (text : List Char) : Reading σ :=
  if known then none else (read text).map fun (value, rest) => (set value, rest)

/-- Reads an array of strings. -/
def readTexts : List Char → Reading (List String) :=
  readArray (fun _ seen text => (readText text).map fun (value, rest) => (seen ++ [value], rest)) []

/-- Reads the roles that one place grants: an object with the member `roles`, or an array with the
list of roles as its only item. -/
def readGrant (text : List Char) : Reading (List String) :=
  let found : Reading (Option (List String)) :=
    match text with
    | '[' :: _ =>
        readArray
          (fun position _ text => if position = 0 then
              (readTexts text).map fun (roles, rest) => (some roles, rest)
            else none)
          none text
    | _ =>
        readObject
          (fun name (known : Option (List String)) text =>
            if name = "roles" then readOnce known.isSome readTexts some text
            else passOver known text)
          none text
  found.map fun (roles, rest) => (roles.getD [], rest)

/-- Reads the roles by client. Of a client that is named twice the last grant counts. -/
def readClients : List Char → Reading (List (String × List String)) :=
  readObject
    (fun name clients text =>
      (readGrant text).map fun (roles, rest) => (Order.put name roles clients, rest))
    []

/-- The claims read so far, each if it has been given. -/
structure ClaimSlots where
  /-- The grant of the realm, which may be null. -/
  realm : Option (Option (List String))
  /-- The grants of clients. -/
  clients : Option (List (String × List String))
  /-- The name that the caller chose, which may be null. -/
  preferred : Option (Option String)
  /-- The identifier of the caller, which may be null. -/
  identifier : Option (Option String)

namespace ClaimSlots

/-- Nothing read yet. -/
def empty : ClaimSlots :=
  ⟨none, none, none, none⟩

/-- The names of the claims, in the order of the array form. -/
def names : List String :=
  ["realm_access", "resource_access", "preferred_username", "sub"]

/-- Reads the claim of a name. -/
def readNamed (name : String) (slots : ClaimSlots) (text : List Char) : Reading ClaimSlots :=
  if name = "realm_access" then
    readOnce slots.realm.isSome (readOptional readGrant)
      (fun value => { slots with realm := some value }) text
  else if name = "resource_access" then
    readOnce slots.clients.isSome readClients
      (fun value => { slots with clients := some value }) text
  else if name = "preferred_username" then
    readOnce slots.preferred.isSome (readOptional readText)
      (fun value => { slots with preferred := some value }) text
  else if name = "sub" then
    readOnce slots.identifier.isSome (readOptional readText)
      (fun value => { slots with identifier := some value }) text
  else passOver slots text

/-- Reads the claim at a position of the array form, which has no further items. -/
def readPlaced (position : Nat) (slots : ClaimSlots) (text : List Char) : Reading ClaimSlots :=
  match names[position]? with
  | some name => slots.readNamed name text
  | none => none

/-- The claims; what has not been given is empty. -/
def toClaims (slots : ClaimSlots) : Claims :=
  { realmRoles := (slots.realm.getD none).getD []
    clientRoles := slots.clients.getD []
    preferredName := slots.preferred.getD none
    identifier := slots.identifier.getD none }

end ClaimSlots

namespace Claims

/-- The claims that the octets of a whole JSON text spell. -/
def ofOctets? (octets : List UInt8) : Option Claims :=
  let start := Json.skipGaps (octets.map octetChar)
  let found :=
    match start with
    | '[' :: _ => readArray ClaimSlots.readPlaced .empty start
    | _ => readObject ClaimSlots.readNamed .empty start
  match found with
  | some (slots, rest) => if (Json.skipGaps rest).isEmpty then some slots.toClaims else Option.none
  | Option.none => Option.none

/-- The claims of a token: the payload is its second part between points. -/
def ofToken? (token : String) : Option Claims := do
  let payload ← (splitOn '.' token.toList)[1]?
  let unpadded := (payload.reverse.dropWhile (· = '=')).reverse
  let octets ← decodeBase64? unpadded
  ofOctets? octets

/-- The name of the caller, if there is one that is not empty. A chosen name stands before the
identifier, even an empty one. -/
def subject (claims : Claims) : Option String :=
  match claims.preferredName.or claims.identifier with
  | some "" => Option.none
  | subject => subject

/-- The granted roles: those in the realm, then those at clients by name of the client. -/
def grants (claims : Claims) : List String :=
  claims.realmRoles ++ claims.clientRoles.flatMap (·.2)

end Claims

end StationGateway.Access
