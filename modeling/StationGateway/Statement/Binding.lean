import StationGateway.Error
import StationGateway.Statement.Value

/-!
# Binding named values

The references `:name` of a statement are replaced by numbered placeholders. Quoted literals and the
casts `::` are left alone. A list takes one placeholder for each of its members, nulls are written
out, and a name used again takes the same placeholders.
-/

namespace StationGateway.Statement

open Text

/-- A piece of the text of a statement. -/
inductive Token where
  /-- A literal with its single quotes; an open one reaches to the end. -/
  | literal (text : List Char)
  /-- Two colons. -/
  | cast
  /-- A colon and the name of a value. -/
  | reference (name : List Char)
  /-- Any other character. -/
  | char (char : Char)
  deriving DecidableEq, Repr

/-- How far the reading of a token has come, with the characters seen in reverse. -/
inductive TokenState where
  /-- Between tokens. -/
  | plain
  /-- Inside a literal. -/
  | quoted (seen : List Char)
  /-- After a quote inside a literal, which ends it unless another one follows. -/
  | quoteSeen (seen : List Char)
  /-- After a colon. -/
  | colon
  /-- Inside a name. -/
  | name (seen : List Char)

/-- The characters that names of values begin with. -/
def isNameStart (char : Char) : Bool :=
  char.isAlpha || char == '_'

/-- The characters that names of values consist of. -/
def isNamePart (char : Char) : Bool :=
  char.isAlphanum || char == '_'

/-- What a character between tokens gives or begins. -/
def beginToken (char : Char) : List Token × TokenState :=
  if char = '\'' then ([], .quoted ['\''])
  else if char = ':' then ([], .colon)
  else ([.char char], .plain)

/-- What a character gives or begins in a state. -/
def stepToken (state : TokenState) (char : Char) : List Token × TokenState :=
  match state with
  | .plain => beginToken char
  | .quoted seen =>
      if char = '\'' then ([], .quoteSeen (char :: seen)) else ([], .quoted (char :: seen))
  | .quoteSeen seen =>
      if char = '\'' then ([], .quoted (char :: seen))
      else
        let (tokens, next) := beginToken char
        (.literal seen.reverse :: tokens, next)
  | .colon =>
      if char = ':' then ([.cast], .plain)
      else if isNameStart char then ([], .name [char])
      else
        let (tokens, next) := beginToken char
        (.char ':' :: tokens, next)
  | .name seen =>
      if isNamePart char then ([], .name (char :: seen))
      else
        let (tokens, next) := beginToken char
        (.reference seen.reverse :: tokens, next)

/-- What the end of the text gives in a state. -/
def endToken : TokenState → List Token
  | .plain => []
  | .quoted seen => [.literal seen.reverse]
  | .quoteSeen seen => [.literal seen.reverse]
  | .colon => [.char ':']
  | .name seen => [.reference seen.reverse]

/-- The tokens of a text from a state on. -/
def tokensFrom : TokenState → List Char → List Token
  | state, [] => endToken state
  | state, char :: rest =>
      let (tokens, next) := stepToken state char
      tokens ++ tokensFrom next rest

/-- The tokens of the text of a statement. -/
def tokens (text : List Char) : List Token :=
  tokensFrom .plain text

mutual

/-- The scalars of a value that need placeholders. -/
def scalars : SqlValue → List SqlValue
  | .null => []
  | .list values => scalarsOf values
  | value => [value]

/-- The scalars of several values that need placeholders. -/
def scalarsOf : List SqlValue → List SqlValue
  | [] => []
  | value :: rest => scalars value ++ scalarsOf rest

end

mutual

/-- The placeholders of a value, when `taken` placeholders are in use. -/
def placeholders (taken : Nat) : SqlValue → String
  | .null => "null"
  | .list [] => "null"
  | .list (value :: rest) => join ", " (placeholdersOf taken (value :: rest))
  | _ => "$" ++ toString (taken + 1)

/-- The placeholders of several values. -/
def placeholdersOf (taken : Nat) : List SqlValue → List String
  | [] => []
  | value :: rest =>
      placeholders taken value :: placeholdersOf (taken + (scalars value).length) rest

end

/-- A statement with numbered placeholders and their values in order. -/
structure Bound where
  /-- The text. -/
  sql : String
  /-- The values of the placeholders `$1`, `$2`, ... -/
  binds : List SqlValue
  deriving Repr

/-- What has been bound so far. -/
structure BindState where
  /-- The values of the placeholders in use. -/
  binds : List SqlValue
  /-- The placeholders of the names that have been seen. -/
  known : List (String × String)

/-- The text in place of a reference. -/
def bindName (params : Params) (state : BindState) (name : String) :
    Except GatewayError (String × BindState) :=
  match Order.find? name state.known with
  | some text => .ok (text, state)
  | none =>
      match Order.find? name params with
      | none => .error (.internal s!"statement references unbound parameter :{name}")
      | some value =>
          let text := placeholders state.binds.length value
          .ok (text, ⟨state.binds ++ scalars value, (name, text) :: state.known⟩)

/-- The texts in place of tokens, and the values of all placeholders. -/
def bindTokens (params : Params) :
    BindState → List Token → Except GatewayError (List String × List SqlValue)
  | state, [] => .ok ([], state.binds)
  | state, token :: rest => do
      let (text, state) ← match token with
        | .literal text => .ok (String.ofList text, state)
        | .cast => .ok ("::", state)
        | .char char => .ok (String.singleton char, state)
        | .reference name => bindName params state (String.ofList name)
      let (texts, binds) ← bindTokens params state rest
      .ok (text :: texts, binds)

/-- The statement with its references bound. A reference to no value is a fault of the gateway. -/
def bind (sql : String) (params : Params) : Except GatewayError Bound := do
  let (texts, binds) ← bindTokens params ⟨[], []⟩ (tokens sql.toList)
  return ⟨String.join texts, binds⟩

end StationGateway.Statement
