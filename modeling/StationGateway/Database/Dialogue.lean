import StationGateway.Database.Failure
import StationGateway.Json.Reader
import StationGateway.Row
import StationGateway.Statement.Binding

/-!
# Dialogues with the database

A dialogue is a sequence of statements, each of which may depend on the replies to those before it.
It is a value like any other, and replies are put into it from outside. -/

namespace StationGateway.Database

open Statement

/-- What the database says to a statement. -/
inductive Reply where
  /-- Rows of one text each, which may be missing. -/
  | rows (cells : List (Option String))
  /-- A refusal. -/
  | refusal (failure : Failure)
  /-- Nothing, since the database cannot be reached and never sees the statement. -/
  | unreachable
  deriving DecidableEq, Repr

/-- Statements and what becomes of the replies to them. -/
inductive Dialogue (α : Type) where
  /-- Nothing more to ask. -/
  | done (value : α)
  /-- A statement, and how the dialogue goes on after a reply. -/
  | ask (statement : Bound) (next : Reply → Dialogue α)

namespace Dialogue

variable {α β : Type}

/-- A dialogue that goes on with another one. -/
def bind : Dialogue α → (α → Dialogue β) → Dialogue β
  | done value, next => next value
  | ask statement next, further => ask statement fun reply => (next reply).bind further

/-- A dialogue with its outcome changed. -/
def map (change : α → β) (dialogue : Dialogue α) : Dialogue β :=
  dialogue.bind fun value => done (change value)

/-- A dialogue that goes on only if nothing has been refused. -/
def andThen (dialogue : Dialogue (Except GatewayError α))
    (next : α → Dialogue (Except GatewayError β)) : Dialogue (Except GatewayError β) :=
  dialogue.bind fun
    | .ok value => next value
    | .error error => done (.error error)

/-- The statements that the database sees and the outcome of a dialogue in which it gives some
replies, one after the other, and no rows after the last of them. -/
def run : Dialogue α → List Reply → List Bound × α
  | done value, _ => ([], value)
  | ask statement next, replies =>
      let reply := replies.headD (.rows [])
      let (statements, value) := (next reply).run replies.tail
      (if reply = .unreachable then statements else statement :: statements, value)

end Dialogue

/-- Asks for the texts of a statement; a refusal is taken to be about a time zone, if one is given.
-/
def askTexts (zone : Option String) (statement : Bound) :
    Dialogue (Except GatewayError (List (Option String))) :=
  .ask statement fun
    | .rows cells => .done (.ok cells)
    | .refusal failure => .done (.error (failure.toError zone))
    | .unreachable => .done (.error (.internal "the database cannot be reached"))

/-- The statement that sets the time zone and the time that statements may take. -/
def sessionStatement (zone : String) (milliseconds : Nat) : Bound :=
  { sql := "select set_config('TimeZone', $1, false), set_config('statement_timeout', $2, false)"
    binds := [.text zone, .text (toString milliseconds ++ "ms")] }

/-- A statement whose rows are JSON texts. -/
def rowStatement (statement : Bound) : Bound :=
  { statement with
    sql := "select row_to_json(q)::text as row from (" ++ statement.sql ++ ") q" }

/-- The row that a JSON text spells. -/
def readRow : Option String → Except GatewayError Row
  | none => .error (.internal "Unexpected null for non-null column")
  | some text =>
      match Json.ofText text.toList with
      | some (.object row) => .ok row
      | _ => .error (.internal "row is not a JSON object")

/-- Asks for the rows of a statement. -/
def askRows (statement : Bound) : Dialogue (Except GatewayError (List Row)) :=
  (askTexts none (rowStatement statement)).andThen fun cells => .done (cells.mapM readRow)

/-- Asks for the rows of a statement in a time zone and within some milliseconds. -/
def askInSession (zone : String) (milliseconds : Nat) (statement : Bound) :
    Dialogue (Except GatewayError (List Row)) :=
  (askTexts (some zone) (sessionStatement zone milliseconds)).andThen fun _ => askRows statement

/-- Asks for the names of a listing, of which missing ones do not count. -/
def askNames (sql : String) : Dialogue (Except GatewayError (List String)) :=
  (askTexts none ⟨sql, []⟩).andThen fun cells => .done (.ok (cells.filterMap id))

end StationGateway.Database
