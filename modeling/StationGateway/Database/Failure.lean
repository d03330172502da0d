import StationGateway.Error
import StationGateway.Text.Split

/-!
# Failures of the database

What the database says when it refuses a statement, and what that means for the request. Some kinds
of failure have a state of their own; the states of cancelled statements are read off the message.
-/

namespace StationGateway.Database

open Text

/-- The kinds of failures that have a state of their own, and the others. -/
inductive FailureKind where
  /-- A value that has to be unique is not. -/
  | unique
  /-- A reference leads nowhere. -/
  | foreignKey
  /-- Concurrent statements are in conflict. -/
  | serialization
  /-- Nothing may be written. -/
  | readOnly
  /-- A value is missing. -/
  | notNull
  /-- A value is not allowed. -/
  | check
  /-- Any other failure. -/
  | other
  deriving DecidableEq, Repr

/-- A failure. -/
structure Failure where
  /-- Its kind. -/
  kind : FailureKind
  /-- The message of the database. -/
  message : String
  deriving DecidableEq, Repr

/-- The state of a kind of failure. -/
def FailureKind.state? : FailureKind → Option String
  | unique => some "23505"
  | foreignKey => some "23503"
  | serialization => some "40001"
  | readOnly => some "25006"
  | notNull => some "23502"
  | check => some "23514"
  | other => none

/-- All kinds that have a state. -/
def FailureKind.known : List FailureKind :=
  [unique, foreignKey, serialization, readOnly, notNull, check]

/-- The kind of a failure with a state, as far as clients of the database are told. -/
def FailureKind.ofState (state : String) : FailureKind :=
  (known.find? fun kind => kind.state? = some state).getD other

/-- The state of cancelled statements. -/
def cancelledState : String := "57014"

/-- What messages about cancelled statements begin with. -/
def cancelledStart : String := "canceling statement due to "

/-- The state that the cause of a cancellation stands for. -/
def cancellationState? : String → Option String
  | "statement timeout" => some cancelledState
  | "user request" => some cancelledState
  | "lock timeout" => some "55P03"
  | "conflict with recovery" => some "40001"
  | _ => none

namespace Failure

/-- The state of a failure. -/
def state? (failure : Failure) : Option String :=
  match failure.kind.state? with
  | some state => some state
  | none =>
      match stripStart? cancelledStart.toList failure.message.toList with
      | some cause => cancellationState? (String.ofList cause)
      | none => none

/-- A message without the signs that stand for the ends of its lines. -/
def cleanMessage (message : String) : String :=
  String.ofList (replaceAll ['\\', 'n'] [] message.toList)

/-- What a failure means for a request, for which the database was asked to use a time zone. -/
def toError (failure : Failure) (zone : Option String) : GatewayError :=
  if failure.state? = some cancelledState then .queryTimeout failure.message
  else if occursIn "\"TimeZone\"".toList failure.message.toList then
    .wrongTimezone (zone.getD "")
  else .database (cleanMessage failure.message) failure.state?

end Failure

end StationGateway.Database
