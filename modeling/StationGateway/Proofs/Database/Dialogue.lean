import StationGateway.Database.Dialogue

/-!
# What the database is asked

What holds of every statement of a dialogue holds of every statement that the database sees,
whatever it replies. Dialogues are put together from smaller ones, and so is what they ask.
-/

namespace StationGateway.Database

open Statement

namespace Dialogue

variable {α β : Type} {holds : Bound → Prop}

/-- Whether something holds of every statement, whatever the replies are. -/
def AsksOnly (holds : Bound → Prop) : Dialogue α → Prop
  | done _ => True
  | ask statement next => holds statement ∧ ∀ reply, (next reply).AsksOnly holds

theorem AsksOnly.bind {dialogue : Dialogue α} (asks : dialogue.AsksOnly holds)
    {next : α → Dialogue β} (further : ∀ value, (next value).AsksOnly holds) :
    (dialogue.bind next).AsksOnly holds := by
  induction dialogue with
  | done value => exact further value
  | ask statement rest induction =>
      exact ⟨asks.1, fun reply => induction reply (asks.2 reply)⟩

theorem AsksOnly.map {dialogue : Dialogue α} (asks : dialogue.AsksOnly holds) (change : α → β) :
    (dialogue.map change).AsksOnly holds :=
  asks.bind fun _ => trivial

theorem AsksOnly.andThen {dialogue : Dialogue (Except GatewayError α)}
    (asks : dialogue.AsksOnly holds) {next : α → Dialogue (Except GatewayError β)}
    (further : ∀ value, (next value).AsksOnly holds) : (dialogue.andThen next).AsksOnly holds :=
  asks.bind fun
    | .ok value => further value
    | .error _ => trivial

/-- What is asked for is all that the database sees. -/
theorem AsksOnly.holds_of_mem_run {dialogue : Dialogue α} (asks : dialogue.AsksOnly holds)
    {replies : List Reply} {statement : Bound} (member : statement ∈ (dialogue.run replies).1) :
    holds statement := by
  induction dialogue generalizing replies with
  | done value => cases member
  | ask first next induction =>
      rw [run] at member
      dsimp only at member
      split at member
      · exact induction _ (asks.2 _) member
      · rcases List.mem_cons.mp member with rfl | in_rest
        · exact asks.1
        · exact induction _ (asks.2 _) in_rest

end Dialogue

variable {holds : Bound → Prop}

theorem asksOnly_askTexts {statement : Bound} (zone : Option String) (fits : holds statement) :
    (askTexts zone statement).AsksOnly holds := by
  refine ⟨fits, fun reply => ?_⟩
  cases reply <;> trivial

theorem asksOnly_askRows {statement : Bound} (fits : holds (rowStatement statement)) :
    (askRows statement).AsksOnly holds :=
  (asksOnly_askTexts none fits).andThen fun _ => trivial

/-- Rows are asked for after the session has been set up. -/
theorem asksOnly_askInSession {zone : String} {milliseconds : Nat} {statement : Bound}
    (session : holds (sessionStatement zone milliseconds)) (fits : holds (rowStatement statement)) :
    (askInSession zone milliseconds statement).AsksOnly holds :=
  (asksOnly_askTexts (some zone) session).andThen fun _ => asksOnly_askRows fits

end StationGateway.Database
