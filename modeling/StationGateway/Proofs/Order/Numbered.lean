import Mathlib.Data.List.ReduceOption

/-!
# Numbered members

Members that are there are numbered one after the other, and missing ones take no number. -/

namespace StationGateway.Order

variable {α : Type}

/-- The numbers of the members that are there, from `next` on. -/
def numberFrom (next : Nat) : List (Option α) → List (Option Nat)
  | [] => []
  | none :: rest => none :: numberFrom next rest
  | some _ :: rest => some next :: numberFrom (next + 1) rest

theorem numberFrom_append (next : Nat) (first second : List (Option α)) :
    numberFrom next (first ++ second) =
      numberFrom next first ++ numberFrom (next + first.reduceOption.length) second := by
  induction first generalizing next with
  | nil => rfl
  | cons member rest induction =>
      cases member with
      | none => rw [List.cons_append, numberFrom, induction]; rfl
      | some present =>
          rw [List.cons_append, numberFrom, induction, List.reduceOption_cons_of_some,
            List.length_cons, Nat.add_right_comm, Nat.add_assoc]
          rfl

theorem numberFrom_ne_nil (next : Nat) {members : List (Option α)} (filled : members ≠ []) :
    numberFrom next members ≠ [] := by
  cases members with
  | nil => exact absurd rfl filled
  | cons member rest => cases member <;> exact List.cons_ne_nil _ _

theorem reduceOption_numberFrom (next : Nat) (members : List (Option α)) :
    (numberFrom next members).reduceOption = List.range' next members.reduceOption.length := by
  induction members generalizing next with
  | nil => rfl
  | cons member rest induction =>
      cases member with
      | none => rw [numberFrom, List.reduceOption_cons_of_none, induction]; rfl
      | some present =>
          rw [numberFrom, List.reduceOption_cons_of_some, induction,
            List.reduceOption_cons_of_some, List.length_cons, List.range'_succ]

end StationGateway.Order
