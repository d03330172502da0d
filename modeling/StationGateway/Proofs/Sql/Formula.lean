/-!
# Formulas

What a condition of a statement says: comparisons joined by `and` and `or`, where parentheses group.
A formula has a value for every choice of values for its comparisons. Numbering the comparisons from
the left forgets what they are and keeps the shape around them.
-/

namespace StationGateway.Sql

/-- A condition over comparisons of type `α`. -/
inductive Formula (α : Type) where
  /-- A comparison. -/
  | atom (comparison : α)
  /-- A condition in parentheses. -/
  | group (inner : Formula α)
  /-- Parts that are joined by `and`. -/
  | all (parts : List (Formula α))
  /-- Parts that are joined by `or`. -/
  | any (parts : List (Formula α))
  deriving Repr

namespace Formula

variable {α : Type}

mutual

/-- The value of a formula for given values of its comparisons. -/
def holds (truth : α → Bool) : Formula α → Bool
  | atom comparison => truth comparison
  | group inner => holds truth inner
  | all parts => allHold truth parts
  | any parts => anyHolds truth parts

/-- Whether all of several formulas hold. -/
def allHold (truth : α → Bool) : List (Formula α) → Bool
  | [] => true
  | part :: rest => holds truth part && allHold truth rest

/-- Whether one of several formulas holds. -/
def anyHolds (truth : α → Bool) : List (Formula α) → Bool
  | [] => false
  | part :: rest => holds truth part || anyHolds truth rest

end

mutual

/-- The comparisons from left to right. -/
def atoms : Formula α → List α
  | atom comparison => [comparison]
  | group inner => atoms inner
  | all parts => atomsOf parts
  | any parts => atomsOf parts

/-- The comparisons of several formulas. -/
def atomsOf : List (Formula α) → List α
  | [] => []
  | part :: rest => atoms part ++ atomsOf rest

end

mutual

/-- The formula with numbers for its comparisons, from `next` on. -/
def numberFrom (next : Nat) : Formula α → Formula Nat
  | atom _ => atom next
  | group inner => group (numberFrom next inner)
  | all parts => all (numberAllFrom next parts)
  | any parts => any (numberAllFrom next parts)

/-- Several formulas with numbers for their comparisons. -/
def numberAllFrom (next : Nat) : List (Formula α) → List (Formula Nat)
  | [] => []
  | part :: rest => numberFrom next part :: numberAllFrom (next + (atoms part).length) rest

end

/-- The formula with numbers for its comparisons. -/
def numbered (formula : Formula α) : Formula Nat :=
  formula.numberFrom 0

/-- Several parts as one formula. A word that joins parts shows only between two of them, so one
part stands for itself. -/
def joined (make : List (Formula α) → Formula α) : List (Formula α) → Formula α
  | [part] => part
  | parts => make parts

@[simp]
theorem holds_joined_all (truth : α → Bool) (parts : List (Formula α)) :
    holds truth (joined all parts) = allHold truth parts := by
  rcases parts with _ | ⟨part, _ | ⟨next, rest⟩⟩ <;> simp [joined, holds, allHold]

@[simp]
theorem holds_joined_any (truth : α → Bool) (parts : List (Formula α)) :
    holds truth (joined any parts) = anyHolds truth parts := by
  rcases parts with _ | ⟨part, _ | ⟨next, rest⟩⟩ <;> simp [joined, holds, anyHolds]

@[simp]
theorem atoms_joined_all (parts : List (Formula α)) : atoms (joined all parts) = atomsOf parts := by
  rcases parts with _ | ⟨part, _ | ⟨next, rest⟩⟩ <;> simp [joined, atoms, atomsOf]

@[simp]
theorem atoms_joined_any (parts : List (Formula α)) : atoms (joined any parts) = atomsOf parts := by
  rcases parts with _ | ⟨part, _ | ⟨next, rest⟩⟩ <;> simp [joined, atoms, atomsOf]

@[simp]
theorem numberFrom_joined_all (next : Nat) (parts : List (Formula α)) :
    numberFrom next (joined all parts) = joined all (numberAllFrom next parts) := by
  rcases parts with _ | ⟨part, _ | ⟨other, rest⟩⟩ <;> simp [joined, numberFrom, numberAllFrom]

@[simp]
theorem numberFrom_joined_any (next : Nat) (parts : List (Formula α)) :
    numberFrom next (joined any parts) = joined any (numberAllFrom next parts) := by
  rcases parts with _ | ⟨part, _ | ⟨other, rest⟩⟩ <;> simp [joined, numberFrom, numberAllFrom]

/-- A conjunction holds only if each of its parts does. -/
theorem holds_of_mem_of_allHold {truth : α → Bool} {parts : List (Formula α)} {part : Formula α}
    (holds_all : allHold truth parts = true) (member : part ∈ parts) : holds truth part = true := by
  induction parts with
  | nil => cases member
  | cons first rest induction =>
      simp only [allHold, Bool.and_eq_true] at holds_all
      rcases List.mem_cons.mp member with rfl | member_rest
      · exact holds_all.1
      · exact induction holds_all.2 member_rest

end Formula

end StationGateway.Sql
