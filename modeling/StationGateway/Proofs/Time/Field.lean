import StationGateway.Proofs.Outcome
import StationGateway.Proofs.Time.Digits

/-!
# Fields of a fixed width

What a field reads and leaves. A field that may be missing is recognised by what it begins with, so it
is known of the rest after a missing field that it does not begin with that. -/

namespace StationGateway.Time

/-- The text of a field of a fixed width behind its mark, empty for a missing field. -/
def fieldText (mark : List Char) (width : Nat) : Option Nat → List Char
  | some number => mark ++ (padded width number).toList
  | none => []

/-- A reader has found a value in front of a rest. -/
def Leaves {α : Type} (outcome : Except SegmentError (α × Place)) (value : α) (rest : List Char) :
    Prop :=
  ∃ position, outcome = .ok (value, ⟨rest, position⟩)

section

variable {α β : Type} {value number : α} {rest : List Char} {place : Place}

theorem leaves_ok_iff : Leaves (.ok (value, place)) number rest ↔ value = number ∧ place.rest = rest := by
  obtain ⟨ahead, position⟩ := place
  simp [Leaves]

/-- A value is checked before it is left. -/
theorem leaves_ite_iff {condition : Prop} [Decidable condition] {error : SegmentError} :
    Leaves (if condition then .ok (value, place) else .error error) number rest ↔
      condition ∧ value = number ∧ place.rest = rest := by
  split_ifs with holds
  · simp [leaves_ok_iff, holds]
  · simp [Leaves, holds]

theorem leaves_bind_iff {outcome : Except SegmentError (α × Place)}
    {next : α × Place → Except SegmentError (β × Place)} {result : β} :
    Leaves (outcome >>= next) result rest ↔
      ∃ value place, outcome = .ok (value, place) ∧ Leaves (next (value, place)) result rest := by
  simp only [Leaves, Outcome.bind_eq_ok_iff, Prod.exists]
  constructor
  · rintro ⟨position, value, place, found, next_eq⟩
    exact ⟨value, place, found, position, next_eq⟩
  · rintro ⟨value, place, found, position, next_eq⟩
    exact ⟨position, value, place, found, next_eq⟩

/-- What follows a reader is read in front of what the reader leaves. -/
theorem Leaves.bind {outcome : Except SegmentError (α × Place)}
    {next : α × Place → Except SegmentError (β × Place)} {result : β} {middle : List Char}
    (first : Leaves outcome value middle)
    (second : ∀ position, Leaves (next (value, ⟨middle, position⟩)) result rest) :
    Leaves (outcome >>= next) result rest := by
  obtain ⟨position, found⟩ := first
  exact leaves_bind_iff.mpr ⟨value, _, found, second position⟩

end

namespace Place

variable {char mark : Char} {count number : Nat} {field : String} {rest : List Char} {place : Place}

theorem eat?_eq_some_iff {after : Place} : place.eat? char = some after ↔
    place.rest = char :: after.rest ∧ after.position = place.position + 1 := by
  obtain ⟨ahead, position⟩ := place
  obtain ⟨rest, next⟩ := after
  cases ahead with
  | nil => simp [eat?]
  | cons first ahead => grind [eat?]

theorem eat?_eq_none_iff : place.eat? char = none ↔ place.rest.head? ≠ some char := by
  obtain ⟨ahead, position⟩ := place
  cases ahead with
  | nil => simp [eat?]
  | cons first ahead => simp [eat?]

theorem leaves_digits_iff (positive : 0 < count) : Leaves (place.digits count field) number rest ↔
    number < 10 ^ count ∧ place.rest = (padded count number).toList ++ rest := by
  rw [digits]
  cases found : place.digits? count with
  | none =>
      simp only [Leaves, reduceCtorEq, exists_false, false_iff, not_and]
      intro below rest_eq
      have is_some : place.digits? count = some (number, ⟨rest, place.position + count⟩) :=
        (digits?_eq_some_iff positive).mpr ⟨below, rest_eq, rfl⟩
      rw [found] at is_some
      cases is_some
  | some read =>
      obtain ⟨value, after⟩ := read
      obtain ⟨below, rest_eq, -⟩ := (digits?_eq_some_iff positive).mp found
      rw [leaves_ok_iff]
      constructor
      · rintro ⟨rfl, rfl⟩
        exact ⟨below, rest_eq⟩
      · rintro ⟨number_lt, number_eq⟩
        have same : place.digits? count = some (number, ⟨rest, place.position + count⟩) :=
          (digits?_eq_some_iff positive).mpr ⟨number_lt, number_eq, rfl⟩
        obtain ⟨rfl, rfl⟩ := Prod.mk.inj (Option.some.inj (found.symm.trans same))
        exact ⟨rfl, rfl⟩

/-- A padded number is read as it was written. -/
theorem leaves_padded (field : String) (positive : 0 < count) (below : number < 10 ^ count)
    (rest : List Char) (position : Nat) :
    Leaves (digits count field ⟨(padded count number).toList ++ rest, position⟩) number rest :=
  (leaves_digits_iff positive).mpr ⟨below, rfl⟩

theorem leaves_hyphen_bind_iff {α : Type} {next : Place → Except SegmentError (α × Place)}
    {result : α} : Leaves (place.hyphen >>= next) result rest ↔
      ∃ after : Place, place.rest = '-' :: after.rest ∧ after.position = place.position + 1 ∧
        Leaves (next after) result rest := by
  rw [hyphen]
  cases found : place.eat? '-' with
  | none =>
      have stops := eat?_eq_none_iff.mp found
      constructor
      · rintro ⟨position, failed⟩
        cases failed
      · rintro ⟨after, rest_eq, -⟩
        rw [rest_eq] at stops
        exact absurd rfl stops
  | some eaten =>
      obtain ⟨eaten_eq, position_eq⟩ := eat?_eq_some_iff.mp found
      constructor
      · intro leaves
        exact ⟨eaten, eaten_eq, position_eq, leaves⟩
      · rintro ⟨after, rest_eq, after_position, leaves⟩
        have same := eat?_eq_some_iff.mpr ⟨rest_eq, after_position⟩
        obtain rfl := Option.some.inj (found.symm.trans same)
        exact leaves

theorem leaves_markedDigits_iff (positive : 0 < count) :
    Leaves (place.markedDigits mark count field) number rest ↔
      ∃ written : Option Nat, written.getD 0 = number ∧ number < 10 ^ count ∧
        place.rest = fieldText [mark] count written ++ rest ∧
          (written = none → rest.head? ≠ some mark) := by
  rw [markedDigits]
  cases found : place.eat? mark with
  | none =>
      have stops := eat?_eq_none_iff.mp found
      dsimp only
      rw [leaves_ok_iff]
      constructor
      · rintro ⟨rfl, rfl⟩
        exact ⟨none, rfl, Nat.pow_pos (by omega), rfl, fun _ => stops⟩
      · rintro ⟨written, rfl, -, rest_eq, -⟩
        cases written with
        | none => exact ⟨rfl, rest_eq⟩
        | some number =>
            rw [rest_eq] at stops
            exact absurd rfl stops
  | some after =>
      obtain ⟨after_eq, -⟩ := eat?_eq_some_iff.mp found
      dsimp only
      rw [leaves_digits_iff positive]
      constructor
      · rintro ⟨below, rest_eq⟩
        refine ⟨some number, rfl, below, ?_, nofun⟩
        rw [after_eq, rest_eq]
        rfl
      · rintro ⟨written, number_eq, below, rest_eq, stops⟩
        cases written with
        | none =>
            have marked : rest = mark :: after.rest := rest_eq.symm.trans after_eq
            rw [marked] at stops
            exact absurd rfl (stops rfl)
        | some written =>
            obtain rfl : written = number := number_eq
            exact ⟨below, (List.cons.inj (after_eq.symm.trans rest_eq)).2⟩

theorem digits?_eq_none (positive : 0 < count)
    (stops : ∀ char ∈ place.rest.head?, char.isDigit = false) : place.digits? count = none := by
  obtain ⟨rest, position⟩ := place
  obtain ⟨count, rfl⟩ := Nat.exists_eq_add_one_of_ne_zero (Nat.ne_of_gt positive)
  cases rest with
  | nil => rfl
  | cons first rest => simp [digits?, digitsAfter?, stops first rfl]

/-- A number without a mark is read as one that may be missing. -/
theorem exists_unmarked (positive : 0 < count) : ∃ written : Option Nat,
    ((place.digits? count).getD (0, place)).1 = written.getD 0 ∧
      place.rest = fieldText [] count written ++ ((place.digits? count).getD (0, place)).2.rest := by
  cases found : place.digits? count with
  | none => exact ⟨none, rfl, rfl⟩
  | some read =>
      obtain ⟨number, after⟩ := read
      obtain ⟨-, rest_eq, -⟩ := (digits?_eq_some_iff positive).mp found
      exact ⟨some number, rfl, rest_eq⟩

theorem unmarked_eq (positive : 0 < count) {written : Option Nat} (below : written.getD 0 < 10 ^ count)
    (rest_eq : place.rest = fieldText [] count written ++ rest)
    (stops : ∀ char ∈ rest.head?, char.isDigit = false) :
    ∃ position, (place.digits? count).getD (0, place) = (written.getD 0, ⟨rest, position⟩) := by
  cases written with
  | none =>
      obtain rfl : place.rest = rest := rest_eq
      rw [digits?_eq_none positive stops]
      exact ⟨place.position, rfl⟩
  | some number =>
      have found : place.digits? count = some (number, ⟨rest, place.position + count⟩) :=
        (digits?_eq_some_iff positive).mpr ⟨below, rest_eq, rfl⟩
      rw [found]
      exact ⟨_, rfl⟩

/-- A character that may be missing. -/
theorem exists_eaten (char : Char) (place : Place) : ∃ present : Bool,
    place.rest = (if present then [char] else []) ++ ((place.eat? char).getD place).rest := by
  cases found : place.eat? char with
  | none => exact ⟨false, rfl⟩
  | some after => exact ⟨true, (eat?_eq_some_iff.mp found).1⟩

theorem eaten_eq {present : Bool} (rest_eq : place.rest = (if present then [char] else []) ++ rest)
    (stops : rest.head? ≠ some char) : ∃ position, (place.eat? char).getD place = ⟨rest, position⟩ := by
  cases present with
  | false =>
      obtain rfl : place.rest = rest := rest_eq
      rw [eat?_eq_none_iff.mpr stops]
      exact ⟨place.position, rfl⟩
  | true =>
      have found : place.eat? char = some ⟨rest, place.position + 1⟩ :=
        eat?_eq_some_iff.mpr ⟨rest_eq, rfl⟩
      rw [found]
      exact ⟨_, rfl⟩

end Place

/-! ## What a text begins with -/

/-- A field is missing where its mark does not stand. -/
theorem eq_none_of_head? {mark : Char} {width : Nat} {written : Option Nat} {rest : List Char}
    (stops : (fieldText [mark] width written ++ rest).head? ≠ some mark) : written = none := by
  cases written with
  | none => rfl
  | some number => exact absurd rfl stops

theorem head?_fieldText {P : Char → Prop} {mark : Char} {width : Nat} {written : Option Nat}
    {rest : List Char} (marked : P mark) (stops : ∀ char ∈ rest.head?, P char) :
    ∀ char ∈ (fieldText [mark] width written ++ rest).head?, P char := by
  cases written with
  | none => exact stops
  | some number =>
      intro char is_head
      obtain rfl : mark = char := Option.some.inj is_head
      exact marked

theorem head?_padded {width number : Nat} (positive : 0 < width) (below : number < 10 ^ width)
    {rest : List Char} : ∀ char ∈ ((padded width number).toList ++ rest).head?, char.isDigit = true := by
  obtain ⟨length_eq, are_digits, -⟩ := padded_spells positive below
  cases digits_eq : (padded width number).toList with
  | nil =>
      rw [digits_eq] at length_eq
      exact absurd length_eq (Nat.ne_of_lt positive)
  | cons first digits =>
      intro char is_head
      obtain rfl : first = char := Option.some.inj is_head
      apply are_digits
      rw [digits_eq]
      exact List.mem_cons_self

end StationGateway.Time
