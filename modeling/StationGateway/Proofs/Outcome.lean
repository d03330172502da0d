import Mathlib.Data.List.Forall2

/-!
# Outcomes

A computation of several steps succeeds exactly if each of them does. So a result says which
intermediate results there were.
-/

namespace StationGateway.Outcome

variable {ε α β : Type}

theorem bind_eq_ok_iff {first : Except ε α} {next : α → Except ε β} {result : β} :
    (first >>= next) = .ok result ↔ ∃ value, first = .ok value ∧ next value = .ok result := by
  cases first with
  | error error => simp [bind, Except.bind]
  | ok value => simp [bind, Except.bind]

theorem bind_eq_error_iff {first : Except ε α} {next : α → Except ε β} {error : ε} :
    (first >>= next) = .error error ↔
      first = .error error ∨ ∃ value, first = .ok value ∧ next value = .error error := by
  cases first with
  | error cause => simp [bind, Except.bind]
  | ok value => simp [bind, Except.bind]

theorem map_eq_ok_iff {outcome : Except ε α} {function : α → β} {result : β} :
    outcome.map function = .ok result ↔ ∃ value, outcome = .ok value ∧ function value = result := by
  cases outcome with
  | error error => simp [Except.map]
  | ok value => simp [Except.map]

theorem mapError_eq_ok_iff {ε' : Type} {outcome : Except ε α} {function : ε → ε'} {result : α} :
    outcome.mapError function = .ok result ↔ outcome = .ok result := by
  cases outcome with
  | error error => simp [Except.mapError]
  | ok value => simp [Except.mapError]

theorem toOption_eq_some_iff {outcome : Except ε α} {value : α} :
    outcome.toOption = some value ↔ outcome = .ok value := by
  cases outcome with
  | error error => simp [Except.toOption]
  | ok found => simp [Except.toOption]

theorem exists_of_isOk {outcome : Except ε α} (succeeds : outcome.isOk = true) :
    ∃ value, outcome = .ok value := by
  cases outcome with
  | error error => cases succeeds
  | ok value => exact ⟨value, rfl⟩

/-! ## Lists -/

theorem exists_forall₂ {relation : α → β → Prop} {list : List α}
    (related : ∀ value ∈ list, ∃ result, relation value result) :
    ∃ results, List.Forall₂ relation list results := by
  induction list with
  | nil => exact ⟨[], .nil⟩
  | cons value rest induction =>
      obtain ⟨result, first⟩ := related value List.mem_cons_self
      obtain ⟨results, others⟩ := induction fun other member =>
        related other (List.mem_cons_of_mem value member)
      exact ⟨result :: results, .cons first others⟩

theorem exists_of_mem_left {relation : α → β → Prop} {list : List α} {results : List β}
    (related : List.Forall₂ relation list results) {value : α} (member : value ∈ list) :
    ∃ result ∈ results, relation value result := by
  induction related with
  | nil => cases member
  | @cons first result rest results holds others induction =>
      rcases List.mem_cons.mp member with rfl | member_rest
      · exact ⟨result, List.mem_cons_self, holds⟩
      · obtain ⟨found, found_mem, found_holds⟩ := induction member_rest
        exact ⟨found, List.mem_cons_of_mem result found_mem, found_holds⟩

theorem exists_of_mem_right {relation : α → β → Prop} {list : List α} {results : List β}
    (related : List.Forall₂ relation list results) {result : β} (member : result ∈ results) :
    ∃ value ∈ list, relation value result :=
  exists_of_mem_left related.flip member

/-- Lists that are related to the same list are related to each other. -/
theorem forall₂_of_common {relation other : α → β → Prop} {related : β → β → Prop}
    {list : List α} {results others : List β}
    (first : List.Forall₂ relation list results) (second : List.Forall₂ other list others)
    (combine : ∀ value result result', relation value result → other value result' →
      related result result') : List.Forall₂ related results others := by
  induction first generalizing others with
  | nil =>
      cases second
      exact .nil
  | cons holds _ induction =>
      cases second with
      | cons holds_other rest => exact .cons (combine _ _ _ holds holds_other) (induction rest)

/-- Results of a list of computations are the results of its members, in order. -/
theorem forall₂_of_mapM {function : α → Except ε β} {list : List α} {results : List β}
    (succeeds : list.mapM function = .ok results) :
    List.Forall₂ (fun value result => function value = .ok result) list results := by
  induction list generalizing results with
  | nil =>
      obtain rfl := Except.ok.inj succeeds
      exact .nil
  | cons value rest induction =>
      rw [List.mapM_cons] at succeeds
      obtain ⟨first, first_eq, more⟩ := bind_eq_ok_iff.mp succeeds
      obtain ⟨others, others_eq, done⟩ := bind_eq_ok_iff.mp more
      obtain rfl := Except.ok.inj done
      exact .cons first_eq (induction others_eq)

/-- A list of computations succeeds if each of its members does. -/
theorem exists_mapM {function : α → Except ε β} {list : List α}
    (succeeds : ∀ value ∈ list, ∃ result, function value = .ok result) :
    ∃ results, list.mapM function = .ok results := by
  induction list with
  | nil => exact ⟨[], rfl⟩
  | cons value rest induction =>
      obtain ⟨result, first⟩ := succeeds value List.mem_cons_self
      obtain ⟨results, others⟩ := induction fun other member =>
        succeeds other (List.mem_cons_of_mem value member)
      rw [List.mapM_cons]
      exact ⟨_, bind_eq_ok_iff.mpr ⟨result, first, bind_eq_ok_iff.mpr ⟨results, others, rfl⟩⟩⟩

/-- Runs that succeed after each other are one run that succeeds. -/
theorem foldlM_append_eq_ok {step : α → β → Except ε α} {state between last : α}
    {inputs others : List β} (first : inputs.foldlM step state = .ok between)
    (second : others.foldlM step between = .ok last) :
    (inputs ++ others).foldlM step state = .ok last := by
  rw [List.foldlM_append]
  exact bind_eq_ok_iff.mpr ⟨between, first, second⟩

theorem foldlM_singleton_eq_ok {step : α → β → Except ε α} {state last : α} {input : β}
    (succeeds : step state input = .ok last) : [input].foldlM step state = .ok last := by
  rw [List.foldlM_cons]
  exact bind_eq_ok_iff.mpr ⟨last, succeeds, rfl⟩

end StationGateway.Outcome
