import Mathlib.Tactic.SplitIfs
import StationGateway.Access.Claims
import StationGateway.Proofs.Order.Ascending

/-!
# Claims that have been read

What every member or item of a text keeps, the whole text keeps. So the clients of a claim set stand
in the order of their names, whatever the order in the token.
-/

namespace StationGateway.Access

variable {σ : Type} {holds : σ → Prop} {state final : σ} {text rest : List Char}

/-! ## Readers -/

private theorem holds_of_readItems {item : Nat → σ → List Char → Reading σ}
    (step : ∀ position before text after rest,
      item position before text = some (after, rest) → holds before → holds after)
    {budget position : Nat} (start : holds state)
    (read : readItems item budget position state text = some (final, rest)) : holds final := by
  induction budget generalizing position state text with
  | zero => cases read
  | succ budget induction =>
      rw [readItems] at read
      obtain ⟨⟨next, ahead⟩, item_eq, read⟩ := Option.bind_eq_some_iff.mp read
      have next_holds := step _ _ _ _ _ item_eq start
      dsimp only at read
      split at read
      · exact induction next_holds read
      · obtain ⟨rfl, -⟩ := Prod.mk.inj (Option.some.inj read)
        exact next_holds
      · cases read

/-- What every item of an array keeps, the array keeps. -/
theorem holds_of_readArray {item : Nat → σ → List Char → Reading σ}
    (step : ∀ position before text after rest,
      item position before text = some (after, rest) → holds before → holds after)
    (start : holds state) (read : readArray item state text = some (final, rest)) :
    holds final := by
  rw [readArray.eq_def] at read
  split at read
  · split at read
    · obtain ⟨rfl, -⟩ := Prod.mk.inj (Option.some.inj read)
      exact start
    · exact holds_of_readItems step start read
  · cases read

private theorem holds_of_readMembers {member : String → σ → List Char → Reading σ}
    (step : ∀ name before text after rest,
      member name before text = some (after, rest) → holds before → holds after)
    {budget : Nat} (start : holds state)
    (read : readMembers member budget state text = some (final, rest)) : holds final := by
  induction budget generalizing state text with
  | zero => cases read
  | succ budget induction =>
      rw [readMembers] at read
      split at read
      · split at read
        · obtain ⟨⟨next, ahead⟩, member_eq, read⟩ := Option.bind_eq_some_iff.mp read
          have next_holds := step _ _ _ _ _ member_eq start
          dsimp only at read
          split at read
          · exact induction next_holds read
          · obtain ⟨rfl, -⟩ := Prod.mk.inj (Option.some.inj read)
            exact next_holds
          · cases read
        · cases read
      · cases read

/-- What every member of an object keeps, the object keeps. -/
theorem holds_of_readObject {member : String → σ → List Char → Reading σ}
    (step : ∀ name before text after rest,
      member name before text = some (after, rest) → holds before → holds after)
    (start : holds state) (read : readObject member state text = some (final, rest)) :
    holds final := by
  rw [readObject.eq_def] at read
  split at read
  · split at read
    · obtain ⟨rfl, -⟩ := Prod.mk.inj (Option.some.inj read)
      exact start
    · exact holds_of_readMembers step start read
  · cases read

theorem exists_of_readOnce {α : Type} {known : Bool} {read : List Char → Reading α} {set : α → σ}
    (once : readOnce known read set text = some (final, rest)) :
    ∃ value, read text = some (value, rest) ∧ final = set value := by
  rw [readOnce] at once
  split_ifs at once
  obtain ⟨⟨value, ahead⟩, value_eq, pair_eq⟩ := Option.map_eq_some_iff.mp once
  obtain ⟨rfl, rfl⟩ := Prod.mk.inj pair_eq
  exact ⟨value, value_eq, rfl⟩

theorem eq_of_passOver (passed : passOver state text = some (final, rest)) : final = state := by
  obtain ⟨ahead, -, pair_eq⟩ := Option.map_eq_some_iff.mp passed
  exact (Prod.mk.inj pair_eq).1.symm

/-! ## Clients -/

theorem ascending_of_readClients {clients : List (String × List String)}
    (read : readClients text = some (clients, rest)) : Order.Ascending clients := by
  refine holds_of_readObject (fun name before text after rest found ascending => ?_)
    Order.ascending_nil read
  obtain ⟨⟨roles, ahead⟩, -, pair_eq⟩ := Option.map_eq_some_iff.mp found
  obtain ⟨rfl, -⟩ := Prod.mk.inj pair_eq
  exact ascending.put name roles

/-- Whether the clients that have been read stand in the order of their names. -/
def ClaimSlots.Sorted (slots : ClaimSlots) : Prop :=
  ∀ clients ∈ slots.clients, Order.Ascending clients

theorem ClaimSlots.Sorted.readNamed {slots later : ClaimSlots} (sorted : slots.Sorted)
    {name : String} (read : slots.readNamed name text = some (later, rest)) : later.Sorted := by
  rw [ClaimSlots.readNamed] at read
  split_ifs at read
  · obtain ⟨value, -, rfl⟩ := exists_of_readOnce read
    exact sorted
  · obtain ⟨clients, clients_eq, rfl⟩ := exists_of_readOnce read
    intro found is_found
    obtain rfl := Option.some.inj is_found
    exact ascending_of_readClients clients_eq
  · obtain ⟨value, -, rfl⟩ := exists_of_readOnce read
    exact sorted
  · obtain ⟨value, -, rfl⟩ := exists_of_readOnce read
    exact sorted
  · exact eq_of_passOver read ▸ sorted

namespace Claims

theorem ascending_of_ofOctets? {octets : List UInt8} {claims : Claims}
    (read : ofOctets? octets = some claims) : Order.Ascending claims.clientRoles := by
  have empty_sorted : ClaimSlots.empty.Sorted := fun clients found => nomatch found
  rw [ofOctets?] at read
  split at read
  · next slots rest found =>
    have sorted : slots.Sorted := by
      split at found
      · refine holds_of_readArray (fun position before text after rest item_eq before_sorted => ?_)
          empty_sorted found
        rw [ClaimSlots.readPlaced] at item_eq
        split at item_eq
        · exact before_sorted.readNamed item_eq
        · cases item_eq
      · exact holds_of_readObject (fun name before text after rest member_eq before_sorted =>
          before_sorted.readNamed member_eq) empty_sorted found
    split_ifs at read
    obtain rfl := Option.some.inj read
    rw [ClaimSlots.toClaims]
    cases clients_eq : slots.clients with
    | none => exact Order.ascending_nil
    | some clients => exact sorted clients clients_eq
  · cases read

/-- The clients of a token stand in the order of their names. -/
theorem ascending_of_ofToken? {token : String} {claims : Claims}
    (read : ofToken? token = some claims) : Order.Ascending claims.clientRoles := by
  obtain ⟨payload, -, read⟩ := Option.bind_eq_some_iff.mp read
  obtain ⟨octets, -, read⟩ := Option.bind_eq_some_iff.mp read
  exact ascending_of_ofOctets? read

end Claims

end StationGateway.Access
