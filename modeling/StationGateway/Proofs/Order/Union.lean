import Mathlib
import StationGateway.Proofs.Order.Ascending

/-!
# Unions of maps

The union of two maps, where the values under shared keys are combined. What is in it comes from one
of the maps alone or from a shared key. -/

namespace StationGateway.Order

variable {α β : Type}

/-- The entries of two maps, with the values under shared keys combined. -/
def unionWith (combine : β → β → β) (own more : List (String × β)) : List (String × β) :=
  more.foldl
    (fun all entry =>
      put entry.1 (((find? entry.1 all).map fun old => combine old entry.2).getD entry.2) all)
    own

/-- The values under shared keys, those of the second map first. -/
def shared (own : List (String × α)) (more : List (String × β)) : List (β × α) :=
  more.filterMap fun entry => (find? entry.1 own).map fun old => (entry.2, old)

/-- The entries of a map under keys that another one lacks. -/
def without (map : List (String × α)) (others : List (String × β)) : List (String × α) :=
  map.filter fun entry => (find? entry.1 others).isNone

variable {combine : β → β → β} {own more : List (String × β)}

@[simp] theorem unionWith_nil (combine : β → β → β) (own : List (String × β)) :
    unionWith combine own [] = own := rfl

theorem unionWith_cons (combine : β → β → β) (own : List (String × β)) (entry : String × β)
    (rest : List (String × β)) :
    unionWith combine own (entry :: rest) =
      unionWith combine
        (put entry.1 (((find? entry.1 own).map fun old => combine old entry.2).getD entry.2) own) rest :=
  rfl

theorem Ascending.unionWith (ascending : Ascending own) (combine : β → β → β)
    (more : List (String × β)) : Ascending (unionWith combine own more) := by
  induction more generalizing own with
  | nil => exact ascending
  | cons entry rest induction =>
      rw [unionWith_cons]
      exact induction (ascending.put _ _)

/-- What is under a key of a union. -/
theorem find?_unionWith (more_ascending : Ascending more) (own : List (String × β)) (key : String) :
    find? key (unionWith combine own more) =
      (find? key own).merge combine (find? key more) := by
  induction more generalizing own with
  | nil => rw [unionWith_nil, find?, Option.merge_none_right]
  | cons entry rest induction =>
      obtain ⟨above, rest_ascending⟩ := List.pairwise_cons.mp more_ascending
      rw [unionWith_cons, induction rest_ascending, find?_put]
      by_cases is_entry : key = entry.1
      · subst is_entry
        have absent : find? entry.1 rest = none :=
          find?_eq_none fun other member => (above other member).ne'
        rw [if_pos rfl, absent, find?, if_pos rfl, Option.merge_none_right]
        cases find? entry.1 own with
        | none => rfl
        | some old => rfl
      · rw [if_neg is_entry, find?, if_neg is_entry]

theorem shared_put {key : String} {rest : List (String × β)}
    (absent : ∀ entry ∈ rest, entry.1 ≠ key) (value : α) (own : List (String × α)) :
    shared (put key value own) rest = shared own rest := by
  refine List.filterMap_congr fun entry member => ?_
  rw [find?_put, if_neg (absent entry member)]

theorem mem_shared {own : List (String × α)} {pair : β × α} :
    pair ∈ shared own more ↔
      ∃ key, (key, pair.1) ∈ more ∧ find? key own = some pair.2 := by
  rw [shared, List.mem_filterMap]
  constructor
  · rintro ⟨⟨key, value⟩, member, found⟩
    obtain ⟨old, found_old, rfl⟩ := Option.map_eq_some_iff.mp found
    exact ⟨key, member, found_old⟩
  · rintro ⟨key, member, found⟩
    exact ⟨(key, pair.1), member, by rw [found]; rfl⟩

/-- What is in a union comes from one of the maps alone or from a shared key. -/
theorem mem_unionWith (own_ascending : Ascending own) (more_ascending : Ascending more)
    {entry : String × β} (member : entry ∈ unionWith combine own more) :
    entry ∈ without own more ∨ entry ∈ without more own ∨
      ∃ pair ∈ shared own more, entry.2 = combine pair.2 pair.1 := by
  have found := find?_of_mem (own_ascending.unionWith combine more) member
  rw [find?_unionWith more_ascending] at found
  cases found_own : find? entry.1 own with
  | none =>
      rw [found_own, Option.merge_none_left] at found
      refine .inr (.inl (List.mem_filter.mpr ⟨mem_of_find? found, ?_⟩))
      rw [found_own]
      rfl
  | some old =>
      rw [found_own] at found
      cases found_more : find? entry.1 more with
      | none =>
          rw [found_more, Option.merge_none_right] at found
          obtain rfl := Option.some.inj found
          refine .inl (List.mem_filter.mpr ⟨mem_of_find? found_own, ?_⟩)
          rw [found_more]
          rfl
      | some new =>
          rw [found_more, Option.merge_some_some] at found
          exact .inr (.inr ⟨(new, old), mem_shared.mpr ⟨entry.1, mem_of_find? found_more, found_own⟩,
            (Option.some.inj found).symm⟩)

/-! ## Images -/

theorem map_unionWith (image : α → β) {combineImages : β → β → β} {combine : α → α → α}
    {own more : List (String × α)} (more_ascending : Ascending more)
    (same : ∀ pair ∈ shared own more,
      image (combine pair.2 pair.1) = combineImages (image pair.2) (image pair.1)) :
    (unionWith combine own more).map (fun entry => (entry.1, image entry.2)) =
      unionWith combineImages (own.map fun entry => (entry.1, image entry.2))
        (more.map fun entry => (entry.1, image entry.2)) := by
  induction more generalizing own with
  | nil => rfl
  | cons entry rest induction =>
      obtain ⟨above, rest_ascending⟩ := List.pairwise_cons.mp more_ascending
      have absent : ∀ other ∈ rest, other.1 ≠ entry.1 := fun other member => (above other member).ne'
      rw [unionWith_cons, List.map_cons, unionWith_cons, induction rest_ascending, map_put, find?_map]
      · congr 2
        cases found : find? entry.1 own with
        | none => rfl
        | some old =>
            exact same (entry.2, old) (mem_shared.mpr ⟨entry.1, List.mem_cons_self, found⟩)
      · intro pair member
        rw [shared_put absent] at member
        obtain ⟨key, in_rest, found⟩ := mem_shared.mp member
        exact same pair (mem_shared.mpr ⟨key, List.mem_cons_of_mem entry in_rest, found⟩)

theorem shared_map (image : α → β) (own more : List (String × α)) :
    shared (own.map fun entry => (entry.1, image entry.2))
        (more.map fun entry => (entry.1, image entry.2)) =
      (shared own more).map fun pair => (image pair.1, image pair.2) := by
  rw [shared, shared, List.filterMap_map, List.map_filterMap]
  refine List.filterMap_congr fun entry _ => ?_
  rw [Function.comp_apply, find?_map, Option.map_map, Option.map_map]
  rfl

/-! ## Sums -/

theorem total_filter_ne {map : List (String × α)} (ascending : Ascending map) (weight : α → Nat)
    {key : String} {value : α} (found : find? key map = some value) :
    total weight (map.filter fun entry => entry.1 ≠ key) + weight value = total weight map := by
  induction map with
  | nil => cases found
  | cons first rest induction =>
      obtain ⟨above, rest_ascending⟩ := List.pairwise_cons.mp ascending
      rw [find?] at found
      by_cases is_first : key = first.1
      · rw [if_pos is_first] at found
        have rest_kept : (rest.filter fun entry => entry.1 ≠ key) = rest :=
          List.filter_eq_self.mpr fun entry member =>
            decide_eq_true (is_first ▸ (above entry member).ne')
        rw [List.filter_cons_of_neg (by simp [is_first]), rest_kept, total_cons, Option.some.inj found,
          Nat.add_comm]
      · rw [if_neg is_first] at found
        have rest_eq := induction rest_ascending found
        rw [List.filter_cons_of_pos (by simp [Ne.symm is_first]), total_cons, total_cons]
        omega

theorem le_total_of_mem (weight : α → Nat) {map : List (String × α)} {entry : String × α}
    (member : entry ∈ map) : weight entry.2 ≤ total weight map := by
  induction map with
  | nil => cases member
  | cons first rest induction =>
      rw [total_cons]
      rcases List.mem_cons.mp member with rfl | in_rest
      · exact Nat.le_add_right _ _
      · exact Nat.le_trans (induction in_rest) (Nat.le_add_left _ _)

/-- Values under different keys count separately. -/
theorem add_le_total {map : List (String × α)} (ascending : Ascending map) (weight : α → Nat)
    {entry : String × α} (member : entry ∈ map) {key : String} {value : α}
    (found : find? key map = some value) (ne : entry.1 ≠ key) :
    weight entry.2 + weight value ≤ total weight map := by
  have filtered := total_filter_ne ascending weight found
  have kept : entry ∈ map.filter fun other => other.1 ≠ key :=
    List.mem_filter.mpr ⟨member, decide_eq_true ne⟩
  have entry_le := le_total_of_mem weight kept
  omega

theorem find?_without {map : List (String × α)} {others : List (String × β)} {key : String}
    (absent : find? key others = none) : find? key (without map others) = find? key map := by
  induction map with
  | nil => rfl
  | cons first rest induction =>
      rw [without] at induction ⊢
      by_cases is_first : key = first.1
      · subst is_first
        rw [List.filter_cons_of_pos (by rw [absent]; rfl), find?, if_pos rfl, find?, if_pos rfl]
      · rw [find?, if_neg is_first, ← induction, List.filter_cons]
        split
        · rw [find?, if_neg is_first]
        · rfl

theorem without_cons (map : List (String × α)) (entry : String × β) (rest : List (String × β)) :
    without map (entry :: rest) = (without map rest).filter fun other => other.1 ≠ entry.1 := by
  rw [without, without, List.filter_filter]
  refine List.filter_congr fun other _ => ?_
  rw [find?]
  split
  next same => simp [same]
  next ne => simp [ne]

/-- The second map weighs what it has under shared keys and what it has alone. -/
theorem total_more (weight : β → Nat) (own : List (String × α)) (more : List (String × β)) :
    ((shared own more).map fun pair => weight pair.1).sum + total weight (without more own) =
      total weight more := by
  induction more with
  | nil => rfl
  | cons entry rest induction =>
      rw [shared, without] at induction ⊢
      cases found : find? entry.1 own with
      | none =>
          rw [List.filterMap_cons_none (by rw [found]; rfl),
            List.filter_cons_of_pos (by rw [found]; rfl), total_cons, total_cons]
          omega
      | some old =>
          rw [List.filterMap_cons_some (by rw [found]; rfl),
            List.filter_cons_of_neg (by rw [found]; simp)]
          simp only [List.map_cons, List.sum_cons, total_cons]
          omega

/-- The first map weighs what it has under shared keys and what it has alone. -/
theorem total_own {own : List (String × α)} (own_ascending : Ascending own)
    (more_ascending : Ascending more) (weight : α → Nat) :
    ((shared own more).map fun pair => weight pair.2).sum + total weight (without own more) =
      total weight own := by
  induction more with
  | nil =>
      have kept : without own ([] : List (String × β)) = own := List.filter_eq_self.mpr fun _ _ => rfl
      rw [kept]
      exact Nat.zero_add _
  | cons entry rest induction =>
      obtain ⟨above, rest_ascending⟩ := List.pairwise_cons.mp more_ascending
      have absent : find? entry.1 rest = none :=
        find?_eq_none fun other member => (above other member).ne'
      have rest_eq := induction rest_ascending
      have without_ascending : Ascending (without own rest) := own_ascending.filter _
      rw [without_cons]
      rw [shared] at rest_eq ⊢
      cases found : find? entry.1 own with
      | none =>
          have kept : ((without own rest).filter fun other => other.1 ≠ entry.1) = without own rest := by
            refine List.filter_eq_self.mpr fun other member => decide_eq_true fun same => ?_
            have in_own := find?_of_mem own_ascending (List.mem_filter.mp member).1
            rw [same, found] at in_own
            cases in_own
          rw [List.filterMap_cons_none (by rw [found]; rfl), kept, rest_eq]
      | some old =>
          have found_without : find? entry.1 (without own rest) = some old := by
            rw [find?_without absent, found]
          have filtered := total_filter_ne without_ascending weight found_without
          rw [List.filterMap_cons_some (by rw [found]; rfl)]
          simp only [List.map_cons, List.sum_cons]
          omega

/-- Two maps together weigh what they share and what each has alone. -/
theorem total_add_total (own_ascending : Ascending own) (more_ascending : Ascending more)
    (weight : β → Nat) :
    ((shared own more).map fun pair => weight pair.1 + weight pair.2).sum +
        (total weight (without own more) + total weight (without more own)) =
      total weight own + total weight more := by
  have more_eq := total_more weight own more
  have own_eq := total_own own_ascending more_ascending weight
  rw [List.sum_map_add]
  omega

theorem without_put {key : String} {rest : List (String × β)} (absent : ∀ entry ∈ rest, entry.1 ≠ key)
    (value : α) (own : List (String × α)) : without rest (put key value own) = without rest own := by
  refine List.filter_congr fun entry member => ?_
  rw [find?_put, if_neg (absent entry member)]

/-- A union weighs what the combined values weigh and what each map has alone. -/
theorem total_unionWith (own_ascending : Ascending own) (more_ascending : Ascending more)
    (weight : β → Nat) :
    total weight (unionWith combine own more) =
      total weight (without own more) + total weight (without more own) +
        ((shared own more).map fun pair => weight (combine pair.2 pair.1)).sum := by
  -- in this form nothing is taken away, so the sums can be followed entry by entry
  suffices balanced : total weight (unionWith combine own more) +
      ((shared own more).map fun pair => weight pair.2).sum =
        total weight own + total weight (without more own) +
          ((shared own more).map fun pair => weight (combine pair.2 pair.1)).sum by
    have own_eq := total_own own_ascending more_ascending weight
    omega
  induction more generalizing own with
  | nil => rfl
  | cons entry rest induction =>
      obtain ⟨above, rest_ascending⟩ := List.pairwise_cons.mp more_ascending
      have absent : ∀ other ∈ rest, other.1 ≠ entry.1 := fun other member => (above other member).ne'
      have rest_eq := fun value => induction (own_ascending.put entry.1 value) rest_ascending
      have put_eq := total_put own_ascending weight entry.1
      simp only [shared_put absent, without_put absent] at rest_eq
      rw [unionWith_cons]
      rw [shared, without] at rest_eq ⊢
      cases found : find? entry.1 own with
      | none =>
          have rest_eq := rest_eq entry.2
          have put_eq := put_eq entry.2
          rw [List.filterMap_cons_none (by rw [found]; rfl),
            List.filter_cons_of_pos (by rw [found]; rfl)]
          simp only [found, Option.map_none, Option.getD_none, total_cons] at put_eq ⊢
          omega
      | some old =>
          have rest_eq := rest_eq (combine old entry.2)
          have put_eq := put_eq (combine old entry.2)
          rw [List.filterMap_cons_some (by rw [found]; rfl),
            List.filter_cons_of_neg (by rw [found]; simp)]
          simp only [found, Option.map_some, Option.getD_some, List.map_cons, List.sum_cons] at put_eq ⊢
          omega

end StationGateway.Order
