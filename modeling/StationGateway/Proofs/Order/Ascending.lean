import Mathlib
import StationGateway.Order.Sorted
import StationGateway.Proofs.Order.Entries

/-!
# Ascending maps

A map with strictly ascending keys is known by its look-ups, and every operation on maps keeps the
keys ascending. -/

namespace StationGateway.Order

variable {α β : Type}

/-- Whether the keys of a map are strictly ascending. -/
def Ascending (map : List (String × β)) : Prop :=
  map.Pairwise fun first second => first.1 < second.1

instance (map : List (String × β)) : Decidable (Ascending map) :=
  inferInstanceAs (Decidable (map.Pairwise fun first second => first.1 < second.1))

theorem ascending_nil : Ascending ([] : List (String × β)) :=
  List.Pairwise.nil

theorem ascending_singleton (entry : String × β) : Ascending [entry] :=
  List.pairwise_singleton _ _

theorem ascending_of_keys_eq {map : List (String × α)} {other : List (String × β)}
    (ascending : Ascending map) (keys_eq : other.map (·.1) = map.map (·.1)) : Ascending other := by
  have sorted : (map.map (·.1)).Pairwise (· < ·) := List.pairwise_map.mpr ascending
  rw [← keys_eq] at sorted
  exact List.pairwise_map.mp sorted

/-! ## Look-ups -/

theorem mem_put {key : String} {value : β} {map : List (String × β)} {entry : String × β}
    (member : entry ∈ put key value map) : entry = (key, value) ∨ entry ∈ map := by
  induction map with
  | nil => exact .inl (List.mem_singleton.mp member)
  | cons first rest induction =>
      rw [put] at member
      split_ifs at member with is_before is_same
      · exact List.mem_cons.mp member
      · rcases List.mem_cons.mp member with is_new | in_rest
        · exact .inl is_new
        · exact .inr (List.mem_cons_of_mem first in_rest)
      · rcases List.mem_cons.mp member with is_first | in_rest
        · exact .inr (is_first ▸ List.mem_cons_self)
        · exact (induction in_rest).imp id (List.mem_cons_of_mem first)

theorem mem_of_mem_erase {key : String} {map : List (String × β)} {entry : String × β}
    (member : entry ∈ erase key map) : entry ∈ map := by
  induction map with
  | nil => cases member
  | cons first rest induction =>
      rw [erase] at member
      split_ifs at member with is_same
      · exact List.mem_cons_of_mem first member
      · rcases List.mem_cons.mp member with is_first | in_rest
        · exact is_first ▸ List.mem_cons_self
        · exact List.mem_cons_of_mem first (induction in_rest)

@[simp] theorem find?_put (key other : String) (value : β) (map : List (String × β)) :
    find? key (put other value map) = if key = other then some value else find? key map := by
  induction map with
  | nil => simp [put, find?]
  | cons first rest induction =>
      rw [put]
      by_cases is_found : key = other
      · subst is_found
        rw [if_pos rfl] at induction ⊢
        split_ifs with is_before is_same
        · rw [find?, if_pos rfl]
        · rw [find?, if_pos rfl]
        · rw [find?, if_neg is_same, induction]
      · rw [if_neg is_found] at induction ⊢
        split_ifs with is_before is_same
        · rw [find?, if_neg is_found]
        · rw [find?, if_neg is_found, find?, if_neg (is_same ▸ is_found)]
        · rw [find?, find?, induction]

theorem find?_eq_none {key : String} {map : List (String × β)}
    (absent : ∀ entry ∈ map, entry.1 ≠ key) : find? key map = none := by
  induction map with
  | nil => rfl
  | cons first rest induction =>
      rw [find?, if_neg (Ne.symm (absent first List.mem_cons_self)),
        induction fun other member => absent other (List.mem_cons_of_mem first member)]

theorem find?_erase_of_ne {key other : String} (ne : key ≠ other) (map : List (String × β)) :
    find? key (erase other map) = find? key map := by
  induction map with
  | nil => rfl
  | cons first rest induction =>
      rw [erase]
      by_cases is_other : other = first.1
      · rw [if_pos is_other, find?, if_neg fun is_first => ne (is_first.trans is_other.symm)]
      · rw [if_neg is_other, find?, find?, induction]

theorem find?_of_mem {map : List (String × β)} (ascending : Ascending map) {key : String} {value : β}
    (member : (key, value) ∈ map) : find? key map = some value := by
  induction map with
  | nil => cases member
  | cons first rest induction =>
      obtain ⟨above, rest_ascending⟩ := List.pairwise_cons.mp ascending
      rcases List.mem_cons.mp member with rfl | in_rest
      · rw [find?, if_pos rfl]
      · have first_lt := above _ in_rest
        rw [find?, if_neg first_lt.ne', induction rest_ascending in_rest]

theorem find?_isSome_iff {map : List (String × β)} {key : String} :
    (find? key map).isSome ↔ key ∈ map.map (·.1) := by
  induction map with
  | nil => simp [find?]
  | cons first rest induction =>
      rw [find?, List.map_cons, List.mem_cons]
      split_ifs with is_found
      · simp [is_found]
      · simp [is_found, induction]

theorem find?_map (image : α → β) (key : String) (map : List (String × α)) :
    find? key (map.map fun entry => (entry.1, image entry.2)) = (find? key map).map image := by
  induction map with
  | nil => rfl
  | cons first rest induction =>
      rw [List.map_cons, find?, find?, induction]
      split_ifs with is_found
      · rfl
      · rfl

/-! ## What keeps keys ascending -/

theorem Ascending.put {map : List (String × β)} (ascending : Ascending map) (key : String)
    (value : β) : Ascending (put key value map) := by
  induction map with
  | nil => exact ascending_singleton _
  | cons first rest induction =>
      obtain ⟨above, rest_ascending⟩ := List.pairwise_cons.mp ascending
      rw [Order.put]
      split_ifs with is_before is_same
      · refine List.pairwise_cons.mpr ⟨fun entry member => ?_, ascending⟩
        rcases List.mem_cons.mp member with rfl | in_rest
        · exact is_before
        · exact is_before.trans (above entry in_rest)
      · exact List.pairwise_cons.mpr ⟨fun entry member => is_same ▸ above entry member, rest_ascending⟩
      · refine List.pairwise_cons.mpr ⟨fun entry member => ?_, induction rest_ascending⟩
        rcases mem_put member with rfl | in_rest
        · exact lt_of_le_of_ne (not_lt.mp is_before) (Ne.symm is_same)
        · exact above entry in_rest

theorem Ascending.erase {map : List (String × β)} (ascending : Ascending map) (key : String) :
    Ascending (erase key map) := by
  induction map with
  | nil => exact ascending_nil
  | cons first rest induction =>
      obtain ⟨above, rest_ascending⟩ := List.pairwise_cons.mp ascending
      rw [Order.erase]
      split_ifs with is_same
      · exact rest_ascending
      · exact List.pairwise_cons.mpr
          ⟨fun entry member => above entry (mem_of_mem_erase member), induction rest_ascending⟩

theorem Ascending.putAll {map : List (String × β)} (ascending : Ascending map)
    (entries : List (String × β)) : Ascending (putAll map entries) := by
  induction entries generalizing map with
  | nil => exact ascending
  | cons entry rest induction => exact induction (ascending.put entry.1 entry.2)

theorem ascending_mapOfList (entries : List (String × β)) : Ascending (mapOfList entries) :=
  ascending_nil.putAll entries

theorem Ascending.map {map : List (String × α)} (ascending : Ascending map) (image : α → β) :
    Ascending (map.map fun entry => (entry.1, image entry.2)) :=
  ascending_of_keys_eq ascending (by simp [Function.comp_def])

theorem find?_erase {map : List (String × β)} (ascending : Ascending map) (key other : String) :
    find? key (erase other map) = if key = other then none else find? key map := by
  induction map with
  | nil => simp [erase, find?]
  | cons first rest induction =>
      obtain ⟨above, rest_ascending⟩ := List.pairwise_cons.mp ascending
      rw [erase]
      by_cases is_found : key = other
      · subst is_found
        rw [if_pos rfl] at induction ⊢
        split_ifs with is_same
        · exact find?_eq_none fun entry member => is_same ▸ (above entry member).ne'
        · rw [find?, if_neg is_same, induction rest_ascending]
      · rw [if_neg is_found] at induction ⊢
        split_ifs with is_same
        · rw [find?, if_neg (is_same ▸ is_found)]
        · rw [find?, find?, induction rest_ascending]

/-- Ascending maps with the same look-ups are equal. -/
theorem eq_of_find?_eq {map other : List (String × β)} (ascending : Ascending map)
    (other_ascending : Ascending other) (same : ∀ key, find? key map = find? key other) :
    map = other := by
  have nodup : ∀ {entries : List (String × β)}, Ascending entries → entries.Nodup :=
    fun entries_ascending => entries_ascending.imp fun lt same => lt.ne (congrArg Prod.fst same)
  have same_members : ∀ entry, entry ∈ map ↔ entry ∈ other := by
    rintro ⟨key, value⟩
    constructor
    · exact fun member => mem_of_find? (same key ▸ find?_of_mem ascending member)
    · exact fun member => mem_of_find? ((same key).symm ▸ find?_of_mem other_ascending member)
  have permuted : map.Perm other :=
    (List.perm_ext_iff_of_nodup (nodup ascending) (nodup other_ascending)).mpr same_members
  exact permuted.eq_of_pairwise (fun _ _ _ _ lt gt => absurd gt lt.not_gt) ascending other_ascending

theorem put_of_find? {map : List (String × β)} (ascending : Ascending map) {key : String} {value : β}
    (found : find? key map = some value) : put key value map = map := by
  refine eq_of_find?_eq (ascending.put key value) ascending fun other => ?_
  rw [find?_put]
  split_ifs with is_key
  · rw [is_key, found]
  · rfl

theorem mem_put_of_ascending {map : List (String × β)} (ascending : Ascending map) {key : String}
    {value : β} {entry : String × β} (member : entry ∈ put key value map) :
    entry = (key, value) ∨ entry ∈ map ∧ entry.1 ≠ key := by
  have found := find?_of_mem (ascending.put key value) member
  rw [find?_put] at found
  split_ifs at found with is_key
  · exact .inl (Prod.ext is_key (Option.some.inj found).symm)
  · exact .inr ⟨mem_of_find? found, is_key⟩

/-! ## Images -/

theorem map_put (image : α → β) (key : String) (value : α) (map : List (String × α)) :
    (put key value map).map (fun entry => (entry.1, image entry.2)) =
      put key (image value) (map.map fun entry => (entry.1, image entry.2)) := by
  induction map with
  | nil => rfl
  | cons first rest induction =>
      simp only [put, List.map_cons]
      split_ifs with is_before is_same
      · rfl
      · rfl
      · rw [List.map_cons, induction]

theorem map_erase (image : α → β) (key : String) (map : List (String × α)) :
    (erase key map).map (fun entry => (entry.1, image entry.2)) =
      erase key (map.map fun entry => (entry.1, image entry.2)) := by
  induction map with
  | nil => rfl
  | cons first rest induction =>
      simp only [erase, List.map_cons]
      split_ifs with is_same
      · rfl
      · rw [List.map_cons, induction]

/-! ## Sums -/

/-- The sum of what the entries of a map weigh. -/
def total (weight : β → Nat) (map : List (String × β)) : Nat :=
  (map.map fun entry => weight entry.2).sum

@[simp] theorem total_nil (weight : β → Nat) : total weight [] = 0 := rfl

@[simp] theorem total_cons (weight : β → Nat) (entry : String × β) (rest : List (String × β)) :
    total weight (entry :: rest) = weight entry.2 + total weight rest :=
  List.sum_cons

/-- Putting an entry into a map takes away what was there under its key. -/
theorem total_put {map : List (String × β)} (ascending : Ascending map) (weight : β → Nat)
    (key : String) (value : β) :
    total weight (put key value map) + ((find? key map).map weight).getD 0 =
      total weight map + weight value := by
  induction map with
  | nil => simp [put, find?]
  | cons first rest induction =>
      obtain ⟨above, rest_ascending⟩ := List.pairwise_cons.mp ascending
      rw [put, find?]
      split_ifs with is_before is_same is_same
      · exact absurd is_same is_before.ne
      · have absent : find? key rest = none :=
          find?_eq_none fun entry member => (is_before.trans (above entry member)).ne'
        simp only [absent, Option.map_none, Option.getD_none, total_cons]
        omega
      · simp only [Option.map_some, Option.getD_some, total_cons]
        omega
      · have rest_eq := induction rest_ascending
        simp only [total_cons]
        omega

theorem total_put_le (weight : β → Nat) (key : String) (value : β) (map : List (String × β)) :
    total weight (put key value map) ≤ total weight map + weight value := by
  induction map with
  | nil => simp [put]
  | cons first rest induction =>
      rw [put]
      split_ifs with is_before is_same
      · simp only [total_cons]
        omega
      · simp only [total_cons]
        omega
      · simp only [total_cons]
        omega

/-- Erasing a key takes away what was there under it. -/
theorem total_erase (weight : β → Nat) (key : String) (map : List (String × β)) :
    total weight (erase key map) + ((find? key map).map weight).getD 0 = total weight map := by
  induction map with
  | nil => rfl
  | cons first rest induction =>
      rw [erase, find?]
      split_ifs with is_same
      · simp only [Option.map_some, Option.getD_some, total_cons]
        omega
      · simp only [total_cons]
        omega

theorem total_erase_le (weight : β → Nat) (key : String) (map : List (String × β)) :
    total weight (erase key map) ≤ total weight map :=
  total_erase weight key map ▸ Nat.le_add_right _ _

end StationGateway.Order
