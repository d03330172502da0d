import StationGateway.Proofs.Order.Ascending

/-!
# Maps gathered from lists

A map that is filled from a list whose keys differ has what the list has, and the map that sends every
key of a set to its image has the members of the set as its keys. -/

namespace StationGateway.Order

variable {α β : Type}

/-! ## Lists whose keys differ -/

theorem find?_append (key : String) (map more : List (String × β)) :
    find? key (map ++ more) = (find? key map).or (find? key more) := by
  induction map with
  | nil => rfl
  | cons entry rest induction =>
      rw [List.cons_append, find?, find?, induction]
      split_ifs with is_entry
      · rfl
      · rfl

theorem find?_eq_none_of_not_mem {key : String} {map : List (String × β)}
    (absent : key ∉ map.map (·.1)) : find? key map = none :=
  find?_eq_none fun _ member same => absent (List.mem_map.mpr ⟨_, member, same⟩)

theorem nodup_keys {map : List (String × β)} (ascending : Ascending map) :
    (map.map (·.1)).Nodup :=
  List.pairwise_map.mpr (ascending.imp fun lt => lt.ne)

theorem find?_putAll {entries : List (String × β)} (nodup : (entries.map (·.1)).Nodup) (key : String)
    (map : List (String × β)) :
    find? key (putAll map entries) = (find? key entries).or (find? key map) := by
  induction entries generalizing map with
  | nil => rfl
  | cons entry rest induction =>
      obtain ⟨entry_new, rest_nodup⟩ := List.nodup_cons.mp nodup
      rw [putAll, List.foldl_cons, ← putAll, induction rest_nodup, find?_put, find?]
      split_ifs with is_entry
      · subst is_entry
        rw [find?_eq_none_of_not_mem entry_new, Option.none_or, Option.some_or]
      · rfl

theorem find?_mapOfList {entries : List (String × β)} (nodup : (entries.map (·.1)).Nodup)
    (key : String) : find? key (mapOfList entries) = find? key entries :=
  (find?_putAll nodup key []).trans Option.or_none

theorem mem_putAll {map entries : List (String × β)} {entry : String × β}
    (member : entry ∈ putAll map entries) : entry ∈ map ∨ entry ∈ entries := by
  induction entries using List.reverseRecOn with
  | nil => exact .inl member
  | append_singleton entries last induction =>
      rw [putAll, List.foldl_append, List.foldl_cons, List.foldl_nil, ← putAll] at member
      rcases mem_put member with rfl | before
      · exact .inr (List.mem_append_right _ List.mem_cons_self)
      · exact (induction before).imp_right (List.mem_append_left _)

theorem mem_of_mem_mapOfList {entries : List (String × β)} {entry : String × β}
    (member : entry ∈ mapOfList entries) : entry ∈ entries := by
  rcases mem_putAll member with in_nothing | within
  · cases in_nothing
  · exact within

/-- Of entries with the same key the last one counts. -/
theorem find?_putAll_reverse (key : String) (map entries : List (String × β)) :
    find? key (putAll map entries) = (find? key entries.reverse).or (find? key map) := by
  induction entries generalizing map with
  | nil => rfl
  | cons entry rest induction =>
      rw [putAll, List.foldl_cons, ← putAll, induction, find?_put, List.reverse_cons, find?_append,
        Option.or_assoc, find?]
      split_ifs with is_entry
      · rw [Option.some_or]
      · rw [find?, Option.none_or]

/-- Putting the same entries over a map once more changes nothing. -/
theorem putAll_putAll {map : List (String × β)} (ascending : Ascending map)
    (entries : List (String × β)) : putAll (putAll map entries) entries = putAll map entries := by
  have once := ascending.putAll entries
  refine eq_of_find?_eq (once.putAll entries) once fun key => ?_
  rw [find?_putAll_reverse, find?_putAll_reverse]
  cases find? key entries.reverse <;> rfl

/-- Entries that are there already change nothing. -/
theorem putAll_of_find? {map entries : List (String × β)} (ascending : Ascending map)
    (present : ∀ entry ∈ entries, find? entry.1 map = some entry.2) : putAll map entries = map := by
  induction entries with
  | nil => rfl
  | cons entry rest induction =>
      obtain ⟨entry_present, rest_present⟩ := List.forall_mem_cons.mp present
      rw [putAll, List.foldl_cons, put_of_find? ascending entry_present]
      exact induction rest_present

theorem find?_eq_some_of_mem {entries : List (String × β)} (nodup : (entries.map (·.1)).Nodup)
    {key : String} {value : β} (member : (key, value) ∈ entries) :
    find? key entries = some value := by
  induction entries with
  | nil => cases member
  | cons entry rest induction =>
      obtain ⟨entry_new, rest_nodup⟩ := List.nodup_cons.mp nodup
      rcases List.mem_cons.mp member with rfl | in_rest
      · rw [find?, if_pos rfl]
      · have key_ne : key ≠ entry.1 := fun same =>
          entry_new (List.mem_map.mpr ⟨_, in_rest, same⟩)
        rw [find?, if_neg key_ne, induction rest_nodup in_rest]

theorem mapOfList_of_ascending {map : List (String × β)} (ascending : Ascending map) :
    mapOfList map = map :=
  eq_of_find?_eq (ascending_mapOfList map) ascending (find?_mapOfList (nodup_keys ascending))

theorem mapOfList_isEmpty {entries : List (String × β)} (nodup : (entries.map (·.1)).Nodup) :
    (mapOfList entries).isEmpty = entries.isEmpty := by
  cases entries with
  | nil => rfl
  | cons entry rest =>
      have found := find?_mapOfList nodup entry.1
      rw [find?, if_pos rfl] at found
      cases gathered : mapOfList (entry :: rest) with
      | nil =>
          rw [gathered] at found
          cases found
      | cons first others => rfl

/-! ## Sets of keys -/

section

variable [LT α] [DecidableLT α] [DecidableEq α] {key new : α}

theorem mem_insert {set : List α} : key ∈ insert new set ↔ key = new ∨ key ∈ set := by
  induction set with
  | nil => simp [insert]
  | cons first rest induction =>
      rw [insert]
      split_ifs with is_before is_same
      · exact List.mem_cons
      · rw [is_same, List.mem_cons, ← or_assoc, or_self]
      · rw [List.mem_cons, induction, List.mem_cons, or_left_comm]

theorem mem_ofList {keys : List α} : key ∈ ofList keys ↔ key ∈ keys := by
  have from_set : ∀ set : List α,
      key ∈ keys.foldl (fun set member => insert member set) set ↔ key ∈ keys ∨ key ∈ set := by
    induction keys with
    | nil => simp
    | cons first rest induction =>
        intro set
        rw [List.foldl_cons, induction, mem_insert, List.mem_cons, or_assoc, or_left_comm]
  exact (from_set []).trans (by simp)

variable [IsStrictTotalOrder α (· < ·)]

theorem pairwise_insert {set : List α} (sorted : set.Pairwise (· < ·)) (new : α) :
    (insert new set).Pairwise (· < ·) := by
  induction set with
  | nil => exact List.pairwise_singleton _ _
  | cons first rest induction =>
      obtain ⟨below, rest_sorted⟩ := List.pairwise_cons.mp sorted
      rw [insert]
      split_ifs with is_before is_same
      · refine List.pairwise_cons.mpr ⟨fun other member => ?_, sorted⟩
        rcases List.mem_cons.mp member with rfl | in_rest
        · exact is_before
        · exact Trans.trans is_before (below other in_rest)
      · exact sorted
      · refine List.pairwise_cons.mpr ⟨fun other member => ?_, induction rest_sorted⟩
        rcases mem_insert.mp member with rfl | in_rest
        · exact ((trichotomous_of (· < ·) other first).resolve_left is_before).resolve_left is_same
        · exact below other in_rest

theorem pairwise_ofList (keys : List α) : (ofList keys).Pairwise (· < ·) :=
  List.foldlRecOn (motive := fun set : List α => set.Pairwise (· < ·)) keys _ List.Pairwise.nil
    fun _ sorted key _ => pairwise_insert sorted key

/-- A set is determined by its members. -/
theorem ofList_congr {keys others : List α} (same : ∀ key, key ∈ keys ↔ key ∈ others) :
    ofList keys = ofList others := by
  have nodup : ∀ keys : List α, (ofList keys).Nodup := by
    refine fun keys => (pairwise_ofList keys).imp ?_
    rintro key _ lt rfl
    exact irrefl_of (· < ·) key lt
  have permuted : (ofList keys).Perm (ofList others) :=
    (List.perm_ext_iff_of_nodup (nodup keys) (nodup others)).mpr fun key => by
      rw [mem_ofList, mem_ofList, same]
  exact permuted.eq_of_pairwise (fun _ _ _ _ lt gt => absurd gt (asymm_of (· < ·) lt))
    (pairwise_ofList keys) (pairwise_ofList others)

end

theorem ascending_map_keys {keys : List String} (sorted : keys.Pairwise (· < ·)) (image : String → β) :
    Ascending (keys.map fun key => (key, image key)) :=
  List.pairwise_map.mpr sorted

theorem find?_map_keys (image : String → β) (key : String) (keys : List String) :
    find? key (keys.map fun key => (key, image key)) =
      if key ∈ keys then some (image key) else none := by
  induction keys with
  | nil => rfl
  | cons first rest induction =>
      rw [List.map_cons, find?, induction]
      by_cases is_first : key = first
      · subst is_first
        rw [if_pos rfl, if_pos List.mem_cons_self]
      · simp [is_first]

/-! ## Maps to lists -/

theorem find?_filter_of_key {key : String} (keep : String → Bool) (kept : keep key = true)
    (map : List (String × β)) : find? key (map.filter fun entry => keep entry.1) = find? key map := by
  induction map with
  | nil => rfl
  | cons entry rest induction =>
      by_cases same : key = entry.1
      · subst same
        simp [find?, kept]
      · cases is_kept : keep entry.1 with
        | true => simp [find?, is_kept, same, induction]
        | false => simp [find?, is_kept, same, induction]

/-- The lists of a map come in the order of its keys, among any ascending names that have all of
them. -/
theorem flatMap_eq_of_keys {names : List String} (sorted : names.Pairwise (· < ·))
    {map : List (String × List α)} (ascending : Ascending map)
    (known : ∀ entry ∈ map, entry.1 ∈ names) :
    map.flatMap (·.2) = names.flatMap fun name => (find? name map).getD [] := by
  induction names generalizing map with
  | nil =>
      cases map with
      | nil => rfl
      | cons entry rest => exact absurd (known entry List.mem_cons_self) List.not_mem_nil
  | cons name names induction =>
      obtain ⟨below, names_sorted⟩ := List.pairwise_cons.mp sorted
      by_cases is_first : ∃ value rest, map = (name, value) :: rest
      · obtain ⟨value, rest, rfl⟩ := is_first
        obtain ⟨above, rest_ascending⟩ := List.pairwise_cons.mp ascending
        have rest_known : ∀ entry ∈ rest, entry.1 ∈ names := fun entry member =>
          (List.mem_cons.mp (known entry (List.mem_cons_of_mem _ member))).resolve_left
            (above entry member).ne'
        rw [List.flatMap_cons, List.flatMap_cons, induction names_sorted rest_ascending rest_known,
          find?, if_pos rfl, Option.getD_some]
        refine congrArg (value ++ ·) (List.flatMap_congr fun other member => ?_)
        rw [find?, if_neg (below other member).ne']
      · have map_known : ∀ entry ∈ map, entry.1 ∈ names := by
          intro entry member
          refine (List.mem_cons.mp (known entry member)).resolve_left fun same => ?_
          cases map with
          | nil => cases member
          | cons first rest =>
              have first_in := known first List.mem_cons_self
              rcases List.mem_cons.mp first_in with is_name | later
              · exact is_first ⟨first.2, rest, by rw [← is_name]⟩
              · rcases List.mem_cons.mp member with rfl | in_rest
                · exact (below _ later).ne' same
                · exact lt_asymm ((List.pairwise_cons.mp ascending).1 entry in_rest)
                    (same ▸ below _ later)
        have absent : find? name map = none := find?_eq_none fun entry member same =>
          (below _ (map_known entry member)).ne' same
        rw [List.flatMap_cons, absent, Option.getD_none, List.nil_append,
          induction names_sorted ascending map_known]

end StationGateway.Order
