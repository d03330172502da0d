import Mathlib.Data.String.Basic
import Mathlib.Tactic.SplitIfs
import StationGateway.Order.Sorted

/-!
# Entries of maps

Which entries a map has. Its keys depend on nothing but the keys of what it was filled with.
-/

namespace StationGateway.Order

variable {β : Type}

theorem mem_of_find? {key : String} {value : β} {map : List (String × β)}
    (found : find? key map = some value) : (key, value) ∈ map := by
  induction map with
  | nil => cases found
  | cons entry rest induction =>
      rw [find?] at found
      split at found
      next is_first =>
        obtain rfl := Option.some.inj found
        exact is_first ▸ List.mem_cons_self
      · exact List.mem_cons_of_mem entry (induction found)

theorem keys_put (key : String) (value : β) (map : List (String × β)) :
    (put key value map).map (·.1) = insert key (map.map (·.1)) := by
  induction map with
  | nil => rfl
  | cons entry rest induction =>
      simp only [put, insert, List.map_cons]
      split_ifs with is_before is_same
      · rfl
      · rw [is_same, List.map_cons]
      · rw [List.map_cons, induction]

/-- A map has no entry for a key above all of its keys. -/
theorem find?_eq_none_of_lt {key : String} {map : List (String × β)}
    (above : ∀ entry ∈ map, entry.1 < key) : find? key map = none := by
  induction map with
  | nil => rfl
  | cons entry rest induction =>
      have first_lt := above entry List.mem_cons_self
      rw [find?, if_neg first_lt.ne',
        induction fun other member => above other (List.mem_cons_of_mem entry member)]

/-- An entry whose key is above all keys of a map comes last. -/
theorem put_eq_append {key : String} {value : β} {map : List (String × β)}
    (above : ∀ entry ∈ map, entry.1 < key) : put key value map = map ++ [(key, value)] := by
  induction map with
  | nil => rfl
  | cons entry rest induction =>
      have first_lt := above entry List.mem_cons_self
      rw [put, if_neg first_lt.not_gt, if_neg first_lt.ne',
        induction fun other member => above other (List.mem_cons_of_mem entry member),
        List.cons_append]

/-- The keys of a map are the set of the keys of its entries. -/
theorem keys_mapOfList (entries : List (String × β)) :
    (mapOfList entries).map (·.1) = ofList (entries.map (·.1)) := by
  have from_map : ∀ map : List (String × β),
      (entries.foldl (fun map entry => put entry.1 entry.2 map) map).map (·.1) =
        (entries.map (·.1)).foldl (fun set member => insert member set) (map.map (·.1)) := by
    induction entries with
    | nil => exact fun map => rfl
    | cons entry rest induction =>
        intro map
        rw [List.foldl_cons, induction, keys_put, List.map_cons, List.foldl_cons]
  exact from_map []

end StationGateway.Order
