import Mathlib
import StationGateway.Json.Printer

/-!
# Sizes of JSON texts

The text of a value has a place for each part of it, so it is at least as long as these together: a
string is as long as its characters, escaped or not, and an array or an object as long as what is in
it. -/

namespace StationGateway.Json

open Text

/-- The bytes of the compact text of a value. -/
def bytes (value : Json) : Nat :=
  value.print.utf8ByteSize

theorem utf8Size_le_escapeChar (char : Char) : char.utf8Size ≤ String.utf8Len (escapeChar char) := by
  have size_eq_one : char.toNat < 128 → char.utf8Size = 1 := by
    intro lt
    have le : char.val ≤ 127 := by
      rw [UInt32.le_iff_toNat_le]
      exact Nat.le_of_lt_succ lt
    simp only [Char.utf8Size]
    exact if_pos le
  have some_byte : ∀ first : Char, ∀ rest, 1 ≤ String.utf8Len (first :: rest) := fun first rest =>
    Nat.le_trans first.utf8Size_pos (Nat.le_add_left _ _)
  unfold escapeChar
  split
  · exact some_byte _ _
  · exact some_byte _ _
  · exact some_byte _ _
  · exact some_byte _ _
  · exact some_byte _ _
  · split_ifs with is_backspace is_feed is_control
    · rw [size_eq_one (by omega)]
      exact some_byte _ _
    · rw [size_eq_one (by omega)]
      exact some_byte _ _
    · rw [size_eq_one (by omega)]
      exact some_byte _ _
    · exact Nat.le_of_eq (Nat.zero_add _).symm

theorem utf8Len_le_flatMap (text : List Char) :
    String.utf8Len text ≤ String.utf8Len (text.flatMap escapeChar) := by
  induction text with
  | nil => exact Nat.le_refl 0
  | cons char rest induction =>
      have first := utf8Size_le_escapeChar char
      rw [List.flatMap_cons, String.utf8Len_append, String.utf8Len]
      omega

theorem utf8ByteSize_le_quoted (text : String) : text.utf8ByteSize ≤ (quoted text).utf8ByteSize := by
  have escaped := utf8Len_le_flatMap text.toList
  rw [← String.utf8ByteSize_ofList, String.ofList_toList, ← String.utf8ByteSize_ofList] at escaped
  rw [quoted, String.utf8ByteSize_append, String.utf8ByteSize_append]
  omega

theorem sum_utf8ByteSize_le_join (separator : String) (texts : List String) :
    (texts.map String.utf8ByteSize).sum ≤ (join separator texts).utf8ByteSize := by
  induction texts with
  | nil => exact Nat.zero_le _
  | cons text rest induction =>
      cases rest with
      | nil => simp [join]
      | cons next rest =>
          rw [join, String.utf8ByteSize_append, String.utf8ByteSize_append, List.map_cons, List.sum_cons]
          omega

theorem printItems_eq_map (items : List Json) : printItems items = items.map print := by
  induction items with
  | nil => rw [printItems, List.map_nil]
  | cons item rest induction => rw [printItems, induction, List.map_cons]

theorem printMembers_eq_map (members : List (String × Json)) :
    printMembers members = members.map fun member => quoted member.1 ++ ":" ++ member.2.print := by
  induction members with
  | nil => rw [printMembers, List.map_nil]
  | cons member rest induction => rw [printMembers, induction, List.map_cons]

/-- An array is as long as its items. -/
theorem sum_bytes_le_array (items : List Json) : (items.map bytes).sum ≤ (Json.array items).bytes := by
  have joined := sum_utf8ByteSize_le_join "," (items.map print)
  rw [List.map_map] at joined
  rw [bytes, print, printItems_eq_map, String.utf8ByteSize_append, String.utf8ByteSize_append]
  refine Nat.le_trans joined ?_
  omega

/-- An object is as long as its names and their values. -/
theorem sum_bytes_le_object (members : List (String × Json)) :
    (members.map fun member => member.1.utf8ByteSize + member.2.bytes).sum ≤
      (Json.object members).bytes := by
  have joined := sum_utf8ByteSize_le_join "," (printMembers members)
  rw [printMembers_eq_map, List.map_map] at joined
  have each : ∀ member ∈ members, member.1.utf8ByteSize + member.2.bytes ≤
      (quoted member.1 ++ ":" ++ member.2.print).utf8ByteSize := by
    intro member _
    have name_le := utf8ByteSize_le_quoted member.1
    rw [String.utf8ByteSize_append, String.utf8ByteSize_append, bytes]
    omega
  rw [bytes, print, printMembers_eq_map, String.utf8ByteSize_append, String.utf8ByteSize_append]
  refine Nat.le_trans (List.sum_le_sum each) (Nat.le_trans joined ?_)
  omega

end StationGateway.Json
