import Mathlib.Data.List.Induction
import Mathlib.Data.List.Nodup
import Mathlib.Tactic.SplitIfs

/-!
# First occurrences

A list without its repetitions has every member where it comes up first, so one more member is either
there already or comes last. -/

namespace StationGateway.Order

variable {α β : Type} [DecidableEq α] [DecidableEq β]

theorem eraseDups_concat (members : List α) (member : α) :
    (members ++ [member]).eraseDups =
      if member ∈ members then members.eraseDups else members.eraseDups ++ [member] := by
  rw [List.eraseDups_append]
  split_ifs with is_old
  · have nothing : [member].removeAll members = [] := by simp [List.removeAll, is_old]
    rw [nothing, List.eraseDups_nil, List.append_nil]
  · have is_new : [member].removeAll members = [member] := by simp [List.removeAll, is_old]
    rw [is_new, List.eraseDups_cons]
    rfl

theorem nodup_eraseDups (members : List α) : members.eraseDups.Nodup := by
  induction members using List.reverseRecOn with
  | nil => exact List.nodup_nil
  | append_singleton members member induction =>
      rw [eraseDups_concat]
      split_ifs with is_old
      · exact induction
      · refine List.nodup_append.mpr ⟨induction, List.nodup_singleton member, ?_⟩
        rintro other old new is_new rfl
        rw [List.mem_singleton.mp is_new] at old
        exact is_old (List.mem_eraseDups.mp old)

theorem eraseDups_of_nodup {members : List α} (nodup : members.Nodup) :
    members.eraseDups = members := by
  induction members using List.reverseRecOn with
  | nil => rfl
  | append_singleton members member induction =>
      have is_new : member ∉ members := fun is_old =>
        (List.nodup_append.mp nodup).2.2 member is_old member List.mem_cons_self rfl
      rw [eraseDups_concat, if_neg is_new, induction nodup.of_append_left]

/-- What comes up first in the images of members comes up first in the image of a first occurrence. -/
theorem eraseDups_flatMap (members : List α) (image : α → List β) :
    (members.flatMap image).eraseDups = (members.eraseDups.flatMap image).eraseDups := by
  induction members using List.reverseRecOn with
  | nil => rfl
  | append_singleton members member induction =>
      have absorbed : ∀ {before more : List β}, (∀ found ∈ more, found ∈ before) →
          (before ++ more).eraseDups = before.eraseDups := by
        intro before more within
        have nothing : more.removeAll before = [] := by
          simpa [List.removeAll] using within
        rw [List.eraseDups_append, nothing, List.eraseDups_nil, List.append_nil]
      rw [List.flatMap_append, List.flatMap_singleton, eraseDups_concat]
      split_ifs with is_old
      · rw [absorbed fun found found_in => List.mem_flatMap.mpr ⟨member, is_old, found_in⟩, induction]
      · have same : (image member).removeAll (members.flatMap image) =
            (image member).removeAll (members.eraseDups.flatMap image) := by
          refine List.filter_congr fun found _ => ?_
          simp [List.mem_flatMap, List.mem_eraseDups]
        rw [List.flatMap_append, List.flatMap_singleton, List.eraseDups_append,
          List.eraseDups_append, induction, same]

end StationGateway.Order
