import Mathlib.Data.List.Nodup
import StationGateway.Catalogue.Hierarchy
import StationGateway.Proofs.Order.Entries
import StationGateway.Proofs.Order.Gather
import StationGateway.Proofs.Outcome

/-!
# Building catalogues

What lists have to do with the catalogue that is built from them: it holds these lists, each under a
name of its own, and every list that one of them points to. -/

namespace StationGateway

/-- A list finds the attributes that it has. -/
theorem TargetList.isSome_find?_iff {list : TargetList} {name : String} :
    (list.find? name).isSome ↔ name ∈ list.finalNames := by
  rw [find?, List.find?_isSome, finalNames, List.mem_map]
  simp only [decide_eq_true_eq]

namespace Catalogue

open Outcome StationGateway.Order

theorem forM_eq_ok_iff {ε α : Type} {check : α → Except ε Unit} {members : List α} :
    members.forM check = .ok () ↔ ∀ member ∈ members, check member = .ok () := by
  induction members with
  | nil => simp [pure, Except.pure]
  | cons first rest induction =>
      rw [List.forall_mem_cons, ← induction]
      constructor
      · intro accepted
        obtain ⟨_, first_ok, rest_ok⟩ := bind_eq_ok_iff.mp accepted
        exact ⟨first_ok, rest_ok⟩
      · rintro ⟨first_ok, rest_ok⟩
        exact bind_eq_ok_iff.mpr ⟨(), first_ok, rest_ok⟩

theorem checkDistinct_eq_ok_iff {seen : List String} {lists : List TargetList} :
    checkDistinct seen lists = .ok () ↔
      (lists.map (·.name)).Nodup ∧ ∀ list ∈ lists, list.name ∉ seen := by
  induction lists generalizing seen with
  | nil => simp [checkDistinct]
  | cons first rest induction =>
      rw [checkDistinct, List.map_cons, List.nodup_cons, List.forall_mem_cons]
      split_ifs with is_seen
      · exact iff_of_false nofun fun accepted => accepted.2.1 is_seen
      · rw [induction]
        constructor
        · rintro ⟨nodup, unseen⟩
          refine ⟨⟨fun member => ?_, nodup⟩, is_seen, fun list list_in =>
            (List.not_mem_of_not_mem_cons (unseen list list_in))⟩
          obtain ⟨list, list_in, same⟩ := List.mem_map.mp member
          exact unseen list list_in (same ▸ List.mem_cons_self)
        · rintro ⟨⟨first_new, nodup⟩, -, unseen⟩
          refine ⟨nodup, fun list list_in member => ?_⟩
          rcases List.mem_cons.mp member with same | in_seen
          · exact first_new (same ▸ List.mem_map_of_mem list_in)
          · exact unseen list list_in in_seen

/-- Whether a list names only lists of the given names, as its parent and as children. -/
def Refers (names : List String) (list : TargetList) : Prop :=
  (∀ parent ∈ list.lookUp.parentList, parent ∈ names) ∧
    ∀ field ∈ list.attributes, ∀ child ∈ field.children, child ∈ names

theorem checkReferences_eq_ok_iff {names : List String} {list : TargetList} :
    checkReferences names list = .ok () ↔ Refers names list := by
  have parent_iff : checkParent names list = .ok () ↔
      ∀ parent ∈ list.lookUp.parentList, parent ∈ names := by
    rw [checkParent]
    cases list.lookUp.parentList with
    | none => simp
    | some parent => simp
  have children_iff : ∀ field, checkChildren names list field = .ok () ↔
      ∀ child ∈ field.children, child ∈ names := by
    intro field
    rw [checkChildren]
    cases found : field.children.find? fun child => !(names.contains child) with
    | none => simpa using found
    | some child =>
        refine iff_of_false nofun fun within => ?_
        have absent := List.find?_some found
        have present := within child (List.mem_of_find?_eq_some found)
        simp [present] at absent
  rw [checkReferences, bind_eq_ok_iff, Refers]
  simp only [← parent_iff, ← children_iff]
  rw [← forM_eq_ok_iff]
  exact ⟨fun ⟨(), parent_ok, children_ok⟩ => ⟨parent_ok, children_ok⟩,
    fun ⟨parent_ok, children_ok⟩ => ⟨(), parent_ok, children_ok⟩⟩

section Sorted

variable {lists : List TargetList} {list : TargetList} {name : String}

theorem keys_entries (lists : List TargetList) :
    (lists.map fun list => (list.name, list)).map (·.1) = lists.map (·.name) := by
  rw [List.map_map]
  rfl

/-- Sorting neither loses a list nor adds one. -/
theorem mem_sortLists (nodup : (lists.map (·.name)).Nodup) : list ∈ sortLists lists ↔ list ∈ lists := by
  rw [← keys_entries] at nodup
  rw [sortLists, List.mem_map]
  constructor
  · rintro ⟨entry, member, rfl⟩
    obtain ⟨list, list_in, rfl⟩ := List.mem_map.mp (mem_of_mem_mapOfList member)
    exact list_in
  · intro list_in
    have entry_in : (list.name, list) ∈ lists.map fun list => (list.name, list) :=
      List.mem_map_of_mem list_in
    have found := find?_eq_some_of_mem nodup entry_in
    rw [← find?_mapOfList nodup] at found
    exact ⟨_, mem_of_find? found, rfl⟩

/-- Sorted lists have their names in ascending order. -/
theorem names_sortLists (lists : List TargetList) :
    (sortLists lists).map (·.name) = ofList (lists.map (·.name)) := by
  have own_name : ∀ entry ∈ mapOfList (lists.map fun list => (list.name, list)),
      entry.2.name = entry.1 := by
    intro entry member
    obtain ⟨list, -, rfl⟩ := List.mem_map.mp (mem_of_mem_mapOfList member)
    rfl
  rw [sortLists, List.map_map, ← keys_entries lists, ← keys_mapOfList]
  exact List.map_congr_left own_name

/-- A catalogue is built from lists with different names that name only each other. -/
theorem build_eq_ok_iff {catalogue : Catalogue} :
    build lists = .ok catalogue ↔
      (lists.map (·.name)).Nodup ∧ (∀ list ∈ lists, Refers (lists.map (·.name)) list) ∧
        catalogue = ⟨sortLists lists⟩ := by
  have same_names : ∀ name, name ∈ (sortLists lists).map (·.name) ↔ name ∈ lists.map (·.name) := by
    intro name
    rw [names_sortLists, mem_ofList]
  have refers_iff : (lists.map (·.name)).Nodup →
      ((∀ list ∈ sortLists lists, Refers ((sortLists lists).map (·.name)) list) ↔
        ∀ list ∈ lists, Refers (lists.map (·.name)) list) := fun nodup => by
    simp only [Refers, same_names, mem_sortLists nodup]
  have checked : build lists = .ok catalogue ↔ checkDistinct [] lists = .ok () ∧
      (sortLists lists).forM (checkReferences ((sortLists lists).map (·.name))) = .ok () ∧
        catalogue = ⟨sortLists lists⟩ := by
    constructor
    · intro built
      obtain ⟨_, distinct, more⟩ := bind_eq_ok_iff.mp built
      obtain ⟨_, references, done⟩ := bind_eq_ok_iff.mp more
      exact ⟨distinct, references, (Except.ok.inj done).symm⟩
    · rintro ⟨distinct, references, rfl⟩
      exact bind_eq_ok_iff.mpr ⟨(), distinct, bind_eq_ok_iff.mpr ⟨(), references, rfl⟩⟩
  rw [checked, checkDistinct_eq_ok_iff, forM_eq_ok_iff]
  simp only [checkReferences_eq_ok_iff, List.not_mem_nil, not_false_eq_true, implies_true, and_true]
  exact and_congr_right fun nodup => and_congr_left fun _ => refers_iff nodup

end Sorted

section Built

variable {lists : List TargetList} {catalogue : Catalogue} {list : TargetList} {name : String}

/-- The lists of a catalogue come in the order of their names. -/
theorem pairwise_of_build (built : build lists = .ok catalogue) :
    (catalogue.lists.map (·.name)).Pairwise (· < ·) := by
  obtain ⟨-, -, rfl⟩ := build_eq_ok_iff.mp built
  rw [names_sortLists]
  exact pairwise_ofList _

theorem mem_lists_of_build (built : build lists = .ok catalogue) :
    list ∈ catalogue.lists ↔ list ∈ lists := by
  obtain ⟨nodup, -, rfl⟩ := build_eq_ok_iff.mp built
  exact mem_sortLists nodup

theorem mem_names_of_build (built : build lists = .ok catalogue) :
    name ∈ catalogue.names ↔ name ∈ lists.map (·.name) := by
  obtain ⟨nodup, -, rfl⟩ := build_eq_ok_iff.mp built
  rw [names, names_sortLists, mem_ofList]

/-- A built catalogue finds a list by its name. -/
theorem get?_of_build (built : build lists = .ok catalogue) :
    catalogue.get? name = lists.find? fun list => list.name = name := by
  obtain ⟨nodup, -, rfl⟩ := build_eq_ok_iff.mp built
  have unique : ∀ {list other : TargetList}, list ∈ lists → other ∈ lists →
      list.name = other.name → list = other := fun list_in other_in same =>
    List.inj_on_of_nodup_map nodup list_in other_in same
  rw [get?]
  cases found : lists.find? fun list => list.name = name with
  | none =>
      rw [List.find?_eq_none] at found ⊢
      exact fun list member => found list ((mem_sortLists nodup).mp member)
  | some list =>
      have named := List.find?_some found
      have list_in := List.mem_of_find?_eq_some found
      cases found_sorted : (sortLists lists).find? fun list => list.name = name with
      | none =>
          exact absurd named (List.find?_eq_none.mp found_sorted list
            ((mem_sortLists nodup).mpr list_in))
      | some other =>
          have other_in := (mem_sortLists nodup).mp (List.mem_of_find?_eq_some found_sorted)
          have other_named := List.find?_some found_sorted
          refine congrArg some (unique other_in list_in ?_)
          exact (of_decide_eq_true other_named).trans (of_decide_eq_true named).symm

end Built

end Catalogue

end StationGateway
