import StationGateway.Catalogue.Index
import StationGateway.Proofs.Catalogue.Building

/-!
# The index and the lists

The index of a catalogue that has been built answers as a look at all of its lists does: it finds the
lists that define an attribute, each of them once and in name order, whatever the order in which they
were given. -/

namespace StationGateway

open StationGateway.Order

/-! ## Entries -/

namespace AttributeIndex

variable {lists : List TargetList} {list : TargetList} {key name : String}

theorem namesOf_enter (index : AttributeIndex) (entered name key : String) :
    (index.enter entered name).namesOf key =
      index.namesOf key ++ if key = entered then [name] else [] := by
  rw [namesOf, enter, find?_put]
  split_ifs with same
  · rw [same]
    rfl
  · exact (List.append_nil _).symm

theorem has_enter (index : AttributeIndex) (entered name key : String) :
    (index.enter entered name).has key = true ↔ key = entered ∨ index.has key = true := by
  rw [has, hasKey, enter, find?_put]
  split_ifs with same
  · exact iff_of_true rfl (.inl same)
  · exact (or_iff_right same).symm

/-- A list enters its name once for each attribute that clients know by the name in question. -/
theorem mem_namesOf_enterList (index : AttributeIndex) :
    name ∈ (index.enterList list).namesOf key ↔
      name ∈ index.namesOf key ∨ key ∈ list.finalNames ∧ name = list.name := by
  rw [enterList, TargetList.finalNames]
  induction list.attributes generalizing index with
  | nil => simp
  | cons field rest induction =>
      rw [List.foldl_cons, induction, namesOf_enter, List.map_cons, List.mem_cons, List.mem_append]
      split_ifs with same
      · simp only [same, List.mem_singleton, true_or, true_and, or_assoc]
        exact or_congr_right (or_iff_left_of_imp And.right)
      · simp only [same, List.not_mem_nil, or_false, false_or]

theorem has_enterList (index : AttributeIndex) :
    (index.enterList list).has key = true ↔ index.has key = true ∨ key ∈ list.finalNames := by
  rw [enterList, TargetList.finalNames]
  induction list.attributes generalizing index with
  | nil => simp
  | cons field rest induction =>
      rw [List.foldl_cons, induction, has_enter, List.map_cons, List.mem_cons, or_assoc, or_left_comm]

/-- The index has the names of the lists that define an attribute. -/
theorem mem_namesOf_ofLists :
    name ∈ (ofLists lists).namesOf key ↔
      ∃ list ∈ lists, key ∈ list.finalNames ∧ name = list.name := by
  have from_index : ∀ index : AttributeIndex, name ∈ (lists.foldl enterList index).namesOf key ↔
      name ∈ index.namesOf key ∨ ∃ list ∈ lists, key ∈ list.finalNames ∧ name = list.name := by
    induction lists with
    | nil => simp
    | cons list rest induction =>
        intro index
        rw [List.foldl_cons, induction, mem_namesOf_enterList, List.exists_mem_cons_iff, or_assoc]
  refine (from_index empty).trans (or_iff_right ?_)
  exact List.not_mem_nil

theorem has_ofLists : (ofLists lists).has key = true ↔ ∃ list ∈ lists, key ∈ list.finalNames := by
  have from_index : ∀ index : AttributeIndex, (lists.foldl enterList index).has key = true ↔
      index.has key = true ∨ ∃ list ∈ lists, key ∈ list.finalNames := by
    induction lists with
    | nil => simp
    | cons list rest induction =>
        intro index
        rw [List.foldl_cons, induction, has_enterList, List.exists_mem_cons_iff, or_assoc]
  refine (from_index empty).trans (or_iff_right ?_)
  exact Bool.false_ne_true

end AttributeIndex

/-! ## Answers -/

namespace Catalogue

variable {lists others : List TargetList} {catalogue : Catalogue} {list : TargetList} {key : String}
  {allowed : Option (List String)}

/-- Lists in the order of their names are known by their members. -/
theorem eq_of_mem_iff (sorted : (lists.map (·.name)).Pairwise (· < ·))
    (others_sorted : (others.map (·.name)).Pairwise (· < ·))
    (same : ∀ list, list ∈ lists ↔ list ∈ others) : lists = others := by
  rw [List.pairwise_map] at sorted others_sorted
  have nodup : ∀ {given : List TargetList}, given.Pairwise (fun first second =>
      first.name < second.name) → given.Nodup := fun in_order =>
    in_order.imp fun lt equal => lt.ne (congrArg TargetList.name equal)
  have permuted : lists.Perm others :=
    (List.perm_ext_iff_of_nodup (nodup sorted) (nodup others_sorted)).mpr same
  exact permuted.eq_of_pairwise (fun _ _ _ _ lt gt => absurd gt lt.not_gt) sorted others_sorted

/-- Sorting drops repetitions only, if each name belongs to one list. -/
theorem mem_sortLists_of_unique
    (unique : ∀ list ∈ lists, ∀ other ∈ lists, list.name = other.name → list = other) :
    list ∈ sortLists lists ↔ list ∈ lists := by
  have within : ∀ {list}, list ∈ sortLists lists → list ∈ lists := by
    intro list member
    obtain ⟨entry, entry_in, rfl⟩ := List.mem_map.mp member
    obtain ⟨list, list_in, rfl⟩ := List.mem_map.mp (mem_of_mem_mapOfList entry_in)
    exact list_in
  refine ⟨within, fun list_in => ?_⟩
  have name_in : list.name ∈ (sortLists lists).map (·.name) := by
    rw [names_sortLists, mem_ofList]
    exact List.mem_map_of_mem list_in
  obtain ⟨other, other_in, same⟩ := List.mem_map.mp name_in
  exact unique other (within other_in) list list_in same ▸ other_in

/-- The order in which lists are given does not show. -/
theorem build_of_perm (built : build lists = .ok catalogue) (permuted : others.Perm lists) :
    build others = .ok catalogue := by
  obtain ⟨nodup, refers, rfl⟩ := build_eq_ok_iff.mp built
  have names_perm : (others.map (·.name)).Perm (lists.map (·.name)) := permuted.map _
  have others_nodup : (others.map (·.name)).Nodup := names_perm.nodup_iff.mpr nodup
  refine build_eq_ok_iff.mpr ⟨others_nodup, fun list list_in => ?_, congrArg mk ?_⟩
  · obtain ⟨parents, children⟩ := refers list (permuted.mem_iff.mp list_in)
    exact ⟨fun parent is_parent => names_perm.mem_iff.mpr (parents parent is_parent),
      fun field field_in child child_in =>
        names_perm.mem_iff.mpr (children field field_in child child_in)⟩
  · refine eq_of_mem_iff ?_ ?_ fun list => ?_
    · rw [names_sortLists]
      exact pairwise_ofList _
    · rw [names_sortLists]
      exact pairwise_ofList _
    · rw [mem_sortLists nodup, mem_sortLists others_nodup, permuted.mem_iff]

/-- The index finds lists in the order of their names. -/
theorem pairwise_findAll (catalogue : Catalogue) (key : String) (allowed : Option (List String)) :
    ((catalogue.findAll key allowed).map (·.name)).Pairwise (· < ·) := by
  rw [findAll, names_sortLists]
  exact pairwise_ofList _

/-- The name of a list leads back to the list. -/
theorem get?_eq_some_iff (built : build lists = .ok catalogue) {name : String} :
    catalogue.get? name = some list ↔ list ∈ lists ∧ list.name = name := by
  obtain ⟨nodup, -, -⟩ := build_eq_ok_iff.mp built
  rw [get?_of_build built]
  constructor
  · exact fun found => ⟨List.mem_of_find?_eq_some found, by simpa using List.find?_some found⟩
  · rintro ⟨list_in, rfl⟩
    cases found : lists.find? fun other => other.name = list.name with
    | none => exact absurd (decide_eq_true rfl) (List.find?_eq_none.mp found list list_in)
    | some other =>
        have same : other.name = list.name := by simpa using List.find?_some found
        exact congrArg some
          (List.inj_on_of_nodup_map nodup (List.mem_of_find?_eq_some found) list_in same)

/-- The index finds the lists that define an attribute, and among these the allowed ones. -/
theorem mem_findAll (built : build lists = .ok catalogue) :
    list ∈ catalogue.findAll key allowed ↔
      list ∈ lists ∧ key ∈ list.finalNames ∧ ∀ names ∈ allowed, list.name ∈ names := by
  have found_iff : ∀ {list : TargetList}, list ∈ ((catalogue.index.namesOf key).filter fun name =>
        allowed.all fun names => names.contains name).filterMap catalogue.get? ↔
      list ∈ lists ∧ key ∈ list.finalNames ∧ ∀ names ∈ allowed, list.name ∈ names := by
    intro list
    have allowed_iff : ∀ name, (allowed.all fun names => names.contains name) = true ↔
        ∀ names ∈ allowed, name ∈ names := by
      intro name
      cases allowed with
      | none => simp
      | some names => simp
    simp only [List.mem_filterMap, List.mem_filter, get?_eq_some_iff built, index,
      AttributeIndex.mem_namesOf_ofLists, mem_lists_of_build built, allowed_iff]
    constructor
    · rintro ⟨name, ⟨⟨other, other_in, defines, rfl⟩, is_allowed⟩, list_in, same⟩
      obtain ⟨nodup, -, -⟩ := build_eq_ok_iff.mp built
      obtain rfl := List.inj_on_of_nodup_map nodup list_in other_in same
      exact ⟨list_in, defines, is_allowed⟩
    · rintro ⟨list_in, defines, is_allowed⟩
      exact ⟨list.name, ⟨⟨list, list_in, defines, rfl⟩, is_allowed⟩, list_in, rfl⟩
  rw [findAll, mem_sortLists_of_unique, found_iff]
  intro list member other other_member same
  obtain ⟨nodup, -, -⟩ := build_eq_ok_iff.mp built
  exact List.inj_on_of_nodup_map nodup (found_iff.mp member).1 (found_iff.mp other_member).1 same

/-- Without allowed lists, the index answers as a look at all lists. -/
theorem findAll_none (built : build lists = .ok catalogue) (key : String) :
    catalogue.findAll key none = catalogue.definers key := by
  refine eq_of_mem_iff (pairwise_findAll _ _ _)
    ((pairwise_of_build built).sublist (List.filter_sublist.map _)) fun list => ?_
  rw [mem_findAll built, definers, List.mem_filter, mem_lists_of_build built, TargetList.isSome_find?_iff]
  simp

/-- With allowed lists, the index answers as a look at these. -/
theorem findAll_some (built : build lists = .ok catalogue) (key : String) (names : List String) :
    catalogue.findAll key (some names) = catalogue.definersAmong names key := by
  refine eq_of_mem_iff (pairwise_findAll _ _ _)
    ((pairwise_of_build built).sublist
      ((List.filter_sublist.trans List.filter_sublist).map _)) fun list => ?_
  rw [mem_findAll built, definersAmong, List.mem_filter, definers, List.mem_filter,
    mem_lists_of_build built, TargetList.isSome_find?_iff]
  simp [and_assoc]

/-- The first list that is found has the least name. -/
theorem findFirst?_eq_some_iff (catalogue : Catalogue) :
    catalogue.findFirst? key allowed = some list ↔
      list ∈ catalogue.findAll key allowed ∧
        ∀ other ∈ catalogue.findAll key allowed, list.name ≤ other.name := by
  have sorted := List.pairwise_map.mp (pairwise_findAll catalogue key allowed)
  rw [findFirst?]
  cases found : catalogue.findAll key allowed with
  | nil => simp
  | cons first rest =>
      rw [found] at sorted
      obtain ⟨below, -⟩ := List.pairwise_cons.mp sorted
      rw [List.head?_cons]
      constructor
      · rintro is_first
        obtain rfl := Option.some.inj is_first
        refine ⟨List.mem_cons_self, fun other member => ?_⟩
        rcases List.mem_cons.mp member with rfl | in_rest
        · exact le_refl _
        · exact (below other in_rest).le
      · rintro ⟨member, least⟩
        rcases List.mem_cons.mp member with rfl | in_rest
        · rfl
        · exact absurd (below list in_rest) (least first List.mem_cons_self).not_gt

/-- What is in the index is found. -/
theorem isIndexed_iff (built : build lists = .ok catalogue) :
    catalogue.isIndexed key = true ↔ catalogue.findAll key none ≠ [] := by
  have found_iff : ∀ list, list ∈ catalogue.findAll key none ↔
      list ∈ catalogue.lists ∧ key ∈ list.finalNames := by
    intro list
    rw [mem_findAll built, mem_lists_of_build built]
    simp
  rw [isIndexed, index, AttributeIndex.has_ofLists, Ne, List.eq_nil_iff_forall_not_mem, not_forall_not]
  simp only [found_iff]

/-- Whether the index answers for an attribute as the lists say that were given. -/
structure IndexesExactly (catalogue : Catalogue) (lists : List TargetList) (key : String) : Prop where
  /-- It finds the lists with the attribute, among the allowed ones. -/
  found : ∀ allowed list, list ∈ catalogue.findAll key allowed ↔
    list ∈ lists ∧ (∃ field ∈ list.attributes, field.finalName = key) ∧
      ∀ names ∈ allowed, list.name ∈ names
  /-- They come in strictly ascending order. -/
  ascending : ∀ allowed, ((catalogue.findAll key allowed).map (·.name)).Pairwise (· < ·)
  /-- The first of them has the least name. -/
  first : ∀ allowed list, catalogue.findFirst? key allowed = some list ↔
    list ∈ catalogue.findAll key allowed ∧
      ∀ other ∈ catalogue.findAll key allowed, list.name ≤ other.name
  /-- The attribute is in the index if and only if some list has it. -/
  known : catalogue.isIndexed key = true ↔ catalogue.findAll key none ≠ []
  /-- A look at all lists gives the same answers. -/
  scanned : catalogue.findAll key none = catalogue.definers key ∧
    (∀ names, catalogue.findAll key (some names) = catalogue.definersAmong names key) ∧
      catalogue.isIndexed key = catalogue.knows key

theorem indexesExactly_of_build (built : build lists = .ok catalogue) (key : String) :
    catalogue.IndexesExactly lists key where
  found allowed list := by
    rw [mem_findAll built, TargetList.finalNames, List.mem_map]
  ascending := pairwise_findAll catalogue key
  first _ _ := findFirst?_eq_some_iff catalogue
  known := isIndexed_iff built
  scanned := by
    refine ⟨findAll_none built key, findAll_some built key, ?_⟩
    rw [Bool.eq_iff_iff, isIndexed_iff built, findAll_none built, knows]
    simp

/-- Lists make up a catalogue exactly if their names differ and they refer to each other only. The
catalogue does not depend on their order, and its index answers for every attribute as they say. -/
theorem indexed_of_build (lists : List TargetList) :
    ((∃ catalogue, build lists = .ok catalogue) ↔
      (lists.map (·.name)).Nodup ∧ ∀ list ∈ lists, Refers (lists.map (·.name)) list) ∧
    ∀ catalogue, build lists = .ok catalogue →
      (∀ others : List TargetList, others.Perm lists → build others = .ok catalogue) ∧
        ∀ key, catalogue.IndexesExactly lists key := by
  refine ⟨?_, fun catalogue built => ⟨fun others => build_of_perm built, fun key =>
    indexesExactly_of_build built key⟩⟩
  constructor
  · rintro ⟨catalogue, built⟩
    obtain ⟨nodup, refers, -⟩ := build_eq_ok_iff.mp built
    exact ⟨nodup, refers⟩
  · rintro ⟨nodup, refers⟩
    exact ⟨⟨sortLists lists⟩, build_eq_ok_iff.mpr ⟨nodup, refers, rfl⟩⟩

/-- Two lists that point to each other have an attribute of the same name. -/
theorem indexed_of_build_cyclic :
    let lists : List TargetList :=
      [⟨"town", ⟨.list, some "land", some "towns", none⟩,
          [.plain "mayor" (.column "t.mayor"), .plain "land" (.pointer ["land"])]⟩,
        ⟨"land", ⟨.map, none, none, some "_land"⟩,
          [.plain "towns" (.pointer ["town"]),
            { Attribute.plain "head" (.column "l.head") with publicName := some "mayor" }]⟩]
    ∃ catalogue, build lists = .ok catalogue ∧ build lists.reverse = .ok catalogue ∧
      catalogue.findAll "mayor" none = lists.reverse ∧
      catalogue.findFirst? "mayor" (some ["town"]) = lists.head? ∧
      catalogue.isIndexed "head" = false ∧
      ∀ key, catalogue.IndexesExactly lists key := by
  intro lists
  have built : build lists = .ok ⟨sortLists lists⟩ := rfl
  obtain ⟨-, answers⟩ := indexed_of_build lists
  obtain ⟨any_order, exact_answers⟩ := answers _ built
  exact ⟨_, built, any_order _ lists.reverse_perm, by decide +kernel, by decide +kernel,
    by decide +kernel, exact_answers⟩

end Catalogue

end StationGateway
