import Mathlib
import StationGateway.Proofs.Expansion.Closure

/-!
# What a selection gathers

The queue of selectors is worked through once. Each list then has the projections of all selectors of
its columns, in the order in which these came up, and whatever is projected or compared is in use. -/

namespace StationGateway

open StationGateway.Filter StationGateway.Order Outcome

namespace Scope

/-- Whether a selector is one that a text spells, or stands for a whole attribute of a list that may
be used. -/
def Spells (scope : Scope) (selector : Selector) : Prop :=
  (∃ given, Selector.ofText? given = some selector) ∨
    ∃ list ∈ scope.lists, ∃ name ∈ list.finalNames, selector = .whole name

variable {scope : Scope} {select : String}

theorem spells_of_asksFor {selector : Selector} (asks : scope.AsksFor select selector) :
    scope.Spells selector := by
  rw [AsksFor] at asks
  split_ifs at asks with asks_for_all
  · exact .inr asks
  · obtain ⟨given, -, spells⟩ := List.mem_filterMap.mp asks
    exact .inl ⟨given, spells⟩

/-- Pointers lead on to whole attributes of the lists that may be used. -/
theorem Reached.spells {selector : Selector} (reached : scope.Reached select selector) :
    scope.Spells selector := by
  cases reached with
  | asked asks => exact spells_of_asksFor asks
  | led _ leads =>
      obtain ⟨-, -, -, -, child, child_in, -, name, named, whole⟩ := leads
      exact .inr ⟨child, child_in, name, named, whole⟩

/-- What a request asks for is defined, if it can be projected. -/
theorem defines_of_projections (names : (scope.catalogue.lists.map (·.name)).Nodup)
    {result : Projections} (projected : scope.projections select = .ok result) {selector : Selector}
    (asks : scope.AsksFor select selector) : scope.Defines selector.name := by
  by_contra undefined
  obtain ⟨-, error, refused, -⟩ := exists_projections_error names ⟨selector, asks, undefined⟩
  rw [projected] at refused
  cases refused

/-- What is projected is what the selectors gather that can be reached, each of which comes up once.
-/
theorem exists_gathers_of_projections (names : (scope.catalogue.lists.map (·.name)).Nodup)
    {result : Projections} (projected : scope.projections select = .ok result) :
    ∃ all, scope.Gathers all result ∧ all.Nodup ∧
      ∀ selector, selector ∈ all ↔ scope.Reached select selector := by
  obtain ⟨all, other, projected_other, working, gathers, -⟩ :=
    exists_projections names fun selector => defines_of_projections names projected
  obtain rfl := Except.ok.inj (projected.symm.trans projected_other)
  have nodup := working.nodup
  rw [List.append_nil] at nodup
  exact ⟨all, gathers, nodup, fun selector => working.mem_iff⟩

end Scope

/-! ## Expansions -/

namespace Expansion

/-- An expansion of selectors, each of which comes up once. -/
structure Gathered (expansion : Expansion) (all : List Selector) : Prop where
  /-- Every list has what the selectors project from it. -/
  gathers : expansion.scope.Gathers all expansion.projected
  /-- No selector comes up twice. -/
  nodup : all.Nodup
  /-- The selectors are spelled by the request, or stand for whole attributes. -/
  spelled : ∀ selector ∈ all, expansion.scope.Spells selector
  /-- What is compared is in use, and so are all lists that define it. -/
  compared : ∀ clause ∈ Scope.clausesOf expansion.filter, clause.key ∈ expansion.usedAttributes ∧
    ∀ list ∈ expansion.scope.lists, (list.find? clause.key).isSome →
      list.name ∈ expansion.usedLists
  /-- The lists come in the order of their names. -/
  sorted : (expansion.scope.lists.map (·.name)).Pairwise (· < ·)

section

variable {expansion : Expansion} {all : List Selector} {shown : List String}

/-- An expansion gathers the selectors that can be reached. -/
theorem exists_gathered_reached {scope : Scope} {select conditions : Option String} {distinct : Bool}
    (sorted : (scope.catalogue.lists.map (·.name)).Pairwise (· < ·))
    (expanded : scope.expand select conditions distinct = .ok expansion) :
    ∃ all, expansion.Gathered all ∧
      ∀ selector, selector ∈ all ↔ scope.Reached (select.getD "") selector := by
  obtain ⟨rfl, -, -, chosen, used, projected, uses, fragments_eq, attributes_eq, lists_eq⟩ :=
    Scope.expands_of_expand expanded
  have lists_sorted : (expansion.scope.lists.map (·.name)).Pairwise (· < ·) :=
    sorted.sublist (List.filter_sublist.map _)
  obtain ⟨all, gathers, nodup, reached_iff⟩ := Scope.exists_gathers_of_projections
    (sorted.imp fun lt => lt.ne) projected
  obtain ⟨marks, same_fragments, -, -, compared⟩ := gathers.toMarks.addUses uses
  have projected_eq : expansion.projected = used := by
    rw [Expansion.projected, fragments_eq, attributes_eq, lists_eq]
  refine ⟨all, ⟨?_, nodup, fun selector member => ((reached_iff selector).mp member).spells, ?_,
    lists_sorted⟩, reached_iff⟩
  · rw [projected_eq]
    exact ⟨marks, same_fragments ▸ gathers.fragments⟩
  · rw [attributes_eq, lists_eq]
    exact compared

theorem exists_gathered {scope : Scope} {select conditions : Option String} {distinct : Bool}
    (sorted : (scope.catalogue.lists.map (·.name)).Pairwise (· < ·))
    (expanded : scope.expand select conditions distinct = .ok expansion) :
    ∃ all, expansion.Gathered all := by
  obtain ⟨all, gathered, -⟩ := exists_gathered_reached sorted expanded
  exact ⟨all, gathered⟩

/-- The projections of some lists are those of the selectors, list by list. -/
theorem Gathered.fragmentsOf_eq (gathered : expansion.Gathered all) (shown : List String) :
    expansion.fragmentsOf shown =
      (expansion.scope.lists.filter fun list => shown.isEmpty || shown.contains list.name).flatMap
        fun list => all.filterMap (Scope.projection? list) := by
  have is_known : ∀ entry ∈ expansion.fragments.filter
      (fun entry => shown.isEmpty || shown.contains entry.1), entry.1 ∈
        (expansion.scope.lists.filter fun list =>
          shown.isEmpty || shown.contains list.name).map (·.name) := by
    intro entry member
    obtain ⟨entry_in, is_shown⟩ := List.mem_filter.mp member
    obtain ⟨list, list_in, name_eq⟩ := gathered.gathers.known entry entry_in
    exact List.mem_map.mpr ⟨list, List.mem_filter.mpr ⟨list_in, name_eq ▸ is_shown⟩, name_eq⟩
  have ascending : Ascending expansion.fragments := gathered.gathers.ascending
  rw [fragmentsOf, flatMap_eq_of_keys (gathered.sorted.sublist (List.filter_sublist.map _))
    (ascending.filter _) is_known, List.flatMap_map]
  refine List.flatMap_congr fun list member => ?_
  obtain ⟨list_in, is_shown⟩ := List.mem_filter.mp member
  rw [← gathered.gathers.fragments list list_in,
    find?_filter_of_key (fun name => shown.isEmpty || shown.contains name) is_shown]
  rfl

/-- A projection comes from a selector and a list in use. -/
theorem Gathered.exists_of_mem (gathered : expansion.Gathered all) {fragment : Fragment}
    (member : fragment ∈ expansion.fragmentsOf shown) :
    ∃ list ∈ expansion.scope.lists, (shown = [] ∨ list.name ∈ shown) ∧
      (∃ selector ∈ all, Scope.projection? list selector = some fragment) ∧
      list.name ∈ expansion.usedLists ∧ fragment.field.finalName ∈ expansion.usedAttributes := by
  have from_entry := member
  rw [gathered.fragmentsOf_eq] at member
  obtain ⟨list, list_shown, fragment_in⟩ := List.mem_flatMap.mp member
  obtain ⟨list_in, is_shown⟩ := List.mem_filter.mp list_shown
  obtain ⟨selector, selector_in, projected⟩ := List.mem_filterMap.mp fragment_in
  have entry_fragments := gathered.gathers.fragments list list_in
  cases entry_eq : find? list.name expansion.projected.fragments with
  | none =>
      rw [entry_eq] at entry_fragments
      rw [← entry_fragments] at fragment_in
      cases fragment_in
  | some fragments =>
      rw [entry_eq, Option.getD_some] at entry_fragments
      subst entry_fragments
      obtain ⟨list_used, fields_used⟩ := gathered.gathers.used _ (mem_of_find? entry_eq)
      refine ⟨list, list_in, ?_, ⟨selector, selector_in, projected⟩, list_used,
        fields_used fragment fragment_in⟩
      simpa [List.isEmpty_iff] using is_shown

end

end Expansion

end StationGateway
