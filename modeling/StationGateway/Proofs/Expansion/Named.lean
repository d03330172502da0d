import Mathlib
import StationGateway.Proofs.Catalogue.Naming
import StationGateway.Proofs.Expansion.Closure
import StationGateway.Proofs.Text.Join

/-!
# Selections by name

A blank selection stands for all attributes of the allowed lists. To name all of them comes to the
same as long as no name has a point. A name with a point is read as the place of a path inside
another attribute, so such an attribute can be had by name only through a pointer that leads to it. -/

namespace StationGateway

open Text StationGateway.Order Outcome

namespace Scope

/-- The names of the attributes of all allowed lists. -/
def finalNames (scope : Scope) : List String :=
  (scope.allowed.filterMap scope.catalogue.get?).flatMap TargetList.finalNames

/-- Whether an allowed list has a column of some name. -/
def HasColumn (scope : Scope) (name : String) : Prop :=
  ∃ list ∈ scope.lists, ∃ field, list.find? name = some field ∧ field.isPointer = false

/-- Whether a `select` parameter names attributes, and so does not stand for all of them. -/
def NamesSome (select : String) : Prop :=
  spelled select ≠ [] ∧ ∀ selector ∈ spelled select, selector.name ≠ "*"

/-- The attributes that can be had by name: those without a point in their names and those that such
attributes lead to. -/
inductive Nameable (scope : Scope) : String → Prop where
  /-- A name without a point spells the attribute. -/
  | plain {name : String} (defined : scope.Defines name) (no_point : '.' ∉ name.toList) :
      Nameable scope name
  /-- Pointers are followed. -/
  | led {pointer name : String} (before : Nameable scope pointer)
      (leads : scope.LeadsTo (.whole pointer) (.whole name)) : Nameable scope name

/-- Whether all attributes of a scope have names. -/
def Named (scope : Scope) : Prop :=
  ∀ list ∈ scope.catalogue.lists, ∀ name ∈ list.finalNames, isName name = true

section

variable {scope : Scope} {select name key : String} {selector next : Selector}

/-! ## What names spell -/

theorem spelled_join {names : List String} (filled : names ≠ [])
    (are_names : ∀ name ∈ names, isName name = true) :
    spelled (join "," names) = names.filterMap Selector.ofText? := by
  rw [spelled, pieces_join rfl filled fun name member =>
    comma_notMem_of_isName (are_names name member)]

theorem spelled_of_isName (is_name : isName name = true) (no_point : '.' ∉ name.toList) :
    spelled name = [.whole name] := by
  have alone := spelled_join (List.cons_ne_nil name []) (List.forall_mem_singleton.mpr is_name)
  rw [join, List.filterMap_cons_some (Selector.ofText?_of_isName is_name no_point)] at alone
  exact alone

theorem namesSome_join {names : List String} (filled : names ≠ [])
    (are_names : ∀ name ∈ names, isName name = true) : NamesSome (join "," names) := by
  rw [NamesSome, spelled_join filled are_names]
  constructor
  · obtain ⟨first, others, rfl⟩ := List.exists_cons_of_ne_nil filled
    obtain ⟨selector, spelled_eq, -⟩ :=
      Selector.exists_ofText?_of_isName (are_names first List.mem_cons_self)
    exact List.ne_nil_of_mem (List.mem_filterMap.mpr ⟨first, List.mem_cons_self, spelled_eq⟩)
  · intro selector member
    obtain ⟨name, name_mem, spelled_eq⟩ := List.mem_filterMap.mp member
    obtain ⟨other, other_eq, not_star⟩ := Selector.exists_ofText?_of_isName (are_names name name_mem)
    exact Option.some.inj (other_eq.symm.trans spelled_eq) ▸ not_star

theorem NamesSome.not_all (names_some : NamesSome select) :
    ¬(spelled select = [] ∨ ∃ other ∈ spelled select, other.name = "*") := by
  rintro (nothing | ⟨other, member, is_star⟩)
  · exact names_some.1 nothing
  · exact names_some.2 other member is_star

theorem NamesSome.asksFor_iff (names_some : NamesSome select) :
    scope.AsksFor select selector ↔ selector ∈ spelled select := by
  rw [AsksFor, if_neg names_some.not_all]

theorem point_notMem_of_mem_spelled (member : selector ∈ spelled select) :
    '.' ∉ selector.name.toList := by
  obtain ⟨piece, -, spelled_eq⟩ := List.mem_filterMap.mp member
  exact Selector.point_notMem_of_ofText? spelled_eq

theorem mem_finalNames (names : (scope.catalogue.lists.map (·.name)).Nodup) :
    name ∈ scope.finalNames ↔ scope.Defines name := by
  have whole_injective : Function.Injective Selector.whole := fun first second same =>
    congrArg Selector.name same
  have whole_iff := @mem_wholes scope (.whole name) names scope.allowed
  rw [List.mem_map_of_injective whole_injective] at whole_iff
  rw [finalNames, whole_iff, Defines]
  constructor
  · rintro ⟨list, list_in, allowed, other, named, same⟩
    obtain rfl : name = other := whole_injective same
    exact ⟨list, mem_lists.mpr ⟨list_in, allowed⟩, TargetList.isSome_find?_iff.mpr named⟩
  · rintro ⟨list, list_in, found⟩
    obtain ⟨in_catalogue, allowed⟩ := mem_lists.mp list_in
    exact ⟨list, in_catalogue, allowed, name, TargetList.isSome_find?_iff.mp found, rfl⟩

theorem Named.isName_of_defines (named : scope.Named) (defined : scope.Defines name) :
    isName name = true := by
  obtain ⟨list, list_in, found⟩ := defined
  exact named list (mem_lists.mp list_in).1 name (TargetList.isSome_find?_iff.mp found)

theorem namesSome_of_isName (is_name : isName name = true) : NamesSome name :=
  namesSome_join (List.cons_ne_nil name []) (List.forall_mem_singleton.mpr is_name)

theorem asksFor_name_iff (is_name : isName name = true) (no_point : '.' ∉ name.toList) :
    scope.AsksFor name selector ↔ selector = .whole name := by
  rw [(namesSome_of_isName is_name).asksFor_iff, spelled_of_isName is_name no_point,
    List.mem_singleton]

theorem NamesSome.requested_eq (names_some : NamesSome select) :
    scope.requested select = Order.ofList (spelled select) := by
  rw [Scope.requested_eq, if_neg names_some.not_all]

/-- To name all attributes comes to the same as to name none exactly if no name has a point. -/
theorem requested_join_eq_iff (names : (scope.catalogue.lists.map (·.name)).Nodup)
    (named : scope.Named) (filled : scope.finalNames ≠ []) :
    scope.requested (join "," scope.finalNames) = scope.everything ↔
      ∀ name ∈ scope.finalNames, '.' ∉ name.toList := by
  have are_names : ∀ name ∈ scope.finalNames, isName name = true := fun name member =>
    named.isName_of_defines ((mem_finalNames names).mp member)
  have names_some := namesSome_join filled are_names
  constructor
  · intro same name member
    have in_everything : Selector.whole name ∈ scope.everything := by
      rw [everything, mem_ofList]
      exact List.mem_map_of_mem member
    rw [← same, names_some.requested_eq, mem_ofList] at in_everything
    exact point_notMem_of_mem_spelled in_everything
  · intro no_point
    have wholes : scope.finalNames.filterMap Selector.ofText? =
        scope.finalNames.map Selector.whole := by
      rw [← List.filterMap_eq_map]
      exact List.filterMap_congr fun name member =>
        Selector.ofText?_of_isName (are_names name member) (no_point name member)
    rw [names_some.requested_eq, spelled_join filled are_names, wholes]
    rfl

/-! ## Expansions without a filter -/

theorem expand_eq_map (select : Option String) (distinct : Bool) :
    scope.expand select none distinct = (scope.projections (select.getD "")).map fun found =>
      ⟨scope, found.fragments, found.usedAttributes, found.usedLists, none, none, distinct⟩ := by
  rw [expand]
  cases scope.projections (select.getD "") <;> rfl

/-- If nothing undefined is asked for, an expansion uses the columns of the attributes that are
reached. -/
theorem exists_expand (names : (scope.catalogue.lists.map (·.name)).Nodup) {select : Option String}
    (defined : ∀ selector, scope.AsksFor (select.getD "") selector → scope.Defines selector.name)
    (distinct : Bool) :
    ∃ expansion, scope.expand select none distinct = .ok expansion ∧
      ∀ key, key ∈ expansion.usedAttributes ↔ scope.HasColumn key ∧
        ∃ selector, scope.Reached (select.getD "") selector ∧ selector.name = key := by
  obtain ⟨all, result, projected, working, gathers, accounts⟩ := exists_projections names defined
  refine ⟨⟨scope, result.fragments, result.usedAttributes, result.usedLists, none, none, distinct⟩,
    by rw [expand_eq_map, projected]; rfl, fun key => ?_⟩
  have projects : Expansion.Projects ⟨scope, result.fragments, result.usedAttributes,
    result.usedLists, none, none, distinct⟩ scope all := projects_of_gathers gathers accounts
  rw [projects.attributes]
  constructor
  · rintro ⟨list, list_in, selector, selector_in, fragment, is_projected, rfl⟩
    obtain ⟨found, is_column, -⟩ := projection?_eq_some_iff.mp is_projected
    have key_eq := finalName_of_find? found
    exact ⟨⟨list, list_in, fragment.field, key_eq ▸ found, is_column⟩, selector,
      working.mem_iff.mp selector_in, key_eq.symm⟩
  · rintro ⟨⟨list, list_in, field, found, is_column⟩, selector, reached, rfl⟩
    exact ⟨list, list_in, selector, working.mem_iff.mpr reached, ⟨field, selector.path⟩,
      projection?_eq_some_iff.mpr ⟨found, is_column, rfl⟩, finalName_of_find? found⟩

theorem defines_of_expand (names : (scope.catalogue.lists.map (·.name)).Nodup)
    {select : Option String} {distinct : Bool} {expansion : Expansion}
    (expanded : scope.expand select none distinct = .ok expansion)
    (asks : scope.AsksFor (select.getD "") selector) : scope.Defines selector.name := by
  by_contra undefined
  obtain ⟨_, error, refused, -⟩ := exists_projections_error names ⟨selector, asks, undefined⟩
  rw [expand_eq_map, refused] at expanded
  cases expanded

/-! ## What can be had by name -/

theorem nameable_of_reached (names_some : NamesSome select)
    (defined : ∀ selector, scope.AsksFor select selector → scope.Defines selector.name)
    (reached : scope.Reached select selector) : scope.Nameable selector.name := by
  induction reached with
  | asked asks =>
      have no_point := point_notMem_of_mem_spelled (names_some.asksFor_iff.mp asks)
      exact .plain (defined _ asks) no_point
  | led _ leads induction =>
      obtain ⟨list, list_in, field, found, child, child_in, is_child, name, named, rfl⟩ := leads
      exact .led induction ⟨list, list_in, field, found, child, child_in, is_child, name, named, rfl⟩

theorem Nameable.exists_reached (named : scope.Named) (nameable : scope.Nameable name) :
    ∃ start, scope.Defines start ∧ '.' ∉ start.toList ∧ scope.Reached start (.whole name) := by
  induction nameable with
  | @plain name defined no_point =>
      have is_name := named.isName_of_defines defined
      exact ⟨name, defined, no_point, .asked ((asksFor_name_iff is_name no_point).mpr rfl)⟩
  | led _ leads induction =>
      obtain ⟨start, defined, no_point, reached⟩ := induction
      exact ⟨start, defined, no_point, .led reached leads⟩

/-- What a selection by name uses can be had by name, and everything that can be had by name is used
by one that names a single attribute. -/
theorem exists_names_iff (names : (scope.catalogue.lists.map (·.name)).Nodup) (named : scope.Named)
    (distinct : Bool) (has_column : scope.HasColumn key) :
    (∃ select expansion, NamesSome select ∧
        scope.expand (some select) none distinct = .ok expansion ∧ key ∈ expansion.usedAttributes) ↔
      scope.Nameable key := by
  constructor
  · rintro ⟨select, expansion, names_some, expanded, used⟩
    have defined : ∀ selector, scope.AsksFor select selector → scope.Defines selector.name :=
      fun selector asks => defines_of_expand names expanded asks
    obtain ⟨other, other_expanded, used_iff⟩ :=
      @exists_expand scope names (some select) defined distinct
    obtain rfl := Except.ok.inj (other_expanded.symm.trans expanded)
    obtain ⟨-, selector, reached, rfl⟩ := (used_iff key).mp used
    exact nameable_of_reached names_some defined reached
  · intro nameable
    obtain ⟨start, start_defined, no_point, reached⟩ := nameable.exists_reached named
    have is_name := named.isName_of_defines start_defined
    have defined : ∀ selector, scope.AsksFor start selector → scope.Defines selector.name := by
      intro selector asks
      rw [(asksFor_name_iff is_name no_point).mp asks]
      exact start_defined
    obtain ⟨expansion, expanded, used_iff⟩ :=
      @exists_expand scope names (some start) defined distinct
    exact ⟨start, expansion, namesSome_of_isName is_name, expanded,
      (used_iff key).mpr ⟨has_column, .whole key, reached, rfl⟩⟩

/-- Without pointers, only attributes without points can be had by name. -/
theorem nameable_iff_of_columns
    (columns : ∀ list ∈ scope.lists, ∀ field ∈ list.attributes, field.children = []) :
    scope.Nameable name ↔ scope.Defines name ∧ '.' ∉ name.toList := by
  refine ⟨fun nameable => ?_, fun ⟨defined, no_point⟩ => .plain defined no_point⟩
  cases nameable with
  | plain defined no_point => exact ⟨defined, no_point⟩
  | led _ leads =>
      obtain ⟨list, list_in, field, found, child, -, is_child, -⟩ := leads
      rw [columns list list_in field (List.mem_of_find?_eq_some found)] at is_child
      cases is_child

theorem asksFor_empty_iff : scope.AsksFor "" selector ↔
    ∃ list ∈ scope.lists, ∃ name ∈ list.finalNames, selector = .whole name := by
  rw [AsksFor, if_pos (.inl rfl)]

end

/-- In a catalogue of lists that are made step by step, naming all attributes of the allowed lists
comes to the same as naming none, unless a name has a point. Everything is selected if nothing is
named, but what is selected can be had by name only as far as pointers lead to it from names without
points. -/
theorem expand_join_finalNames {lists : List TargetList} {scope : Scope}
    (made : ∀ list ∈ lists, list.Made) (built : Catalogue.build lists = .ok scope.catalogue)
    (filled : scope.finalNames ≠ []) :
    (scope.requested (join "," scope.finalNames) = scope.everything ↔
        ∀ name ∈ scope.finalNames, '.' ∉ name.toList) ∧
      ((∀ name ∈ scope.finalNames, '.' ∉ name.toList) → ∀ conditions distinct,
        scope.expand (some (join "," scope.finalNames)) conditions distinct =
          scope.expand none conditions distinct) ∧
      ∀ distinct, ∃ whole, scope.expand none none distinct = .ok whole ∧
        ∀ key ∈ whole.usedAttributes,
          (∃ select expansion, NamesSome select ∧
            scope.expand (some select) none distinct = .ok expansion ∧
              key ∈ expansion.usedAttributes) ↔ scope.Nameable key := by
  have names : (scope.catalogue.lists.map (·.name)).Nodup :=
    (Catalogue.pairwise_of_build built).imp fun lt => lt.ne
  have named : scope.Named := fun list list_in =>
    (made list ((Catalogue.mem_lists_of_build built).mp list_in)).isName
  have requested_iff := requested_join_eq_iff names named filled
  refine ⟨requested_iff, fun no_point conditions distinct => ?_, fun distinct => ?_⟩
  · have same : scope.projections (join "," scope.finalNames) = scope.projections "" := by
      have for_nothing : scope.requested "" = scope.everything := rfl
      rw [projections, projections, requested_iff.mpr no_point, for_nothing]
    rw [expand, expand, Option.getD_some, Option.getD_none, same]
  · have defined : ∀ selector, scope.AsksFor "" selector → scope.Defines selector.name := by
      intro selector asks
      obtain ⟨list, list_in, name, name_in, rfl⟩ := asksFor_empty_iff.mp asks
      exact ⟨list, list_in, TargetList.isSome_find?_iff.mpr name_in⟩
    obtain ⟨whole, expanded, used_iff⟩ := @exists_expand scope names none defined distinct
    exact ⟨whole, expanded, fun key used =>
      exists_names_iff names named distinct ((used_iff key).mp used).1⟩

/-- A zone with a point in its name is selected with everything, and by no name. -/
theorem expand_join_finalNames_zone :
    let name : Attribute := .plain "name" (.column "c.name")
    let zone : Attribute := .plain "geo.zone" (.column "c.zone")
    let city : TargetList := ⟨"city", ⟨.map, none, none, some "_city"⟩, [name, zone]⟩
    let scope : Scope := ⟨⟨Catalogue.sortLists [city]⟩, .standard, ["city"]⟩
    city.Made ∧ Catalogue.build [city] = .ok scope.catalogue ∧
      scope.finalNames = ["name", "geo.zone"] ∧
      (∃ whole, scope.expand none none true = .ok whole ∧ "geo.zone" ∈ whole.usedAttributes) ∧
      ∀ select expansion, NamesSome select → scope.expand (some select) none true = .ok expansion →
        "geo.zone" ∉ expansion.usedAttributes := by
  intro name zone city scope
  have name_made : name.Made :=
    .ofColumn (show Attribute.ofColumn "name" "c.name" = .ok name from rfl)
  have zone_made : zone.Made :=
    .ofColumn (show Attribute.ofColumn "geo.zone" "c.zone" = .ok zone from rfl)
  have empty_made : TargetList.Made { city with attributes := [] } :=
    .empty (show TargetList.empty "city" ⟨.map, none, none, some "_city"⟩ = .ok _ from rfl)
  have name_added : TargetList.Made { city with attributes := [name] } :=
    .add empty_made name_made rfl
  have made : city.Made := .add name_added zone_made rfl
  have built : Catalogue.build [city] = .ok scope.catalogue := rfl
  have final_names : scope.finalNames = ["name", "geo.zone"] := by decide
  obtain ⟨-, -, by_name⟩ := expand_join_finalNames (List.forall_mem_singleton.mpr made) built
    (final_names ▸ List.cons_ne_nil _ _)
  obtain ⟨whole, expanded, names_iff⟩ := by_name true
  have used : (scope.expand none none true).toOption.map Expansion.usedAttributes =
      some ["geo.zone", "name"] := by decide +kernel
  rw [expanded] at used
  have zone_used : "geo.zone" ∈ whole.usedAttributes :=
    Option.some.inj used ▸ List.mem_cons_self
  have not_nameable : ¬scope.Nameable "geo.zone" := by
    rw [nameable_iff_of_columns (by decide)]
    exact fun ⟨_, no_point⟩ => no_point (by decide)
  refine ⟨made, built, final_names, ⟨whole, expanded, zone_used⟩, ?_⟩
  intro select expansion names_some named_expanded named_used
  exact not_nameable ((names_iff "geo.zone" zone_used).mp
    ⟨select, expansion, names_some, named_expanded, named_used⟩)

end Scope

end StationGateway
