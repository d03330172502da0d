import Mathlib
import StationGateway.Proofs.Catalogue.Building
import StationGateway.Proofs.Expansion.Projected

/-!
# Closure of selections

A selector that names a pointer leads on to the whole attributes of the lists it points to, and these
may point back. The queue finds exactly the selectors that can be reached from those a request asks
for, each of them once and within its budget. It fails if and only if a request asks for a selector
that no allowed list defines, as pointers lead to defined ones only. -/

namespace StationGateway

open Text StationGateway.Order Outcome

namespace Scope

/-- The selectors that a `select` parameter spells. -/
def spelled (select : String) : List Selector :=
  (pieces ',' select).filterMap Selector.ofText?

/-- Whether a `select` parameter asks for a selector: one that it spells, or any whole attribute of an
allowed list if it is blank or names `*`. -/
def AsksFor (scope : Scope) (select : String) (selector : Selector) : Prop :=
  if spelled select = [] ∨ ∃ other ∈ spelled select, other.name = "*" then
    ∃ list ∈ scope.lists, ∃ name ∈ list.finalNames, selector = .whole name
  else selector ∈ spelled select

/-- Whether a selector names a pointer of an allowed list to an allowed list that has another one
among its whole attributes. -/
def LeadsTo (scope : Scope) (selector next : Selector) : Prop :=
  ∃ list ∈ scope.lists, ∃ field, list.find? selector.name = some field ∧
    ∃ child ∈ scope.lists, child.name ∈ field.children ∧ ∃ name ∈ child.finalNames, next = .whole name

/-- The least set of selectors with those that a request asks for and those that its members lead to. -/
inductive Reached (scope : Scope) (select : String) : Selector → Prop where
  /-- What is asked for is reached. -/
  | asked {selector : Selector} (asks : scope.AsksFor select selector) : Reached scope select selector
  /-- Pointers are followed. -/
  | led {selector next : Selector} (reached : Reached scope select selector)
      (leads : scope.LeadsTo selector next) : Reached scope select next

/-- Whether an allowed list defines an attribute. -/
def Defines (scope : Scope) (name : String) : Prop :=
  ∃ list ∈ scope.lists, (list.find? name).isSome

/-- The error for a selector that no allowed list defines: whether another list does, counts. -/
def Refuses (scope : Scope) (selector : Selector) (error : GatewayError) : Prop :=
  (∃ list ∈ scope.catalogue.lists, (list.find? selector.name).isSome) ∧
      error = .attributeNotReachable selector.name (join ", " scope.allowed) ∨
    (¬∃ list ∈ scope.catalogue.lists, (list.find? selector.name).isSome) ∧
      error = .unknownAttribute selector.name

section

variable {scope : Scope} {select : String} {selector next : Selector}

/-! ## Whole attributes -/

theorem mem_wholes (names : (scope.catalogue.lists.map (·.name)).Nodup) {given : List String} :
    selector ∈ ((given.filterMap scope.catalogue.get?).flatMap TargetList.finalNames).map
        Selector.whole ↔
      ∃ list ∈ scope.catalogue.lists, list.name ∈ given ∧ ∃ name ∈ list.finalNames,
        selector = .whole name := by
  constructor
  · intro member
    obtain ⟨name, name_in, rfl⟩ := List.mem_map.mp member
    obtain ⟨list, list_in, named⟩ := List.mem_flatMap.mp name_in
    obtain ⟨list_name, given_in, found⟩ := List.mem_filterMap.mp list_in
    have same_name : list.name = list_name := by simpa using List.find?_some found
    exact ⟨list, List.mem_of_find?_eq_some found, same_name ▸ given_in, name, named, rfl⟩
  · rintro ⟨list, list_in, given_in, name, named, rfl⟩
    refine List.mem_map.mpr ⟨name, List.mem_flatMap.mpr ⟨list, ?_, named⟩, rfl⟩
    exact List.mem_filterMap.mpr ⟨list.name, given_in, find?_name names list_in⟩

theorem mem_lists {list : TargetList} :
    list ∈ scope.lists ↔ list ∈ scope.catalogue.lists ∧ list.name ∈ scope.allowed := by
  rw [lists, List.mem_filter, List.contains_iff_mem]

theorem asksForAll_iff {select : String} :
    ((Order.ofList (spelled select)).isEmpty ||
      (Order.ofList (spelled select)).any fun other => other.name = "*") = true ↔
        spelled select = [] ∨ ∃ other ∈ spelled select, other.name = "*" := by
  have empty_iff : Order.ofList (spelled select) = [] ↔ spelled select = [] := by
    simp only [List.eq_nil_iff_forall_not_mem, mem_ofList]
  simp [List.isEmpty_iff, empty_iff, mem_ofList]

theorem requested_eq (scope : Scope) (select : String) :
    scope.requested select =
      if spelled select = [] ∨ ∃ other ∈ spelled select, other.name = "*" then scope.everything
      else Order.ofList (spelled select) := by
  have requested_eq : scope.requested select =
      if ((Order.ofList (spelled select)).isEmpty ||
          (Order.ofList (spelled select)).any fun other => other.name = "*") = true then
        scope.everything
      else Order.ofList (spelled select) := rfl
  rw [requested_eq]
  exact if_congr asksForAll_iff rfl rfl

theorem mem_requested (names : (scope.catalogue.lists.map (·.name)).Nodup) :
    selector ∈ scope.requested select ↔ scope.AsksFor select selector := by
  rw [requested_eq, AsksFor]
  split_ifs
  · rw [everything, mem_ofList, mem_wholes names]
    simp only [mem_lists, and_assoc]
  · exact mem_ofList

/-- A request asks for selectors in their order. -/
theorem pairwise_requested (scope : Scope) (select : String) :
    (scope.requested select).Pairwise (· < ·) := by
  rw [requested]
  split_ifs with asks_for_all
  · exact pairwise_ofList _
  · exact pairwise_ofList _

/-- A request asks for every selector once. -/
theorem nodup_requested (scope : Scope) (select : String) : (scope.requested select).Nodup :=
  (scope.pairwise_requested select).imp fun lt => ne_of_irrefl lt

/-! ## Pointers -/

theorem mem_visitAll (names : (scope.catalogue.lists.map (·.name)).Nodup) {projections : Projections}
    {visited : List TargetList} : next ∈ (scope.visitAll selector projections visited).2 ↔
      ∃ list ∈ visited, ∃ field, list.find? selector.name = some field ∧
        ∃ child ∈ scope.lists, child.name ∈ field.children ∧ ∃ name ∈ child.finalNames,
          next = .whole name := by
  induction visited generalizing projections with
  | nil => simp [visitAll]
  | cons list rest induction =>
      have of_list : next ∈ (scope.visit selector projections list).2 ↔
          ∃ field, list.find? selector.name = some field ∧
            ∃ child ∈ scope.lists, child.name ∈ field.children ∧ ∃ name ∈ child.finalNames,
              next = .whole name := by
        rw [visit]
        cases found : list.find? selector.name with
        | none => simp
        | some field =>
            by_cases is_pointer : field.isPointer = true
            · simp only [is_pointer, if_true, pointedTo, mem_wholes names, Option.some.injEq,
                exists_eq_left', List.mem_filter, List.contains_iff_mem, mem_lists]
              exact exists_congr fun child => by tauto
            · have no_children : field.children = [] := by
                simpa [Attribute.isPointer] using is_pointer
              simp [is_pointer, no_children]
      rw [visitAll, List.mem_append, induction, of_list, List.exists_mem_cons_iff]

/-- What one selector leads on to is what it names pointers to. -/
theorem mem_visitAll_of_resolve (names : (scope.catalogue.lists.map (·.name)).Nodup)
    {visited : List TargetList} (resolved : scope.resolve selector.name = .ok visited)
    (projections : Projections) :
    next ∈ (scope.visitAll selector projections visited).2 ↔ scope.LeadsTo selector next := by
  rw [mem_visitAll names, eq_definersAmong_of_resolve resolved, definersAmong_eq]
  refine exists_congr fun list => ?_
  rw [List.mem_filter, and_assoc]
  refine and_congr_right fun _ => ⟨fun found => found.2, fun found => ⟨?_, found⟩⟩
  obtain ⟨field, field_eq, -⟩ := found
  rw [field_eq]
  rfl

theorem defines_of_leadsTo (leads : scope.LeadsTo selector next) : scope.Defines next.name := by
  obtain ⟨-, -, -, -, child, child_in, -, name, named, rfl⟩ := leads
  exact ⟨child, child_in, TargetList.isSome_find?_iff.mpr named⟩

/-- Only what is asked for itself may be undefined. -/
theorem Reached.defines (defined : ∀ selector, scope.AsksFor select selector →
    scope.Defines selector.name) (reached : scope.Reached select selector) :
    scope.Defines selector.name := by
  cases reached with
  | asked asks => exact defined selector asks
  | led _ leads => exact defines_of_leadsTo leads

/-! ## The queue -/

theorem nodup_append_unseen {seen : List Selector} (nodup : seen.Nodup) (found : List Selector) :
    (seen ++ unseen seen found).Nodup := by
  induction found generalizing seen with
  | nil => rwa [unseen, List.append_nil]
  | cons selector rest induction =>
      rw [unseen]
      split_ifs with is_seen
      · exact induction nodup
      · have rest_nodup := induction (List.nodup_cons.mpr ⟨is_seen, nodup⟩)
        exact (List.perm_middle.nodup_iff).mpr rest_nodup

theorem mem_append_unseen {seen found : List Selector} :
    selector ∈ seen ++ unseen seen found ↔ selector ∈ seen ∨ selector ∈ found := by
  induction found generalizing seen with
  | nil => simp [unseen]
  | cons first rest induction =>
      rw [unseen]
      split_ifs with is_seen
      · rw [induction, List.mem_cons]
        refine ⟨fun found => found.imp id .inr, fun found => ?_⟩
        rcases found with in_seen | rfl | in_rest
        · exact .inl in_seen
        · exact .inl is_seen
        · exact .inr in_rest
      · have inner : selector ∈ (first :: seen) ++ unseen (first :: seen) rest ↔ _ := induction
        simp only [List.mem_append, List.mem_cons] at inner ⊢
        tauto

/-- How far the selectors that can be reached have been worked through: some are done, and those they
lead to are done or in the queue. -/
structure Working (scope : Scope) (select : String) (done queue : List Selector) : Prop where
  /-- No selector comes up twice. -/
  nodup : (done ++ queue).Nodup
  /-- Nothing else comes up. -/
  reached : ∀ selector ∈ done ++ queue, scope.Reached select selector
  /-- What is asked for is not forgotten. -/
  asked : ∀ selector, scope.AsksFor select selector → selector ∈ done ++ queue
  /-- Nor is what selectors lead to. -/
  led : ∀ selector ∈ done, ∀ next, scope.LeadsTo selector next → next ∈ done ++ queue

variable {done queue : List Selector}

theorem working_requested (names : (scope.catalogue.lists.map (·.name)).Nodup) :
    scope.Working select [] (scope.requested select) where
  nodup := scope.nodup_requested select
  reached _ member := .asked ((mem_requested names).mp member)
  asked _ asks := (mem_requested names).mpr asks
  led _ member := absurd member List.not_mem_nil

theorem Working.advance (working : scope.Working select done (selector :: queue))
    {found : List Selector} (found_iff : ∀ next, next ∈ found ↔ scope.LeadsTo selector next) :
    scope.Working select (done ++ [selector])
      (queue ++ unseen (done ++ selector :: queue) found) := by
  have all_eq : (done ++ [selector]) ++ (queue ++ unseen (done ++ selector :: queue) found) =
      (done ++ selector :: queue) ++ unseen (done ++ selector :: queue) found := by simp
  have in_all : ∀ {other}, other ∈ done ++ selector :: queue →
      other ∈ (done ++ [selector]) ++ (queue ++ unseen (done ++ selector :: queue) found) :=
    fun member => all_eq ▸ List.mem_append_left _ member
  refine ⟨all_eq ▸ nodup_append_unseen working.nodup found, fun other member => ?_,
    fun other asks => in_all (working.asked other asks), fun other member next leads => ?_⟩
  · rcases mem_append_unseen.mp (all_eq ▸ member) with is_seen | is_found
    · exact working.reached other is_seen
    · have selector_reached := working.reached selector (List.mem_append_right _ List.mem_cons_self)
      exact .led selector_reached ((found_iff other).mp is_found)
  · rcases List.mem_append.mp member with is_done | is_selector
    · exact in_all (working.led other is_done next leads)
    · obtain rfl := List.mem_singleton.mp is_selector
      exact all_eq ▸ mem_append_unseen.mpr (.inr ((found_iff next).mpr leads))

/-- When the queue is empty, the selectors that are done are those that can be reached. -/
theorem Working.mem_iff (working : scope.Working select done []) :
    selector ∈ done ↔ scope.Reached select selector := by
  have all_eq : done ++ [] = done := List.append_nil done
  constructor
  · exact fun member => working.reached selector (all_eq.symm ▸ member)
  · intro reached
    induction reached with
    | asked asks => exact all_eq ▸ working.asked _ asks
    | led _ leads induction => exact all_eq ▸ working.led _ induction _ leads

/-- There are no more selectors than the budget has steps for. -/
theorem Working.length_le (names : (scope.catalogue.lists.map (·.name)).Nodup)
    (working : scope.Working select done queue) :
    (done ++ queue).length ≤ (scope.requested select).length + scope.catalogue.attributeCount := by
  have within : ∀ selector ∈ done ++ queue, selector ∈ scope.requested select ++
      (scope.catalogue.lists.flatMap TargetList.finalNames).map Selector.whole := by
    intro selector member
    cases working.reached selector member with
    | asked asks => exact List.mem_append_left _ ((mem_requested names).mpr asks)
    | led _ leads =>
        obtain ⟨-, -, -, -, child, child_in, -, name, named, rfl⟩ := leads
        refine List.mem_append_right _ (List.mem_map.mpr ⟨name, ?_, rfl⟩)
        exact List.mem_flatMap.mpr ⟨child, (mem_lists.mp child_in).1, named⟩
  have count_eq : ((scope.catalogue.lists.flatMap TargetList.finalNames).map Selector.whole).length =
      scope.catalogue.attributeCount := by
    simp [Catalogue.attributeCount, TargetList.finalNames, List.length_flatMap]
  have shorter := (List.subperm_of_subset working.nodup within).length_le
  simpa only [List.length_append, count_eq] using shorter

/-! ## What the queue gathers -/

/-- Projections that use nothing but what some selectors project. -/
structure Accounts (scope : Scope) (done : List Selector) (projections : Projections) : Prop where
  /-- A list with an entry has a projection. -/
  filled : ∀ entry ∈ projections.fragments, entry.2 ≠ []
  /-- A list in use has a column that is selected. -/
  lists : ∀ name ∈ projections.usedLists, ∃ list ∈ scope.lists, list.name = name ∧
    ∃ selector ∈ done, (projection? list selector).isSome
  /-- An attribute in use is a column that is selected. -/
  attributes : ∀ key ∈ projections.usedAttributes, ∃ list ∈ scope.lists, ∃ selector ∈ done,
    selector.name = key ∧ (projection? list selector).isSome
  /-- The lists in use are in order. -/
  sorted : projections.usedLists.Pairwise (· < ·)
  /-- The attributes in use are in order. -/
  keys_sorted : projections.usedAttributes.Pairwise (· < ·)

theorem accounts_empty (scope : Scope) : scope.Accounts [] .empty where
  filled _ member := absurd member List.not_mem_nil
  lists _ member := absurd member List.not_mem_nil
  attributes _ member := absurd member List.not_mem_nil
  sorted := .nil
  keys_sorted := .nil

variable {projections : Projections}

theorem Accounts.mono (accounts : scope.Accounts done projections) {more : List Selector}
    (within : ∀ selector ∈ done, selector ∈ more) : scope.Accounts more projections where
  filled := accounts.filled
  lists name member := by
    obtain ⟨list, list_in, named, selector, selector_in, projected⟩ := accounts.lists name member
    exact ⟨list, list_in, named, selector, within selector selector_in, projected⟩
  attributes key member := by
    obtain ⟨list, list_in, selector, selector_in, found⟩ := accounts.attributes key member
    exact ⟨list, list_in, selector, within selector selector_in, found⟩
  sorted := accounts.sorted
  keys_sorted := accounts.keys_sorted

theorem Accounts.add (accounts : scope.Accounts done projections) (selector_in : selector ∈ done)
    {list : TargetList} (list_in : list ∈ scope.lists) {fragment : Fragment}
    (projected : projection? list selector = some fragment) :
    scope.Accounts done (projections.add list fragment) := by
  have is_projected : (projection? list selector).isSome := by rw [projected]; rfl
  refine ⟨fun entry member => ?_, fun name member => ?_, fun key member => ?_,
    pairwise_insert accounts.sorted _, pairwise_insert accounts.keys_sorted _⟩
  · rcases mem_put member with rfl | is_old
    · exact List.append_ne_nil_of_right_ne_nil _ (List.cons_ne_nil _ _)
    · exact accounts.filled entry is_old
  · rcases mem_insert.mp member with rfl | is_old
    · exact ⟨list, list_in, rfl, selector, selector_in, is_projected⟩
    · exact accounts.lists name is_old
  · rcases mem_insert.mp member with rfl | is_old
    · have field_name := finalName_of_find? (projection?_eq_some_iff.mp projected).1
      exact ⟨list, list_in, selector, selector_in, field_name.symm, is_projected⟩
    · exact accounts.attributes key is_old

theorem Accounts.visitAll (accounts : scope.Accounts done projections) (selector_in : selector ∈ done)
    {visited : List TargetList} (within : ∀ list ∈ visited, list ∈ scope.lists) :
    scope.Accounts done (scope.visitAll selector projections visited).1 := by
  induction visited generalizing projections with
  | nil => exact accounts
  | cons list rest induction =>
      obtain ⟨list_in, rest_within⟩ := List.forall_mem_cons.mp within
      rw [Scope.visitAll]
      refine induction ?_ rest_within
      rw [visit_eq]
      cases projected : projection? list selector with
      | none => exact accounts
      | some fragment => exact accounts.add selector_in list_in projected

theorem exists_resolve (defined : scope.Defines selector.name) :
    ∃ visited, scope.resolve selector.name = .ok visited ∧ ∀ list ∈ visited, list ∈ scope.lists := by
  have visited_eq := definersAmong_eq scope selector.name
  obtain ⟨list, list_in, defines⟩ := defined
  have list_visited : list ∈ scope.catalogue.definersAmong scope.allowed selector.name :=
    visited_eq ▸ List.mem_filter.mpr ⟨list_in, defines⟩
  exact ⟨_, resolve_eq (List.ne_nil_of_mem list_visited), fun other other_in =>
    List.mem_of_mem_filter (visited_eq ▸ other_in)⟩

/-- If nothing undefined is asked for, all selectors that can be reached are worked through, each of
them once. -/
theorem exists_of_project (names : (scope.catalogue.lists.map (·.name)).Nodup)
    (defined : ∀ selector, scope.AsksFor select selector → scope.Defines selector.name)
    {budget : Nat} (working : scope.Working select done queue)
    (gathers : scope.Gathers done projections) (accounts : scope.Accounts done projections)
    (enough : (scope.requested select).length + scope.catalogue.attributeCount <
      budget + done.length) :
    ∃ all result, scope.project budget (done ++ queue) queue projections = .ok result ∧
      scope.Working select all [] ∧ scope.Gathers all result ∧ scope.Accounts all result := by
  induction budget generalizing done queue projections with
  | zero =>
      have length_le := working.length_le names
      rw [List.length_append] at length_le
      omega
  | succ budget induction =>
      cases queue with
      | nil => exact ⟨done, projections, rfl, working, gathers, accounts⟩
      | cons selector queue =>
          have reached := working.reached selector (List.mem_append_right _ List.mem_cons_self)
          obtain ⟨visited, resolved, within⟩ := exists_resolve (reached.defines defined)
          have lists_names : (scope.lists.map (·.name)).Nodup :=
            names.sublist (List.filter_sublist.map _)
          have next_gathers := gathers.visitAll lists_names selector resolved
          have next_accounts := (accounts.mono fun other member =>
            List.mem_append_left [selector] member).visitAll
              (List.mem_append_right done List.mem_cons_self) within
          have next_working := working.advance fun next =>
            mem_visitAll_of_resolve names resolved projections
          obtain ⟨all, result, projected, finished⟩ :=
            induction next_working next_gathers next_accounts (by
              rw [List.length_append, List.length_singleton]
              omega)
          refine ⟨all, result, ?_, finished⟩
          have seen_eq : ∀ fresh : List Selector, (done ++ [selector]) ++ (queue ++ fresh) =
              (done ++ selector :: queue) ++ fresh := by simp
          rw [seen_eq] at projected
          rw [project, resolved]
          exact projected

/-- The first selector of the queue that is not defined stops the work. -/
theorem project_error {before after seen : List Selector} {error : GatewayError} {budget : Nat}
    (defined : ∀ selector ∈ before, scope.Defines selector.name)
    (refused : scope.resolve selector.name = .error error) (enough : before.length < budget)
    (projections : Projections) :
    scope.project budget seen (before ++ selector :: after) projections = .error error := by
  induction before generalizing budget seen after projections with
  | nil =>
      obtain ⟨budget, rfl⟩ := Nat.exists_eq_succ_of_ne_zero (Nat.ne_of_gt enough)
      rw [List.nil_append, project, refused]
      rfl
  | cons first before induction =>
      obtain ⟨budget, rfl⟩ := Nat.exists_eq_succ_of_ne_zero (Nat.ne_zero_of_lt enough)
      obtain ⟨first_defined, rest_defined⟩ := List.forall_mem_cons.mp defined
      obtain ⟨visited, resolved, -⟩ := exists_resolve first_defined
      rw [List.cons_append, project, resolved]
      simp only [Bind.bind, Except.bind, List.append_assoc, List.cons_append]
      exact induction rest_defined (Nat.lt_of_succ_lt_succ enough) _

/-- A selector that no allowed list defines is refused. -/
theorem exists_resolve_error (undefined : ¬scope.Defines selector.name) :
    ∃ error, scope.resolve selector.name = .error error ∧ scope.Refuses selector error := by
  have nowhere : scope.catalogue.definersAmong scope.allowed selector.name = [] := by
    rw [definersAmong_eq, List.filter_eq_nil_iff]
    exact fun list list_in defines => undefined ⟨list, list_in, defines⟩
  have knows_iff : scope.catalogue.knows selector.name = true ↔
      ∃ list ∈ scope.catalogue.lists, (list.find? selector.name).isSome := by
    simp [Catalogue.knows, Catalogue.definers, List.filter_eq_nil_iff, Option.isSome_iff_ne_none]
  rw [resolve, nowhere]
  cases known : scope.catalogue.knows selector.name with
  | true => exact ⟨_, rfl, .inl ⟨knows_iff.mp known, rfl⟩⟩
  | false => exact ⟨_, rfl, .inr ⟨knows_iff.not.mp (known ▸ Bool.false_ne_true), rfl⟩⟩

end

end Scope

/-! ## Expansions without a filter -/

/-- Whether an expansion has what selectors project from the allowed lists, and uses these lists and
attributes only. -/
structure Expansion.Projects (expansion : Expansion) (scope : Scope) (all : List Selector) : Prop where
  /-- A list has one projection for each selector of one of its columns, and no entry if there is
  none. -/
  fragments : ∀ list ∈ scope.lists, find? list.name expansion.fragments =
    if all.filterMap (Scope.projection? list) = [] then none
    else some (all.filterMap (Scope.projection? list))
  /-- Other lists have no entry. -/
  known : ∀ name, name ∉ scope.lists.map (·.name) → find? name expansion.fragments = none
  /-- The lists in use are those with an entry. -/
  lists : ∀ name, name ∈ expansion.usedLists ↔ ∃ list ∈ scope.lists, list.name = name ∧
    ∃ selector ∈ all, (Scope.projection? list selector).isSome
  /-- The attributes in use are those of the projections. -/
  attributes : ∀ key, key ∈ expansion.usedAttributes ↔ ∃ list ∈ scope.lists, ∃ selector ∈ all,
    ∃ fragment, Scope.projection? list selector = some fragment ∧ fragment.field.finalName = key
  /-- The lists in use are in order, each of them once. -/
  sorted : expansion.usedLists.Pairwise (· < ·)
  /-- So are the attributes in use. -/
  keys_sorted : expansion.usedAttributes.Pairwise (· < ·)

namespace Scope

section

variable {scope : Scope} {all : List Selector}

/-- What a selector projects from a list stands in the entry of the list. -/
theorem Gathers.exists_entry {projections : Projections} (gathers : scope.Gathers all projections)
    {list : TargetList} (list_in : list ∈ scope.lists) {selector : Selector} (selector_in : selector ∈ all)
    {fragment : Fragment} (projected : projection? list selector = some fragment) :
    ∃ fragments, (list.name, fragments) ∈ projections.fragments ∧ fragment ∈ fragments := by
  have member : fragment ∈ all.filterMap (projection? list) :=
    List.mem_filterMap.mpr ⟨selector, selector_in, projected⟩
  rw [← gathers.fragments list list_in] at member
  cases found : find? list.name projections.fragments with
  | none =>
      rw [found] at member
      cases member
  | some fragments =>
      rw [found] at member
      exact ⟨fragments, mem_of_find? found, member⟩

/-- Projections that are gathered from selectors and use nothing else. -/
theorem projects_of_gathers {expansion : Expansion} (gathers : scope.Gathers all expansion.projected)
    (accounts : scope.Accounts all expansion.projected) : expansion.Projects scope all where
  fragments list list_in := by
    have gathered : (find? list.name expansion.fragments).getD [] = _ :=
      gathers.fragments list list_in
    cases found : find? list.name expansion.fragments with
    | none =>
        rw [found] at gathered
        rw [← gathered]
        rfl
    | some fragments =>
        have filled : fragments ≠ [] := accounts.filled _ (mem_of_find? found)
        rw [found] at gathered
        rw [← gathered, Option.getD_some, if_neg filled]
  known name absent := by
    refine find?_eq_none fun entry member same => absent ?_
    obtain ⟨list, list_in, list_name⟩ := gathers.known entry member
    exact List.mem_map.mpr ⟨list, list_in, list_name.trans same⟩
  lists name := by
    refine ⟨fun member => accounts.lists name member, ?_⟩
    rintro ⟨list, list_in, rfl, selector, selector_in, is_projected⟩
    obtain ⟨fragment, projected⟩ := Option.isSome_iff_exists.mp is_projected
    obtain ⟨fragments, entry_in, -⟩ := gathers.exists_entry list_in selector_in projected
    exact (gathers.used _ entry_in).1
  attributes key := by
    constructor
    · intro member
      obtain ⟨list, list_in, selector, selector_in, rfl, is_projected⟩ := accounts.attributes key member
      obtain ⟨fragment, projected⟩ := Option.isSome_iff_exists.mp is_projected
      exact ⟨list, list_in, selector, selector_in, fragment, projected,
        finalName_of_find? (projection?_eq_some_iff.mp projected).1⟩
    · rintro ⟨list, list_in, selector, selector_in, fragment, projected, rfl⟩
      obtain ⟨fragments, entry_in, fragment_in⟩ := gathers.exists_entry list_in selector_in projected
      exact (gathers.used _ entry_in).2 fragment fragment_in
  sorted := accounts.sorted
  keys_sorted := accounts.keys_sorted

variable {select : String}

/-- If nothing undefined is asked for, everything that can be reached is projected. -/
theorem exists_projections (names : (scope.catalogue.lists.map (·.name)).Nodup)
    (defined : ∀ selector, scope.AsksFor select selector → scope.Defines selector.name) :
    ∃ all result, scope.projections select = .ok result ∧ scope.Working select all [] ∧
      scope.Gathers all result ∧ scope.Accounts all result := by
  have enough : (scope.requested select).length + scope.catalogue.attributeCount <
      (scope.requested select).length + scope.catalogue.attributeCount + 1 +
        ([] : List Selector).length :=
    Nat.lt_succ_self _
  exact exists_of_project names defined (working_requested names) (gathers_empty scope)
    (accounts_empty scope) enough

/-- If something undefined is asked for, the least such selector is refused. -/
theorem exists_projections_error (names : (scope.catalogue.lists.map (·.name)).Nodup)
    (asked : ∃ selector, scope.AsksFor select selector ∧ ¬scope.Defines selector.name) :
    ∃ selector error, scope.projections select = .error error ∧
      scope.AsksFor select selector ∧ ¬scope.Defines selector.name ∧
      (∀ other, scope.AsksFor select other → ¬scope.Defines other.name →
        other = selector ∨ selector < other) ∧
      scope.Refuses selector error := by
  classical
  have requested_iff : ∀ selector,
      selector ∈ scope.requested select ↔ scope.AsksFor select selector :=
    fun _ => mem_requested names
  obtain ⟨selector, found⟩ : ∃ selector, (scope.requested select).find?
      (fun selector => ¬scope.Defines selector.name) = some selector := by
    obtain ⟨other, asks, undefined⟩ := asked
    refine Option.isSome_iff_exists.mp (List.find?_isSome.mpr ⟨other, ?_, by simpa using undefined⟩)
    exact (requested_iff other).mpr asks
  obtain ⟨undefined, before, after, requested_eq, before_defined⟩ :=
    List.find?_eq_some_iff_append.mp found
  obtain ⟨error, refused, refuses⟩ := exists_resolve_error (by simpa using undefined)
  have defined : ∀ other ∈ before, scope.Defines other.name := fun other member => by
    simpa using before_defined other member
  have projected : scope.projections select = .error error := by
    rw [projections, requested_eq]
    exact project_error defined refused (by
      rw [List.length_append]
      omega) _
  refine ⟨selector, error, projected, (requested_iff selector).mp ?_, by simpa using undefined,
    fun other asks other_undefined => ?_, refuses⟩
  · exact List.mem_of_find?_eq_some found
  · have other_in := (requested_iff other).mpr asks
    have sorted := scope.pairwise_requested select
    rw [requested_eq] at other_in sorted
    rcases List.mem_append.mp other_in with in_before | in_rest
    · exact absurd (defined other in_before) other_undefined
    · rcases List.mem_cons.mp in_rest with is_selector | in_after
      · exact .inl is_selector
      · exact .inr ((List.pairwise_cons.mp (List.pairwise_append.mp sorted).2.1).1 other in_after)

end

end Scope

/-- Selecting without a filter closes what a request asks for under pointers, and refuses the first
selector of the request that no allowed list defines. -/
theorem Scope.expand_closure {lists : List TargetList} {scope : Scope}
    (built : Catalogue.build lists = .ok scope.catalogue) (select : Option String) (distinct : Bool) :
    ((∃ error, scope.expand select none distinct = .error error) ↔
        ∃ selector, scope.AsksFor (select.getD "") selector ∧ ¬scope.Defines selector.name) ∧
      (∀ error, scope.expand select none distinct = .error error →
        ∃ selector, scope.AsksFor (select.getD "") selector ∧ ¬scope.Defines selector.name ∧
          (∀ other, scope.AsksFor (select.getD "") other → ¬scope.Defines other.name →
            other = selector ∨ selector < other) ∧
          scope.Refuses selector error) ∧
      ∀ expansion, scope.expand select none distinct = .ok expansion →
        ∃ all : List Selector, all.Nodup ∧
          (∀ selector, selector ∈ all ↔ scope.Reached (select.getD "") selector) ∧
          expansion.Projects scope all := by
  have names : (scope.catalogue.lists.map (·.name)).Nodup :=
    (Catalogue.pairwise_of_build built).imp fun lt => lt.ne
  have expand_eq : scope.expand select none distinct =
      (scope.projections (select.getD "")).map fun found =>
        ⟨scope, found.fragments, found.usedAttributes, found.usedLists, none, none, distinct⟩ := by
    rw [expand]
    cases scope.projections (select.getD "") <;> rfl
  rw [expand_eq]
  by_cases asked : ∃ selector, scope.AsksFor (select.getD "") selector ∧ ¬scope.Defines selector.name
  · obtain ⟨selector, error, projected, first⟩ := exists_projections_error names asked
    rw [projected]
    refine ⟨iff_of_true ⟨error, rfl⟩ asked, fun other same => ?_, fun expansion same => ?_⟩
    · obtain rfl := Except.error.inj same
      exact ⟨selector, first⟩
    · cases same
  · have defined : ∀ selector, scope.AsksFor (select.getD "") selector →
        scope.Defines selector.name := by
      simpa using asked
    obtain ⟨all, result, projected, working, gathers, accounts⟩ := exists_projections names defined
    rw [projected]
    refine ⟨iff_of_false ?_ asked, fun error same => ?_, fun expansion same => ?_⟩
    · rintro ⟨error, same⟩
      cases same
    · cases same
    · obtain rfl := Except.ok.inj same
      exact ⟨all, (List.append_nil all) ▸ working.nodup, fun selector => working.mem_iff,
        projects_of_gathers gathers accounts⟩

/-- Two lists point to each other, and an attribute is a column in one and a pointer in the other. -/
theorem Scope.expand_closure_cyclic :
    let lists : List TargetList :=
      [⟨"town", ⟨.list, some "land", some "towns", none⟩,
          [.plain "mayor" (.column "t.mayor"), .plain "land" (.pointer ["land"])]⟩,
        ⟨"land", ⟨.list, some "town", some "land", none⟩,
          [.plain "area" (.column "l.area"), .plain "mayor" (.pointer ["town", "land"]),
            .plain "towns" (.pointer ["town"])]⟩]
    let scope : Scope := ⟨⟨Catalogue.sortLists lists⟩, .standard, ["land", "town"]⟩
    Catalogue.build lists = .ok scope.catalogue ∧
      ∃ expansion, scope.expand (some "mayor.name") none false = .ok expansion ∧
        expansion.usedAttributes = ["area", "mayor"] ∧
        ∃ all : List Selector, all.Nodup ∧
          (∀ selector, selector ∈ all ↔ scope.Reached "mayor.name" selector) ∧
          expansion.Projects scope all := by
  intro lists scope
  have built : Catalogue.build lists = .ok scope.catalogue := rfl
  have succeeds : (scope.expand (some "mayor.name") none false).isOk = true := by decide +kernel
  obtain ⟨expansion, expanded⟩ := exists_of_isOk succeeds
  have keys : (scope.expand (some "mayor.name") none false).toOption.map Expansion.usedAttributes =
      some ["area", "mayor"] := by decide +kernel
  rw [expanded] at keys
  obtain ⟨-, -, closed⟩ := Scope.expand_closure built (some "mayor.name") false
  exact ⟨built, expansion, expanded, Option.some.inj keys, closed expansion expanded⟩

end StationGateway
