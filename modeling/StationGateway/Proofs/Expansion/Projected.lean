import Mathlib
import StationGateway.Proofs.Expansion.Comparison
import StationGateway.Proofs.Expansion.Selection
import StationGateway.Proofs.Expansion.Stages
import StationGateway.Proofs.Order.Gather

/-!
# What selectors project

A selector adds a projection to every list of which it names a column. What is projected or compared is
known to be in use, together with the list that defines it. -/

namespace StationGateway

open StationGateway.Filter StationGateway.Order Outcome

namespace Scope

/-- The lists that may be used. -/
def lists (scope : Scope) : List TargetList :=
  scope.catalogue.lists.filter fun list => scope.allowed.contains list.name

/-- What a selector projects from a list, nothing if it names no column there. -/
def projection? (list : TargetList) (selector : Selector) : Option Fragment :=
  match list.find? selector.name with
  | some field => if field.isPointer then none else some ⟨field, selector.path⟩
  | none => none

/-- Projections whose lists and attributes are marked as in use. -/
structure Marks (scope : Scope) (projections : Projections) : Prop where
  /-- The lists come in the order of their names. -/
  ascending : Ascending projections.fragments
  /-- Only lists that may be used have anything. -/
  known : ∀ entry ∈ projections.fragments, ∃ list ∈ scope.lists, list.name = entry.1
  /-- What is projected is in use, and so is its list. -/
  used : ∀ entry ∈ projections.fragments, entry.1 ∈ projections.usedLists ∧
    ∀ fragment ∈ entry.2, fragment.field.finalName ∈ projections.usedAttributes
  /-- What is in use is defined by a list in use. -/
  defined : ∀ key ∈ projections.usedAttributes, ∃ list ∈ scope.lists,
    (list.find? key).isSome ∧ list.name ∈ projections.usedLists

/-- What some selectors have gathered: every list has what they project from it. -/
structure Gathers (scope : Scope) (done : List Selector) (projections : Projections) : Prop
    extends scope.Marks projections where
  /-- The projections of a list come in the order of the selectors. -/
  fragments : ∀ list ∈ scope.lists, (find? list.name projections.fragments).getD [] =
    done.filterMap (projection? list)

theorem gathers_empty (scope : Scope) : scope.Gathers [] .empty where
  ascending := ascending_nil
  known _ member := absurd member List.not_mem_nil
  used _ member := absurd member List.not_mem_nil
  defined _ member := absurd member List.not_mem_nil
  fragments _ _ := rfl

section

variable {scope : Scope} {selector : Selector} {projections : Projections} {list : TargetList}
  {fragment : Fragment}

theorem definersAmong_eq (scope : Scope) (key : String) :
    scope.catalogue.definersAmong scope.allowed key =
      scope.lists.filter fun list => (list.find? key).isSome := by
  rw [Catalogue.definersAmong, Catalogue.definers, lists, List.filter_filter, List.filter_filter]
  exact List.filter_congr fun list _ => Bool.and_comm _ _

/-- A comparison reads the column of its attribute in one of the lists that may be used. -/
theorem exists_list_of_columnOf? {preferred : Option String} {key column : String}
    (found : scope.columnOf? preferred key = some column) :
    ∃ list ∈ scope.lists, ∃ field, list.find? key = some field ∧ field.column? = some column := by
  simp only [columnOf?, Option.bind_eq_bind, Option.bind_eq_some_iff] at found
  obtain ⟨lists, resolved, list, chosen, field, field_found, column_eq⟩ := found
  obtain rfl := eq_definersAmong_of_resolve (toOption_eq_some_iff.mp resolved)
  have list_in := mem_of_chooseList chosen
  rw [definersAmong_eq] at list_in
  exact ⟨list, List.mem_of_mem_filter list_in, field, field_found, column_eq⟩

theorem finalName_of_find? {key : String} {field : Attribute} (found : list.find? key = some field) :
    field.finalName = key := by
  simpa using List.find?_some found

theorem projection?_eq_some_iff :
    projection? list selector = some fragment ↔ list.find? selector.name = some fragment.field ∧
      fragment.field.isPointer = false ∧ fragment.path = selector.path := by
  obtain ⟨field, path⟩ := fragment
  rw [projection?]
  cases list.find? selector.name with
  | none => simp
  | some found =>
      by_cases is_pointer : found.isPointer = true
      · simp only [is_pointer, if_true, reduceCtorEq, Option.some.injEq, false_iff, not_and]
        rintro rfl column
        rw [is_pointer] at column
        cases column
      · simp only [is_pointer, Bool.false_eq_true, if_false, Option.some.injEq, Fragment.mk.injEq]
        constructor
        · rintro ⟨rfl, rfl⟩
          exact ⟨rfl, Bool.eq_false_iff.mpr is_pointer, rfl⟩
        · rintro ⟨rfl, -, rfl⟩
          exact ⟨rfl, rfl⟩

/-! ## One selector -/

theorem visit_eq (scope : Scope) (selector : Selector) (projections : Projections)
    (list : TargetList) :
    (scope.visit selector projections list).1 =
      (projection? list selector).elim projections (projections.add list) := by
  rw [visit, projection?]
  cases list.find? selector.name with
  | none => rfl
  | some field =>
      dsimp only
      split_ifs with is_pointer
      · rfl
      · rfl

/-- A projection is added at the end of those of its list. -/
theorem find?_add (projections : Projections) (list : TargetList) (fragment : Fragment)
    (name : String) : (find? name (projections.add list fragment).fragments).getD [] =
      (find? name projections.fragments).getD [] ++ if name = list.name then [fragment] else [] := by
  rw [Projections.add, find?_put]
  split_ifs with same
  · rw [same]
    rfl
  · rw [List.append_nil]

theorem Marks.add (marks : scope.Marks projections) (within : list ∈ scope.lists)
    (found : list.find? fragment.field.finalName = some fragment.field) :
    scope.Marks (projections.add list fragment) where
  ascending := marks.ascending.put _ _
  known entry member := by
    rcases mem_put member with rfl | is_old
    · exact ⟨list, within, rfl⟩
    · exact marks.known entry is_old
  used entry member := by
    have old_used := fun entry is_old => marks.used entry is_old
    rcases mem_put member with rfl | is_old
    · refine ⟨mem_insert.mpr (.inl rfl), fun other other_in => mem_insert.mpr ?_⟩
      rcases List.mem_append.mp other_in with before | is_new
      · cases entry_eq : find? list.name projections.fragments with
        | none =>
            rw [entry_eq] at before
            cases before
        | some fragments =>
            rw [entry_eq] at before
            exact .inr ((marks.used _ (mem_of_find? entry_eq)).2 other before)
      · exact .inl (List.mem_singleton.mp is_new ▸ rfl)
    · obtain ⟨list_used, fields_used⟩ := marks.used entry is_old
      exact ⟨mem_insert.mpr (.inr list_used), fun other other_in =>
        mem_insert.mpr (.inr (fields_used other other_in))⟩
  defined key member := by
    rcases mem_insert.mp member with rfl | is_old
    · exact ⟨list, within, by rw [found]; rfl, mem_insert.mpr (.inl rfl)⟩
    · obtain ⟨other, other_in, defines, is_used⟩ := marks.defined key is_old
      exact ⟨other, other_in, defines, mem_insert.mpr (.inr is_used)⟩

/-- A selector adds what it projects from each of the lists it is resolved to. -/
theorem marks_visitAll (marks : scope.Marks projections) {visited : List TargetList}
    (within : ∀ list ∈ visited, list ∈ scope.lists) :
    scope.Marks (scope.visitAll selector projections visited).1 := by
  induction visited generalizing projections with
  | nil => exact marks
  | cons list rest induction =>
      rw [visitAll]
      refine induction ?_ fun other member => within other (List.mem_cons_of_mem list member)
      rw [visit_eq]
      cases projected : projection? list selector with
      | none => exact marks
      | some fragment =>
          obtain ⟨found, -, -⟩ := projection?_eq_some_iff.mp projected
          refine marks.add (within list List.mem_cons_self) ?_
          rw [finalName_of_find? found]
          exact found

theorem find?_visitAll (visited : List TargetList) (names : (visited.map (·.name)).Nodup)
    (projections : Projections) (name : String) :
    (find? name (scope.visitAll selector projections visited).1.fragments).getD [] =
      (find? name projections.fragments).getD [] ++
        ((visited.find? fun list => list.name = name).bind fun list =>
          projection? list selector).toList := by
  induction visited generalizing projections with
  | nil => exact (List.append_nil _).symm
  | cons list rest induction =>
      obtain ⟨name_new, rest_names⟩ := List.nodup_cons.mp names
      rw [visitAll, induction rest_names, visit_eq, List.find?_cons]
      by_cases is_list : list.name = name
      · subst is_list
        have not_in_rest : rest.find? (fun other => other.name = list.name) = none := by
          refine List.find?_eq_none.mpr fun other member same => name_new ?_
          exact List.mem_map.mpr ⟨other, member, by simpa using same⟩
        rw [not_in_rest]
        cases projected : projection? list selector with
        | none => simp [projected]
        | some fragment => simp [projected, find?_add]
      · cases projected : projection? list selector with
        | none => simp [is_list]
        | some fragment => simp [is_list, Ne.symm is_list, find?_add]

theorem find?_name {lists : List TargetList} (names : (lists.map (·.name)).Nodup)
    (member : list ∈ lists) : lists.find? (fun other => other.name = list.name) = some list := by
  induction lists with
  | nil => cases member
  | cons first rest induction =>
      obtain ⟨name_new, rest_names⟩ := List.nodup_cons.mp names
      rcases List.mem_cons.mp member with rfl | in_rest
      · rw [List.find?_cons_of_pos (by simp)]
      · have ne : first.name ≠ list.name := fun same =>
          name_new (List.mem_map.mpr ⟨list, in_rest, same.symm⟩)
        rw [List.find?_cons_of_neg (by simpa using ne), induction rest_names in_rest]

/-- One selector adds its projections to those of all lists that define its attribute. -/
theorem Gathers.visitAll {done : List Selector} (gathers : scope.Gathers done projections)
    (names : (scope.lists.map (·.name)).Nodup) (selector : Selector) {visited : List TargetList}
    (resolved : scope.resolve selector.name = .ok visited) :
    scope.Gathers (done ++ [selector]) (scope.visitAll selector projections visited).1 := by
  obtain rfl := eq_definersAmong_of_resolve resolved
  have visited_eq := definersAmong_eq scope selector.name
  have visited_names : ((scope.catalogue.definersAmong scope.allowed selector.name).map
      (·.name)).Nodup := visited_eq ▸ names.sublist (List.filter_sublist.map _)
  refine ⟨marks_visitAll gathers.toMarks fun list member =>
    List.mem_of_mem_filter (visited_eq ▸ member), fun list list_in => ?_⟩
  rw [find?_visitAll _ visited_names, gathers.fragments list list_in, List.filterMap_append,
    List.filterMap_cons, List.filterMap_nil]
  congr 1
  cases projected : projection? list selector with
  | none =>
      cases found : (scope.catalogue.definersAmong scope.allowed selector.name).find? (fun other =>
          other.name = list.name) with
      | none => rfl
      | some other =>
          have other_in : other ∈ scope.lists :=
            List.mem_of_mem_filter (visited_eq ▸ List.mem_of_find?_eq_some found)
          have same_name : other.name = list.name := by simpa using List.find?_some found
          have same : other = list := by
            have other_found := find?_name names other_in
            rw [same_name, find?_name names list_in] at other_found
            exact (Option.some.inj other_found).symm
          rw [Option.bind_some, same, projected]
          rfl
  | some fragment =>
      have defines : list ∈ scope.catalogue.definersAmong scope.allowed selector.name := by
        rw [visited_eq]
        refine List.mem_filter.mpr ⟨list_in, ?_⟩
        rw [(projection?_eq_some_iff.mp projected).1]
        rfl
      rw [find?_name visited_names defines, Option.bind_some, projected]
      rfl

/-! ## The comparisons of a filter -/

theorem mem_foldl_insert {name : String} {visited : List TargetList} {used : List String} :
    name ∈ visited.foldl (fun used list => Order.insert list.name used) used ↔
      name ∈ used ∨ ∃ list ∈ visited, list.name = name := by
  induction visited generalizing used with
  | nil => simp
  | cons list rest induction =>
      rw [List.foldl_cons, induction, mem_insert, List.exists_mem_cons_iff, @eq_comm _ name]
      exact ⟨fun found => found.elim (fun early => early.elim (.inr ∘ .inl) .inl) (.inr ∘ .inr),
        fun found => found.elim (.inl ∘ .inr) fun late => late.elim (.inl ∘ .inl) .inr⟩

/-- What is compared is in use, in all lists that define it; what is projected stays the same. -/
theorem Marks.addUses (marks : scope.Marks projections) {clauses : List Clause}
    {result : Projections} (added : scope.addUses projections clauses = .ok result) :
    scope.Marks result ∧ result.fragments = projections.fragments ∧
      (∀ key ∈ projections.usedAttributes, key ∈ result.usedAttributes) ∧
      (∀ name ∈ projections.usedLists, name ∈ result.usedLists) ∧
      ∀ clause ∈ clauses, clause.key ∈ result.usedAttributes ∧
        ∀ list ∈ scope.lists, (list.find? clause.key).isSome → list.name ∈ result.usedLists := by
  induction clauses generalizing projections with
  | nil =>
      obtain rfl := Except.ok.inj added
      exact ⟨marks, rfl, fun _ member => member, fun _ member => member, fun _ member => by cases member⟩
  | cons clause rest induction =>
      obtain ⟨visited, resolved, added⟩ := bind_eq_ok_iff.mp added
      have visited_eq := (eq_definersAmong_of_resolve resolved).trans (definersAmong_eq scope clause.key)
      obtain ⟨first, others, visited_cons⟩ : ∃ first others, visited = first :: others := by
        refine List.exists_cons_of_ne_nil fun nothing => ?_
        rw [resolve] at resolved
        split at resolved
        · split at resolved <;> cases resolved
        next lists defined =>
          obtain rfl := Except.ok.inj resolved
          exact defined nothing
      have middle : scope.Marks { projections with
          usedLists := visited.foldl (fun used list => Order.insert list.name used)
            projections.usedLists
          usedAttributes := Order.insert clause.key projections.usedAttributes } := by
        refine ⟨marks.ascending, marks.known, fun entry member => ?_, fun key member => ?_⟩
        · obtain ⟨list_used, fields_used⟩ := marks.used entry member
          exact ⟨mem_foldl_insert.mpr (.inl list_used), fun fragment fragment_in =>
            mem_insert.mpr (.inr (fields_used fragment fragment_in))⟩
        · rcases mem_insert.mp member with rfl | is_old
          · have first_in : first ∈ visited := visited_cons ▸ List.mem_cons_self
            obtain ⟨within, defines⟩ := List.mem_filter.mp (visited_eq ▸ first_in)
            exact ⟨first, within, defines, mem_foldl_insert.mpr (.inr ⟨first, first_in, rfl⟩)⟩
          · obtain ⟨list, within, defines, is_used⟩ := marks.defined key is_old
            exact ⟨list, within, defines, mem_foldl_insert.mpr (.inl is_used)⟩
      obtain ⟨all_marks, fragments_eq, attributes, lists, uses⟩ := induction middle added
      refine ⟨all_marks, fragments_eq, fun key member => attributes key (mem_insert.mpr (.inr member)),
        fun name member => lists name (mem_foldl_insert.mpr (.inl member)), fun other member => ?_⟩
      rcases List.mem_cons.mp member with rfl | in_rest
      · refine ⟨attributes _ (mem_insert.mpr (.inl rfl)), fun list within defines => ?_⟩
        refine lists _ (mem_foldl_insert.mpr (.inr ⟨list, ?_, rfl⟩))
        rw [visited_eq]
        exact List.mem_filter.mpr ⟨within, defines⟩
      · exact uses other in_rest

end

end Scope

/-- The projections of an expansion and what it uses. -/
def Expansion.projected (expansion : Expansion) : Projections :=
  ⟨expansion.fragments, expansion.usedAttributes, expansion.usedLists⟩

end StationGateway
