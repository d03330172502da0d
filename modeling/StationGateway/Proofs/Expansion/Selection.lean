import StationGateway.Catalogue.Mobility
import StationGateway.Proofs.Catalogue.Selector
import StationGateway.Proofs.Expansion.Places
import StationGateway.Proofs.Order.Entries

/-!
# Selections of places

A selection that is the place of some path inside a column projects that place from every allowed
list that defines the column. So the skeleton of the projection does not depend on the path, as long
as the path doubles the marks of the spans it stands in; with any other path the skeleton is another
one. -/

namespace StationGateway

open Text Sql

namespace Scope

/-- The attributes of a name in some lists. -/
def attributesIn (name : String) (lists : List TargetList) : List Attribute :=
  lists.filterMap (TargetList.find? name)

/-- The attributes of a name in the allowed lists, in the given ones only if any is given. -/
def attributesOf (scope : Scope) (shown : List String) (name : String) : List Attribute :=
  attributesIn name ((scope.catalogue.definersAmong scope.allowed name).filter fun list =>
    shown.isEmpty || shown.contains list.name)

/-- The entry of a list in the projections of one selector. -/
def projectionIn (selector : Selector) (list : TargetList) : Option (String × List Fragment) :=
  (list.find? selector.name).map fun field => (list.name, [⟨field, selector.path⟩])

section

variable {scope : Scope}

/-- A selector of columns leads on to no other selectors, and in lists of ascending names its
projections come in the order of the lists. -/
theorem visitAll_eq (selector : Selector) {lists : List TargetList}
    (columns : ∀ list ∈ lists, ∃ field, list.find? selector.name = some field ∧
      field.isPointer = false)
    (projections : Projections)
    (ascending : (projections.fragments.map (·.1) ++ lists.map (·.name)).Pairwise (· < ·))
    (scope : Scope) :
    ∃ result, scope.visitAll selector projections lists = (result, []) ∧
      result.fragments = projections.fragments ++ lists.filterMap (projectionIn selector) := by
  induction lists generalizing projections with
  | nil => exact ⟨projections, rfl, (List.append_nil _).symm⟩
  | cons list rest induction =>
      obtain ⟨field, found, is_column⟩ := columns list List.mem_cons_self
      have above : ∀ entry ∈ projections.fragments, entry.1 < list.name := fun entry member =>
        (List.pairwise_append.mp ascending).2.2 entry.1 (List.mem_map_of_mem member) list.name
          List.mem_cons_self
      have added : (projections.add list ⟨field, selector.path⟩).fragments =
          projections.fragments ++ [(list.name, [⟨field, selector.path⟩])] := by
        rw [Projections.add, Order.find?_eq_none_of_lt above]
        exact Order.put_eq_append above
      have rest_ascending : ((projections.add list ⟨field, selector.path⟩).fragments.map (·.1) ++
          rest.map (·.name)).Pairwise (· < ·) := by
        simpa [added] using ascending
      obtain ⟨result, visited, fragments_eq⟩ := induction
        (fun other member => columns other (List.mem_cons_of_mem list member))
        (projections.add list ⟨field, selector.path⟩) rest_ascending
      refine ⟨result, ?_, ?_⟩
      · simp [visitAll, visit, found, is_column, visited]
      · rw [fragments_eq, added, List.append_assoc, List.filterMap_cons_some (by
          rw [projectionIn, found]; rfl), List.singleton_append]

theorem requested_place {name path : String} (named : name.toList ≠ [])
    (letters : ∀ char ∈ name.toList, char.isLower = true) {char : Char}
    (member : char ∈ path.toList) (visible : isBlank char = false) (no_comma : ',' ∉ path.toList) :
    scope.requested (name ++ "." ++ path) = [⟨name, some (Selector.keptPath path)⟩] := by
  have name_comma : ',' ∉ name.toList := fun comma => absurd (letters ',' comma) (by decide)
  have whole : pieces ',' (name ++ "." ++ path) = [name ++ "." ++ path] := by
    rw [pieces, splitOn_eq_singleton (by simp [name_comma, no_comma]), List.map_singleton,
      String.ofList_toList]
  have no_star : name ≠ "*" := by
    rintro rfl
    exact absurd (letters '*' (by simp)) (by decide)
  simp [requested, whole, Selector.ofText?_place named letters member visible, Order.ofList,
    Order.insert, no_star]

theorem resolve_eq {name : String}
    (defined : scope.catalogue.definersAmong scope.allowed name ≠ []) :
    scope.resolve name = .ok (scope.catalogue.definersAmong scope.allowed name) := by
  rw [resolve]
  split
  next none_defined => exact absurd none_defined defined
  · rfl

theorem project_nil (budget : Nat) (seen : List Selector) (projections : Projections) :
    scope.project budget seen [] projections = .ok projections := by
  cases budget <;> rfl

/-- Selecting a place inside a column succeeds, and gives its projections in the order of the lists
that define the column. -/
theorem exists_expand_place {name path : String} (named : name.toList ≠ [])
    (letters : ∀ char ∈ name.toList, char.isLower = true) {char : Char}
    (member : char ∈ path.toList) (visible : isBlank char = false) (no_comma : ',' ∉ path.toList)
    (defined : scope.catalogue.definersAmong scope.allowed name ≠ [])
    (columns : ∀ list ∈ scope.catalogue.definersAmong scope.allowed name,
      ∃ field, list.find? name = some field ∧ field.isPointer = false)
    (ascending : ((scope.catalogue.definersAmong scope.allowed name).map (·.name)).Pairwise (· < ·))
    (distinct : Bool) :
    ∃ expansion, scope.expand (some (name ++ "." ++ path)) none distinct = .ok expansion ∧
      expansion.fragments = (scope.catalogue.definersAmong scope.allowed name).filterMap
        (projectionIn ⟨name, some (Selector.keptPath path)⟩) := by
  obtain ⟨chosen, visited, fragments_eq⟩ :=
    visitAll_eq ⟨name, some (Selector.keptPath path)⟩ columns .empty ascending scope
  have resolved := resolve_eq defined
  have projected : scope.projections (name ++ "." ++ path) = .ok chosen := by
    rw [projections, requested_place named letters member visible no_comma]
    simp only [project, resolved, bind, Except.bind, visited, unseen, List.append_nil]
    exact project_nil _ _ chosen
  refine ⟨{ scope, fragments := chosen.fragments, usedAttributes := chosen.usedAttributes,
            usedLists := chosen.usedLists, filter := none, predicate := none, distinct },
    ?_, fragments_eq⟩
  simp only [expand, Option.getD_some, projected]
  rfl

/-- The projections of a place in some lists are those of the attributes in these lists. -/
theorem flatMap_filter_projectionIn (is_shown : String → Bool) (name path : String)
    (lists : List TargetList) :
    ((lists.filterMap (projectionIn ⟨name, some path⟩)).filter
        fun entry => is_shown entry.1).flatMap (·.2) =
      (attributesIn name (lists.filter fun list => is_shown list.name)).map
        fun field => ⟨field, some path⟩ := by
  induction lists with
  | nil => rfl
  | cons list rest induction =>
      cases found : list.find? name with
      | none =>
          cases shown_eq : is_shown list.name with
          | true => simpa [attributesIn, projectionIn, found, shown_eq] using induction
          | false => simpa [attributesIn, projectionIn, found, shown_eq] using induction
      | some field =>
          cases shown_eq : is_shown list.name with
          | true => simpa [attributesIn, projectionIn, found, shown_eq] using induction
          | false => simpa [attributesIn, projectionIn, found, shown_eq] using induction

theorem selectSql_eq {expansion : Expansion} {name path : String}
    (fragments_eq : expansion.fragments =
      (scope.catalogue.definersAmong scope.allowed name).filterMap (projectionIn ⟨name, some path⟩))
    (shown : List String) :
    expansion.selectSql shown =
      join ", " ((scope.attributesOf shown name).map (Attribute.placeText path)) := by
  have fragments_shown := flatMap_filter_projectionIn
    (fun list => shown.isEmpty || shown.contains list) name path
    (scope.catalogue.definersAmong scope.allowed name)
  rw [Expansion.selectSql, Expansion.fragmentsOf, fragments_eq, fragments_shown, List.map_map]
  rfl

end

end Scope

/-! ## The mobility catalogue -/

namespace Mobility

private theorem ordinary_checked :
    ∀ list ∈ lists, ∀ field ∈ list.attributes, field.column?.isSome = true →
      field.finalName.toList ≠ [] ∧ field.finalName.toList.all Char.isLower = true ∧
        field.placeColumn.toList.all (fun char => !(isMark char)) = true ∧
          '\x7d' ∉ field.placeColumn.toList ∧ '.' ∈ field.placeColumn.toList := by
  decide +kernel

theorem ordinary_of_column {list : TargetList} (list_mem : list ∈ lists) {field : Attribute}
    (field_mem : field ∈ list.attributes) (is_column : field.column?.isSome = true) :
    field.Ordinary := by
  obtain ⟨named, letters, unmarked, unbraced, qualified⟩ :=
    ordinary_checked list list_mem field field_mem is_column
  refine ⟨named, List.all_eq_true.mp letters, fun char member => ?_, unbraced, qualified⟩
  simpa using List.all_eq_true.mp unmarked char member

/-- The names of pointers. -/
private def pointerNames : List String :=
  (lists.flatMap TargetList.attributes).filterMap fun field =>
    if field.column?.isSome then none else some field.finalName

/-- No column has the name of a pointer. -/
private theorem pointerNames_checked :
    ∀ list ∈ lists, ∀ field ∈ list.attributes, field.column?.isSome = true →
      field.finalName ∉ pointerNames := by
  decide

theorem names_ascending : (lists.map (·.name)).Pairwise (· < ·) := by
  have neighbours : (lists.map (·.name)).IsChain (· < ·) := by decide
  exact neighbours.pairwise

/-- An attribute with the name of a column is a column. -/
theorem isSome_column?_of_finalName_eq {list other_list : TargetList} {field other : Attribute}
    (list_mem : list ∈ lists) (field_mem : field ∈ list.attributes)
    (is_column : field.column?.isSome = true) (other_list_mem : other_list ∈ lists)
    (other_mem : other ∈ other_list.attributes) (same_name : other.finalName = field.finalName) :
    other.column?.isSome = true := by
  by_contra not_column
  refine pointerNames_checked list list_mem field field_mem is_column ?_
  rw [← same_name, pointerNames, List.mem_filterMap]
  exact ⟨other, List.mem_flatMap.mpr ⟨other_list, other_list_mem, other_mem⟩, by simp [not_column]⟩

end Mobility

theorem Attribute.isPointer_of_column {field : Attribute}
    (is_column : field.column?.isSome = true) : field.isPointer = false := by
  cases source_eq : field.source with
  | column expression => simp [isPointer, children, source_eq]
  | pointer children => simp [column?, source_eq] at is_column

theorem Attribute.encloses_keptPath_iff {field : Attribute} {path : String} :
    field.Encloses (Selector.keptPath path) ↔ field.Encloses path := by
  obtain ⟨blanks, path_eq, blank⟩ := Selector.toList_keptPath path
  have absent : ∀ {mark : Char}, isBlank mark = false → mark ∉ blanks := by
    intro mark visible member
    have is_blank := blank mark member
    simp [visible] at is_blank
  rw [Encloses, Encloses, path_eq, Doubled.append_iff (absent (by decide)),
    Doubled.append_iff (absent (by decide))]

namespace Scope

section

variable {scope : Scope} {list : TargetList} {field : Attribute}

theorem mem_lists_of_mem_definersAmong (bundled : scope.catalogue = Mobility.catalogue)
    {name : String} {definer : TargetList}
    (definer_mem : definer ∈ scope.catalogue.definersAmong scope.allowed name) :
    definer ∈ Mobility.lists ∧ ∃ other ∈ definer.attributes, definer.find? name = some other ∧
      other.finalName = name := by
  have among := (List.mem_filter.mp definer_mem).1
  obtain ⟨in_lists, defines⟩ := List.mem_filter.mp among
  obtain ⟨other, found⟩ := Option.isSome_iff_exists.mp defines
  rw [bundled] at in_lists
  refine ⟨in_lists, other, List.mem_of_find?_eq_some found, found, ?_⟩
  simpa using List.find?_some found

theorem definersAmong_ascending (bundled : scope.catalogue = Mobility.catalogue) (name : String) :
    ((scope.catalogue.definersAmong scope.allowed name).map (·.name)).Pairwise (· < ·) := by
  have sublist : ((scope.catalogue.definersAmong scope.allowed name).map (·.name)).Sublist
      (scope.catalogue.lists.map (·.name)) :=
    (List.filter_sublist.trans List.filter_sublist).map _
  rw [bundled] at sublist ⊢
  exact Mobility.names_ascending.sublist sublist

theorem mem_definersAmong (bundled : scope.catalogue = Mobility.catalogue)
    (list_mem : list ∈ Mobility.lists) (allowed : list.name ∈ scope.allowed)
    (field_mem : field ∈ list.attributes) :
    list ∈ scope.catalogue.definersAmong scope.allowed field.finalName := by
  have defines : (list.find? field.finalName).isSome = true := by
    rw [TargetList.find?, List.find?_isSome]
    exact ⟨field, field_mem, by simp⟩
  rw [Catalogue.definersAmong, Catalogue.definers, bundled]
  exact List.mem_filter.mpr ⟨List.mem_filter.mpr ⟨list_mem, defines⟩, by simpa using allowed⟩

theorem ordinary_of_mem_attributesOf (bundled : scope.catalogue = Mobility.catalogue)
    (list_mem : list ∈ Mobility.lists) (field_mem : field ∈ list.attributes)
    (is_column : field.column?.isSome = true) {shown : List String} :
    ∀ column ∈ scope.attributesOf shown field.finalName, column.Ordinary := by
  intro column member
  obtain ⟨definer, definer_shown, found⟩ := List.mem_filterMap.mp member
  obtain ⟨in_lists, other, other_mem, other_found, same_name⟩ :=
    mem_lists_of_mem_definersAmong bundled (List.mem_filter.mp definer_shown).1
  obtain rfl : other = column := Option.some.inj (other_found.symm.trans found)
  exact Mobility.ordinary_of_column in_lists other_mem
    (Mobility.isSome_column?_of_finalName_eq list_mem field_mem is_column in_lists other_mem
      same_name)

/-- Selecting a place inside a column of the catalogue succeeds, and projects that place from all
columns of the name. -/
theorem exists_selectSql_place (bundled : scope.catalogue = Mobility.catalogue)
    (list_mem : list ∈ Mobility.lists) (allowed : list.name ∈ scope.allowed)
    (field_mem : field ∈ list.attributes) (is_column : field.column?.isSome = true)
    {path : String} (filled : ∃ char ∈ path.toList, isBlank char = false)
    (no_comma : ',' ∉ path.toList) (distinct : Bool) :
    ∃ expansion,
      scope.expand (some (field.finalName ++ "." ++ path)) none distinct = .ok expansion ∧
      ∀ shown, expansion.selectSql shown = join ", "
        ((scope.attributesOf shown field.finalName).map
          (Attribute.placeText (Selector.keptPath path))) := by
  have ordinary := Mobility.ordinary_of_column list_mem field_mem is_column
  obtain ⟨char, member, visible⟩ := filled
  have columns : ∀ definer ∈ scope.catalogue.definersAmong scope.allowed field.finalName,
      ∃ other, definer.find? field.finalName = some other ∧ other.isPointer = false := by
    intro definer definer_mem
    obtain ⟨in_lists, other, other_mem, found, same_name⟩ :=
      mem_lists_of_mem_definersAmong bundled definer_mem
    have other_column := Mobility.isSome_column?_of_finalName_eq list_mem field_mem is_column
      in_lists other_mem same_name
    exact ⟨other, found, Attribute.isPointer_of_column other_column⟩
  obtain ⟨expansion, expanded, fragments_eq⟩ := exists_expand_place ordinary.named
    ordinary.letters member visible no_comma
    (List.ne_nil_of_mem (mem_definersAmong bundled list_mem allowed field_mem)) columns
    (definersAmong_ascending bundled field.finalName) distinct
  exact ⟨expansion, expanded, selectSql_eq fragments_eq⟩

/-- The skeleton of what is projected from a place inside a column does not depend on the path
exactly as long as the path doubles the marks of the spans it stands in: the label's in every
projection, and the path literal's wherever values have an inside. Selecting succeeds either way. -/
theorem skeleton_selectSql_eq_iff (bundled : scope.catalogue = Mobility.catalogue)
    (list_mem : list ∈ Mobility.lists) (allowed : list.name ∈ scope.allowed)
    (field_mem : field ∈ list.attributes) (is_column : field.column?.isSome = true)
    {path other : String} (path_filled : ∃ char ∈ path.toList, isBlank char = false)
    (path_comma : ',' ∉ path.toList) (other_filled : ∃ char ∈ other.toList, isBlank char = false)
    (other_comma : ',' ∉ other.toList) (distinct : Bool) :
    ∃ first second,
      scope.expand (some (field.finalName ++ "." ++ path)) none distinct = .ok first ∧
      scope.expand (some (field.finalName ++ "." ++ other)) none distinct = .ok second ∧
      ∀ shown,
        (∀ column ∈ scope.attributesOf shown field.finalName, column.Encloses other) →
          (skeleton (first.selectSql shown) = skeleton (second.selectSql shown) ↔
            ∀ column ∈ scope.attributesOf shown field.finalName, column.Encloses path) := by
  obtain ⟨first, first_expanded, first_sql⟩ := exists_selectSql_place bundled list_mem allowed
    field_mem is_column path_filled path_comma distinct
  obtain ⟨second, second_expanded, second_sql⟩ := exists_selectSql_place bundled list_mem allowed
    field_mem is_column other_filled other_comma distinct
  refine ⟨first, second, first_expanded, second_expanded, fun shown other_encloses => ?_⟩
  have ordinary : ∀ column ∈ scope.attributesOf shown field.finalName, column.Ordinary :=
    ordinary_of_mem_attributesOf bundled list_mem field_mem is_column
  have outline_eq := (Attribute.skeleton_join_eq_iff ordinary
    (Selector.comma_notMem_keptPath other_comma)).mpr fun column member =>
      Attribute.encloses_keptPath_iff.mpr (other_encloses column member)
  rw [first_sql, second_sql, outline_eq, Attribute.skeleton_join_eq_iff ordinary
    (Selector.comma_notMem_keptPath path_comma)]
  exact forall₂_congr fun column member => Attribute.encloses_keptPath_iff

/-- A quote in a path ends the path literal, and what is behind it becomes part of the statement. -/
theorem skeleton_selectSql_ne_quote :
    ∃ first second,
      Scope.expand ⟨Mobility.catalogue, .standard, ["parent", "station"]⟩
        (some "smetadata.x'y") none true = .ok first ∧
      Scope.expand ⟨Mobility.catalogue, .standard, ["parent", "station"]⟩
        (some "smetadata.x") none true = .ok second ∧
      skeleton (first.selectSql []) ≠ skeleton (second.selectSql []) := by
  have station_mem : Mobility.station ∈ Mobility.lists := by simp [Mobility.lists]
  have metadata_mem : Mobility.column "smetadata" "m.json" ∈ Mobility.station.attributes := by
    simp [Mobility.station]
  obtain ⟨first, second, first_expanded, second_expanded, same_iff⟩ :=
    @skeleton_selectSql_eq_iff ⟨Mobility.catalogue, .standard, ["parent", "station"]⟩
      Mobility.station (Mobility.column "smetadata" "m.json") rfl station_mem (by decide)
      metadata_mem rfl "x'y" "x" ⟨'x', by decide, by decide⟩ (by decide)
      ⟨'x', by decide, by decide⟩ (by decide) true
  refine ⟨first, second, first_expanded, second_expanded, ?_⟩
  have columns_eq : attributesOf ⟨Mobility.catalogue, .standard, ["parent", "station"]⟩ []
      (Mobility.column "smetadata" "m.json").finalName =
        [Mobility.column "smetadata" "m.json"] := by
    decide
  have encloses_tame : (Mobility.column "smetadata" "m.json").Encloses "x" := by decide
  have breaks_out : ¬(Mobility.column "smetadata" "m.json").Encloses "x'y" := by decide
  have separates := same_iff []
  simp only [columns_eq, List.forall_mem_singleton] at separates
  exact fun same => breaks_out ((separates encloses_tame).mp same)

end

end Scope

end StationGateway
