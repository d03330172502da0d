import Mathlib
import StationGateway.Proofs.Expansion.Columns
import StationGateway.Proofs.Expansion.Labels
import StationGateway.Proofs.Expansion.References
import StationGateway.Proofs.Recipe.Needs

/-!
# United selections

The selections of a query for measurements are united row by row, so their columns must agree. Each
of them has the columns of the same selectors under the same labels, in the same order and no label
twice. Of the columns of measured values, each selection reads that of its own table. -/

namespace StationGateway.Recipe

open Text StationGateway.Filter StationGateway.Sql Outcome

namespace ValueTable

/-- The column of a table. -/
def column : ValueTable → String
  | double => "me.double_value"
  | string => "me.string_value"
  | json => "me.json_value"

/-- The list that projects the values of a table, as the catalogue has it. -/
def target : ValueTable → TargetList
  | double => Mobility.measurementDouble
  | string => Mobility.measurementString
  | json => Mobility.measurementJson

/-- The lists that the selection from a table projects, in the order of their names. -/
def targets (values : ValueTable) : List TargetList :=
  [Mobility.datatype, Mobility.measurement, values.target, Mobility.parent, Mobility.provenance,
    Mobility.station]

end ValueTable

/-- Whether a selection reads no column of measured values but that of its own table. -/
structure Branch.ReadsOnly (branch : Branch) (values : ValueTable) : Prop where
  /-- It projects no other one. -/
  projects : ∀ output ∈ branch.outputs, ∀ column ∈ columnsIn output.expression,
    column ∈ ValueTable.all.map ValueTable.column → column = values.column
  /-- It requires nothing of another one. -/
  requires : ∀ condition ∈ branch.conditions, ∀ column ∈ condition.columns,
    column ∈ ValueTable.all.map ValueTable.column → column = values.column

/-! ## Labels -/

/-- The labels of what selectors project from a list. -/
def projectedLabels (selectors : List Selector) (list : TargetList) : List String :=
  selectors.flatMap fun selector => (Scope.projection? list selector).toList.flatMap fun fragment =>
    fragment.outputs.map fun output => output.label

section

variable {selectors : List Selector} {list other : TargetList} {label : String}

theorem mem_projectedLabels : label ∈ projectedLabels selectors list ↔
    ∃ selector ∈ selectors, ∃ fragment, Scope.projection? list selector = some fragment ∧
      ∃ output ∈ fragment.outputs, output.label = label := by
  simp [projectedLabels, List.mem_flatMap, Option.mem_toList]

theorem labels_fragments (selectors : List Selector) (lists : List TargetList) :
    (((lists.flatMap fun list => selectors.filterMap (Scope.projection? list)).flatMap
      Fragment.outputs).map fun output => output.label) =
        lists.flatMap (projectedLabels selectors) := by
  rw [List.flatMap_assoc, List.map_flatMap]
  refine List.flatMap_congr fun list _ => ?_
  rw [List.filterMap_eq_flatMap_toList, List.flatMap_assoc, List.map_flatMap, projectedLabels]
  refine List.flatMap_congr fun selector _ => ?_
  rw [List.map_flatMap]

/-- A label is that of one selector only. -/
theorem eq_of_label {scope : Scope} (list_mem : list ∈ Mobility.lists)
    (other_mem : other ∈ Mobility.lists) {first second : Selector} (first_spelled : scope.Spells first)
    (second_spelled : scope.Spells second) {fragment found : Fragment}
    (projected : Scope.projection? list first = some fragment)
    (found_projected : Scope.projection? other second = some found) {output column : Output}
    (output_in : output ∈ fragment.outputs) (column_in : column ∈ found.outputs)
    (same : output.label = column.label) : first = second := by
  have shown_eq : output.shown = column.shown := by
    obtain ⟨expression, label⟩ := output
    obtain ⟨other_expression, other_label⟩ := column
    obtain rfl : label = other_label := same
    rfl
  have first_eq := ofText?_shown list_mem first_spelled projected output_in
  rw [shown_eq, ofText?_shown other_mem second_spelled found_projected column_in] at first_eq
  exact (Option.some.inj first_eq).symm

/-- Selectors that differ project different labels from a list. -/
theorem nodup_projectedLabels {scope : Scope} (list_mem : list ∈ Mobility.lists)
    (nodup : selectors.Nodup) (spelled : ∀ selector ∈ selectors, scope.Spells selector) :
    (projectedLabels selectors list).Nodup := by
  refine List.nodup_flatMap.mpr ⟨fun selector _ => ?_, nodup.imp_of_mem ?_⟩
  · cases projected : Scope.projection? list selector with
    | none => exact List.nodup_nil
    | some fragment =>
        obtain ⟨found, -, -⟩ := Scope.projection?_eq_some_iff.mp projected
        rw [Option.toList_some, List.flatMap_singleton]
        exact nodup_labels list_mem (List.mem_of_find?_eq_some found) fragment.path
  · intro first second first_in second_in ne label in_first in_second
    obtain ⟨fragment, fragment_in, label_in⟩ := List.mem_flatMap.mp in_first
    obtain ⟨found, found_in, found_label⟩ := List.mem_flatMap.mp in_second
    obtain ⟨output, output_in, rfl⟩ := List.mem_map.mp label_in
    obtain ⟨column, column_in, same⟩ := List.mem_map.mp found_label
    exact ne (eq_of_label list_mem list_mem (spelled first first_in) (spelled second second_in)
      (Option.mem_toList.mp fragment_in) (Option.mem_toList.mp found_in) output_in column_in same.symm)

/-- Lists without common names are projected under different labels. -/
theorem nodup_flatMap_projectedLabels {scope : Scope} {lists : List TargetList}
    (known : ∀ list ∈ lists, list ∈ Mobility.lists)
    (apart : lists.Pairwise fun list other => List.Disjoint list.finalNames other.finalNames)
    (nodup : selectors.Nodup) (spelled : ∀ selector ∈ selectors, scope.Spells selector) :
    (lists.flatMap (projectedLabels selectors)).Nodup := by
  refine List.nodup_flatMap.mpr ⟨fun list list_in =>
    nodup_projectedLabels (known list list_in) nodup spelled, apart.imp_of_mem ?_⟩
  intro list other list_in other_in names label in_list in_other
  obtain ⟨first, first_in, fragment, projected, output, output_in, rfl⟩ :=
    mem_projectedLabels.mp in_list
  obtain ⟨second, second_in, found, found_projected, column, column_in, same⟩ :=
    mem_projectedLabels.mp in_other
  obtain rfl := eq_of_label (known list list_in) (known other other_in) (spelled first first_in)
    (spelled second second_in) projected found_projected output_in column_in same.symm
  have name_in : ∀ {defines : TargetList} {part : Fragment},
      Scope.projection? defines first = some part → first.name ∈ defines.finalNames := by
    intro defines part part_eq
    obtain ⟨field_found, -, -⟩ := Scope.projection?_eq_some_iff.mp part_eq
    exact List.mem_map.mpr ⟨part.field, List.mem_of_find?_eq_some field_found,
      Scope.finalName_of_find? field_found⟩
  exact names (name_in projected) (name_in found_projected)

end

/-- The list of a table projects measured values and nothing else. -/
theorem exists_projection?_target (values : ValueTable) :
    ∃ field ∈ Mobility.valueFields, field.column? = some values.column ∧
      ∀ selector, Scope.projection? values.target selector =
        if field.finalName = selector.name then some ⟨field, selector.path⟩ else none := by
  have alone : ∀ {list : TargetList} {field : Attribute}, list.attributes = [field] →
      field.isPointer = false → ∀ selector, Scope.projection? list selector =
        if field.finalName = selector.name then some ⟨field, selector.path⟩ else none := by
    intro list field attributes_eq not_pointer selector
    rw [Scope.projection?, TargetList.find?, attributes_eq, List.find?_singleton]
    by_cases same : field.finalName = selector.name
    · simp [same, not_pointer]
    · simp [same]
  cases values with
  | double => exact ⟨_, List.mem_cons_self, rfl, alone rfl rfl⟩
  | string => exact ⟨_, List.mem_cons_of_mem _ List.mem_cons_self, rfl, alone rfl rfl⟩
  | json =>
      exact ⟨_, List.mem_cons_of_mem _ (List.mem_cons_of_mem _ List.mem_cons_self), rfl,
        alone rfl rfl⟩

/-- The lists of all tables are projected under the same labels. -/
theorem projectedLabels_target (selectors : List Selector) (values other : ValueTable) :
    projectedLabels selectors values.target = projectedLabels selectors other.target := by
  obtain ⟨field, is_value, -, projected⟩ := exists_projection?_target values
  obtain ⟨found, other_value, -, other_projected⟩ := exists_projection?_target other
  have same_name : found.finalName = field.finalName :=
    (valueFields_named found other_value).trans (valueFields_named field is_value).symm
  refine List.flatMap_congr fun selector _ => ?_
  rw [projected, other_projected, same_name]
  split_ifs with named
  · rw [Option.toList_some, Option.toList_some, List.flatMap_singleton, List.flatMap_singleton,
      labels_of_value is_value other_value]
  · rfl

theorem targets_apart (values : ValueTable) :
    values.targets.Pairwise fun list other => List.Disjoint list.finalNames other.finalNames := by
  have apart : values.targets.Pairwise fun list other =>
      ∀ name ∈ list.finalNames, name ∉ other.finalNames := by
    cases values <;> decide
  exact apart.imp fun separate name in_list in_other => separate name in_list in_other

theorem mem_lists_of_mem_targets {values : ValueTable} {list : TargetList}
    (member : list ∈ values.targets) : list ∈ Mobility.lists := by
  have within : values.targets ⊆ Mobility.lists := by
    cases values <;> simp [ValueTable.targets, ValueTable.target, Mobility.lists]
  exact within member

/-! ## Selections of measurements -/

section

variable {options : Options} {expansion : Expansion} {values : ValueTable}

theorem lists_of_expand
    (expanded : Resources.bundled.expand options measurementLists = .ok expansion) :
    expansion.scope.lists = [Mobility.datatype, Mobility.measurement, Mobility.measurementDouble,
      Mobility.measurementJson, Mobility.measurementString, Mobility.parent, Mobility.provenance,
      Mobility.station] := by
  rw [(Scope.expands_of_expand expanded).within]
  rfl

/-- What the selection from a table projects, list by list. -/
theorem fragmentsOf_branchLists
    (expanded : Resources.bundled.expand options measurementLists = .ok expansion)
    {all : List Selector} (gathered : expansion.Gathered all) (values : ValueTable) :
    expansion.fragmentsOf (branchLists values) =
      values.targets.flatMap fun list => all.filterMap (Scope.projection? list) := by
  rw [gathered.fragmentsOf_eq, lists_of_expand expanded]
  cases values <;> rfl

/-! ## Columns of measured values -/

private theorem owners_checked : ∀ list ∈ Mobility.lists, ∀ field ∈ list.attributes,
    ∀ values ∈ ValueTable.all, field.column? = some values.column →
      list.name = values.list ∧ field.finalName = valueAttribute := by
  decide +kernel

private theorem computedColumns_checked : ∀ computed ∈ Mobility.computedColumns,
    ∀ values ∈ ValueTable.all, values.column ∉ columnsIn computed := by
  decide +kernel

theorem mem_all (values : ValueTable) : values ∈ ValueTable.all := by
  cases values <;> decide

/-- The column of a table is that of the measured values of its list. -/
theorem list_name_of_column {list : TargetList} (list_mem : list ∈ Mobility.lists) {field : Attribute}
    (field_mem : field ∈ list.attributes) {expression : String}
    (expression_eq : field.column? = some expression) (named : values.column ∈ columnsIn expression) :
    list.name = values.list ∧ field.finalName = valueAttribute := by
  rcases Mobility.columnsIn_column list_mem field_mem expression_eq with alone | computed
  · rw [alone, List.mem_singleton] at named
    exact owners_checked list list_mem field field_mem values (mem_all values) (named ▸ expression_eq)
  · exact absurd named (computedColumns_checked expression computed values (mem_all values))

/-- A column names what it does without a format. -/
theorem columnsIn_applyFormat {format column : String} (known : format ∈ Mobility.columnFormats)
    (closed : Statement.Closed column) : columnsIn (applyFormat format column) = columnsIn column := by
  have blank : String.singleton ' ' = " " := rfl
  have opening : String.singleton '(' = "(" := rfl
  have closing : String.singleton ')' = ")" := rfl
  have comma : String.singleton ',' = "," := rfl
  have nothing : columnsIn "" = [] := rfl
  simp only [Mobility.columnFormats, List.mem_cons, List.not_mem_nil, or_false] at known
  rcases known with rfl | rfl | rfl
  · rw [applyFormat_slot]
  · have word_closed : Statement.Closed "timezone('UTC'," := by decide
    have word_columns : columnsIn "timezone('UTC'," = [] := by decide
    have front := @columnsIn_gap "timezone('UTC'," (column ++ ")") ' ' word_closed (by decide)
    have back := @columnsIn_gap column "" ')' closed (by decide)
    rw [blank, word_columns, List.nil_append] at front
    rw [String.append_empty, closing, nothing, List.append_nil] at back
    rw [@applyFormat_eq _ ("timezone('UTC'," ++ " ") ")" (by decide +kernel) (by decide),
      String.append_assoc, front, back]
  · have word_closed : Statement.Closed "st_asgeojson" := by decide
    have word_columns : columnsIn "st_asgeojson" = [] := by decide
    have end_columns : columnsIn " 9, 3)::jsonb" = [] := by decide
    have front := @columnsIn_gap "st_asgeojson" (column ++ ("," ++ " 9, 3)::jsonb")) '(' word_closed
      (by decide)
    have back := @columnsIn_gap column " 9, 3)::jsonb" ',' closed (by decide)
    rw [opening, word_columns, List.nil_append] at front
    rw [comma, end_columns, List.append_nil, String.append_assoc] at back
    rw [@applyFormat_eq _ ("st_asgeojson" ++ "(") ("," ++ " 9, 3)::jsonb") (by decide +kernel)
      (by decide), String.append_assoc, front, back]

/-- A projected column names what the column of its attribute does. -/
theorem exists_column_of_mem_outputs {list : TargetList} (list_mem : list ∈ Mobility.lists)
    {fragment : Fragment} (field_mem : fragment.field ∈ list.attributes)
    (not_pointer : fragment.field.isPointer = false) {output : Output}
    (output_in : output ∈ fragment.outputs) {column : String}
    (column_in : column ∈ columnsIn output.expression) :
    ∃ expression, fragment.field.column? = some expression ∧ column ∈ columnsIn expression := by
  obtain ⟨field, path⟩ := fragment
  obtain ⟨expression, expression_eq⟩ :=
    Option.isSome_iff_exists.mp (Mobility.isSome_column? list_mem field_mem not_pointer)
  have closed := (silent_of_column list_mem field_mem expression_eq).1
  refine ⟨expression, expression_eq, ?_⟩
  cases path with
  | none =>
      by_cases is_value : field ∈ Mobility.valueFields
      · have others : ∀ slot ∈ Mobility.valueSlots, columnsIn slot.2.expression = [] := by decide
        obtain ⟨own, own_eq, -, outputs_eq, -⟩ := Mobility.outputs_of_value is_value
        obtain rfl : own = expression := Option.some.inj (own_eq.symm.trans expression_eq)
        rw [Fragment.outputs, outputs_eq] at output_in
        obtain ⟨slot, slot_in, rfl⟩ := List.mem_map.mp output_in
        dsimp only at column_in
        split_ifs at column_in with is_own
        · exact column_in
        · rw [others slot slot_in] at column_in
          cases column_in
      · obtain ⟨-, -, outputs_eq⟩ := Mobility.outputs_of_plain list_mem field_mem is_value
        rw [Fragment.outputs, outputs_eq] at output_in
        obtain rfl := List.mem_singleton.mp output_in
        rwa [Attribute.projectedColumn?, expression_eq, Option.map_some, Option.getD_some,
          columnsIn_applyFormat (Mobility.columnFormat_mem list_mem field_mem) closed] at column_in
  | some path =>
      rw [Fragment.outputs] at output_in
      obtain rfl := List.mem_singleton.mp output_in
      dsimp only at column_in
      split_ifs at column_in with is_scalar
      · have nothing : columnsIn "null::jsonb" = [] := by decide
        rw [nothing] at column_in
        cases column_in
      · -- The path has commas for its points, so that it names nothing even outside of its literal.
        have no_point : '.' ∉ (">'\x7b" ++ Selector.commaPath path ++ "\x7d'").toList := by
          have path_plain : '.' ∉ (Selector.commaPath path).toList := by
            rw [Attribute.toList_commaPath, List.mem_map]
            rintro ⟨char, -, char_eq⟩
            rw [Attribute.commaChar] at char_eq
            split_ifs at char_eq with is_point
            · cases char_eq
            · exact is_point char_eq
          simp [path_plain]
        have hash : String.singleton '#' = "#" := rfl
        have arrow : "#>'\x7b" = "#" ++ ">'\x7b" := rfl
        have split := @columnsIn_gap expression (">'\x7b" ++ Selector.commaPath path ++ "\x7d'") '#'
          closed (by decide)
        rw [hash, columnsIn_eq_nil no_point, List.append_nil] at split
        have regroup : expression ++ ("#" ++ ">'\x7b") ++ Selector.commaPath path ++ "\x7d'" =
            expression ++ "#" ++ (">'\x7b" ++ Selector.commaPath path ++ "\x7d'") := by
          simp only [String.append_assoc]
        rwa [Attribute.placeColumn, expression_eq, Option.getD_some, arrow, regroup, split] at column_in

/-- The selection from a table projects the column of no other table. -/
theorem column_eq_of_mem_fragments
    (expanded : Resources.bundled.expand options measurementLists = .ok expansion)
    {fragment : Fragment} (member : fragment ∈ expansion.fragmentsOf (branchLists values))
    {output : Output} (output_in : output ∈ fragment.outputs) {other : ValueTable}
    (column_in : other.column ∈ columnsIn output.expression) : other = values := by
  have own : ∀ values other : ValueTable, other.list ∈ branchLists values → other = values := by
    intro values other
    cases values <;> cases other <;> decide
  obtain ⟨all, gathered⟩ := exists_gathered_of_expand expanded
  rw [fragmentsOf_branchLists expanded gathered] at member
  obtain ⟨list, list_in, fragment_in⟩ := List.mem_flatMap.mp member
  obtain ⟨selector, -, projected⟩ := List.mem_filterMap.mp fragment_in
  obtain ⟨found, not_pointer, -⟩ := Scope.projection?_eq_some_iff.mp projected
  have field_in := List.mem_of_find?_eq_some found
  obtain ⟨expression, expression_eq, named⟩ := exists_column_of_mem_outputs
    (mem_lists_of_mem_targets list_in) field_in not_pointer output_in column_in
  obtain ⟨name_eq, -⟩ :=
    list_name_of_column (mem_lists_of_mem_targets list_in) field_in expression_eq named
  have shown : ∀ values : ValueTable, ∀ list ∈ values.targets, list.name ∈ branchLists values := by
    intro values
    cases values <;> decide
  exact own values other (name_eq ▸ shown values list list_in)

/-- A comparison in the selection from a table reads the column of no other table: the measured value
is that of the table. -/
theorem column_eq_of_columnOf?
    (expanded : Resources.bundled.expand options measurementLists = .ok expansion)
    {other : ValueTable} {key expression : String}
    (found : expansion.scope.columnOf? (some values.list) key = some expression)
    (column_in : other.column ∈ columnsIn expression) : other = values := by
  have named : ∀ values other : ValueTable, other.list = values.list → other = values := by
    intro values other
    cases values <;> cases other <;> decide
  simp only [Scope.columnOf?, Option.bind_eq_bind, Option.bind_eq_some_iff] at found
  obtain ⟨lists, resolved, list, chosen, field, field_found, column_eq⟩ := found
  have lists_eq : lists = expansion.scope.lists.filter fun list => (list.find? key).isSome := by
    rw [Scope.eq_definersAmong_of_resolve (toOption_eq_some_iff.mp resolved),
      Scope.definersAmong_eq]
  have list_in := Scope.mem_of_chooseList chosen
  have in_scope := List.mem_of_mem_filter (lists_eq ▸ list_in)
  have in_catalogue : list ∈ Mobility.lists := by
    have in_lists := List.mem_of_mem_filter in_scope
    rwa [(Scope.expands_of_expand expanded).within] at in_lists
  obtain ⟨name_eq, key_eq⟩ := list_name_of_column in_catalogue
    (List.mem_of_find?_eq_some field_found) column_eq column_in
  rw [Scope.finalName_of_find? field_found] at key_eq
  -- The list of the table defines the measured value, so it is the one that is preferred.
  have target_in : values.target ∈ lists := by
    rw [lists_eq, lists_of_expand expanded, key_eq]
    cases values <;> decide
  have target_name : values.target.name = values.list := by cases values <;> rfl
  rw [chooseList] at chosen
  split at chosen
  next preferred_found =>
    obtain rfl := Option.some.inj chosen
    have preferred := List.find?_some preferred_found
    exact named values other (name_eq.symm.trans (Option.some.inj (of_decide_eq_true preferred)).symm)
  next no_preferred =>
    have passed := List.find?_eq_none.mp no_preferred values.target target_in
    exact absurd (congrArg some target_name.symm) (by simpa using passed)

/-- Whether a text names no column of measured values. -/
def NamesNoValue (text : String) : Prop :=
  ∀ column ∈ columnsIn text, column ∉ ValueTable.all.map ValueTable.column

instance (text : String) : Decidable (NamesNoValue text) :=
  inferInstanceAs (Decidable (∀ column ∈ columnsIn text, _))

/-- The conditions of the selection from a table read the column of no other table. -/
theorem column_eq_of_mem_conditions
    (expanded : Resources.bundled.expand options measurementLists = .ok expansion)
    {types datatypes : Option (List String)} {window : Option Window} {access : List Condition}
    (applies : Resources.bundled.access options .stations = .ok access)
    {predicate : Option Predicate}
    (compiled : expansion.predicateFor values.list = .ok predicate) {condition : Condition}
    (member : condition ∈ (measurementBranch options types datatypes window expansion access values
      predicate).conditions) {other : ValueTable} (reads : other.column ∈ condition.columns) :
    other = values := by
  have none_read : ∀ {text : String}, NamesNoValue text → other.column ∈ columnsIn text →
      other = values := fun names named =>
    absurd (List.mem_map_of_mem (mem_all other)) (names _ named)
  have needed_checked : ∀ needed ∈ stationNeeds ++ measurementNeeds, NamesNoValue needed.text := by
    decide +kernel
  have guest_checked : NamesNoValue (guestRule .stations) := by decide +kernel
  rw [expansion.predicateFor_eq] at compiled
  rcases mem_conditions_measurementBranch member with
    ⟨needed, needed_in, -, gives⟩ | in_access | in_filter
  · rw [gives.eq.2.1] at reads
    exact none_read (needed_checked needed needed_in) reads
  · obtain ⟨rule, rfl, names⟩ := columnsIn_of_mem_access applies in_access
    exact none_read guest_checked (names _ reads)
  · obtain ⟨clause, -, expression, expression_eq, column_in⟩ :=
      exists_clause_of_predicateOf expanded compiled in_filter reads
    exact column_eq_of_columnOf? expanded expression_eq column_in

/-! ## Lines of a union -/

/-- The columns of a selection are spelled one after the other, hidden ones first. -/
theorem join_columns_eq {branch : Branch} (known : ∀ fragment ∈ branch.fragments,
      ∃ list ∈ Mobility.lists, fragment.field ∈ list.attributes ∧ fragment.field.isPointer = false) :
    join ", " branch.columns = join ", " (branch.outputs.map Output.text) := by
  have groups_eq : branch.columns = ((branch.hidden.map fun column => [column.text]) ++
      branch.fragments.map fun fragment => fragment.outputs.map Output.text).map (join ", ") := by
    rw [Branch.columns, List.map_append, List.map_map, List.map_map]
    congr 1
    refine List.map_congr_left fun fragment member => ?_
    obtain ⟨list, list_in, field_in, not_pointer⟩ := known fragment member
    exact Mobility.text_eq_outputs list_in field_in not_pointer fragment.path
  have flat_eq : ((branch.hidden.map fun column => [column.text]) ++
      branch.fragments.map fun fragment => fragment.outputs.map Output.text).flatten =
        branch.outputs.map Output.text := by
    rw [Branch.outputs, List.flatten_append, List.map_append, List.map_map, List.map_flatMap,
      List.flatMap_def]
    congr 1
    rw [← List.flatMap_def, ← List.map_eq_flatMap]
    rfl
  have filled : ∀ group ∈ (branch.hidden.map fun column => [column.text]) ++
      branch.fragments.map fun fragment => fragment.outputs.map Output.text, group ≠ [] := by
    intro group member
    rcases List.mem_append.mp member with is_hidden | is_shown
    · obtain ⟨column, -, rfl⟩ := List.mem_map.mp is_hidden
      exact List.cons_ne_nil _ _
    · obtain ⟨fragment, fragment_in, rfl⟩ := List.mem_map.mp is_shown
      obtain ⟨list, list_in, field_in, -⟩ := known fragment fragment_in
      exact mt List.map_eq_nil_iff.mp (Mobility.outputs_ne_nil list_in field_in fragment.path)
  rw [groups_eq, join_flatten ", " filled, flat_eq]

/-- The columns of measurements that clients do not see. -/
def measurementKeys (options : Options) : List HiddenColumn :=
  if options.isTree then datatypeKeys else [timeKey]

theorem namesNoValue_of_mem_keys {options : Options} {key : HiddenColumn}
    (member : key ∈ measurementKeys options) : NamesNoValue key.expression := by
  have keys : ∀ isTree : Bool, ∀ key ∈ if isTree then datatypeKeys else [timeKey],
      NamesNoValue key.expression := by
    decide
  exact keys options.isTree key member

/-- A selection of measurements in a union: its columns have given labels, and it reads the values of
one table. -/
structure Branch.LinesUp (branch : Branch) (labels : List String) (values : ValueTable)
    (history : Bool) : Prop where
  /-- It selects from the table. -/
  source : branch.source.table = values.table history
  /-- Its columns, hidden ones first, are spelled one after the other. -/
  text : join ", " branch.columns = join ", " (branch.outputs.map Output.text)
  /-- Their labels are the given ones. -/
  labels : branch.labels = labels
  /-- It reads the values of the table only. -/
  readsOnly : branch.ReadsOnly values

/-- The labels of a selection from a table are the same for all tables. -/
theorem labels_measurementBranch
    (expanded : Resources.bundled.expand options measurementLists = .ok expansion)
    {all : List Selector} (gathered : expansion.Gathered all) (types datatypes : Option (List String))
    (window : Option Window) (access : List Condition) (values : ValueTable)
    (predicate : Option Predicate) :
    (measurementBranch options types datatypes window expansion access values predicate).labels =
      (measurementKeys options).map HiddenColumn.label ++
        ValueTable.double.targets.flatMap (projectedLabels all) := by
  have same_targets : values.targets.flatMap (projectedLabels all) =
      ValueTable.double.targets.flatMap (projectedLabels all) := by
    simp only [ValueTable.targets, List.flatMap_cons,
      projectedLabels_target all values ValueTable.double]
  have fragments_eq : (measurementBranch options types datatypes window expansion access values
      predicate).fragments = expansion.fragmentsOf (branchLists values) := rfl
  rw [Branch.labels, Branch.outputs, List.map_append, List.map_map, fragments_eq,
    fragmentsOf_branchLists expanded gathered, labels_fragments, same_targets]
  rfl

/-- No label of a selection of measurements comes twice. -/
theorem nodup_labels_measurements {all : List Selector} (gathered : expansion.Gathered all)
    (options : Options) :
    ((measurementKeys options).map HiddenColumn.label ++
      ValueTable.double.targets.flatMap (projectedLabels all)).Nodup := by
  have keys : ∀ isTree : Bool, ((if isTree then datatypeKeys else [timeKey]).map
      HiddenColumn.label).Nodup ∧ ∀ key ∈ if isTree then datatypeKeys else [timeKey],
        key.label.toList.head? = some '_' := by
    decide
  obtain ⟨keys_nodup, hidden_marked⟩ := keys options.isTree
  refine List.nodup_append'.mpr ⟨keys_nodup, ?_, ?_⟩
  · exact nodup_flatMap_projectedLabels (fun list member => mem_lists_of_mem_targets member)
      (targets_apart .double) gathered.nodup gathered.spelled
  · intro label in_hidden in_shown
    obtain ⟨key, key_in, rfl⟩ := List.mem_map.mp in_hidden
    obtain ⟨list, list_in, label_in⟩ := List.mem_flatMap.mp in_shown
    obtain ⟨selector, -, fragment, projected, output, output_in, same⟩ :=
      mem_projectedLabels.mp label_in
    obtain ⟨found, not_pointer, -⟩ := Scope.projection?_eq_some_iff.mp projected
    refine head?_label (mem_lists_of_mem_targets list_in) (List.mem_of_find?_eq_some found)
      not_pointer output_in ?_
    rw [same]
    exact hidden_marked key key_in

end

/-- The selections of a query for measurements line up, whatever is selected and filtered: there is
one for each of the three tables, or one for a single table, all of them with the same labels in the
same order, none of these twice, and each reads the values of its own table only. -/
theorem linesUp_of_measurements {options : Options} {types datatypes : String}
    {window : Option Window} {prepared : Prepared}
    (compiled : measurements Resources.bundled options types datatypes window = .ok prepared) :
    ∃ tables labels, (tables = ValueTable.all ∨ ∃ values, tables = [values]) ∧
      List.Nodup labels ∧
      List.Forall₂ (fun values branch => Branch.LinesUp branch labels values window.isSome) tables
        prepared.query.branches := by
  obtain ⟨expansion, tables, access, branches, expanded, tables_eq, applies, made, query_eq⟩ :=
    exists_of_measurements compiled
  obtain ⟨all, gathered⟩ := exists_gathered_of_expand expanded
  have branches_eq : prepared.query.branches = branches := by rw [query_eq]; rfl
  refine ⟨tables, _, ?_, nodup_labels_measurements gathered options, ?_⟩
  · rw [valueTables] at tables_eq
    split at tables_eq
    · exact .inl (Except.ok.inj tables_eq).symm
    next comparison _ =>
      rw [tablesFor] at tables_eq
      split at tables_eq
      · cases tables_eq
      · cases tables_eq
      · exact .inr ⟨_, (Except.ok.inj tables_eq).symm⟩
      · exact .inr ⟨_, (Except.ok.inj tables_eq).symm⟩
      · exact .inr ⟨_, (Except.ok.inj tables_eq).symm⟩
      · exact .inl (Except.ok.inj tables_eq).symm
    · cases tables_eq
  · rw [branches_eq]
    refine made.imp ?_
    rintro values branch ⟨predicate, predicate_eq, rfl⟩
    refine ⟨rfl, ?_, labels_measurementBranch expanded gathered _ _ _ _ _ _, ?_, ?_⟩
    · exact join_columns_eq fun fragment member => exists_field_of_mem_fragmentsOf expanded member
    · intro output member column column_in is_value
      obtain ⟨other, -, rfl⟩ := List.mem_map.mp is_value
      rcases List.mem_append.mp member with is_hidden | is_shown
      · obtain ⟨key, key_in, rfl⟩ := List.mem_map.mp is_hidden
        exact absurd is_value (namesNoValue_of_mem_keys key_in _ column_in)
      · obtain ⟨fragment, fragment_in, output_in⟩ := List.mem_flatMap.mp is_shown
        exact congrArg ValueTable.column
          (column_eq_of_mem_fragments expanded fragment_in output_in column_in)
    · intro condition member column column_in is_value
      obtain ⟨other, -, rfl⟩ := List.mem_map.mp is_value
      exact congrArg ValueTable.column
        (column_eq_of_mem_conditions expanded applies predicate_eq member column_in)

/-- Measured values and places inside them, next to the name of the station, in a tree. -/
theorem linesUp_of_measurements_places :
    let options : Options :=
      { representation := ⟨.node, .tree⟩, limit := 200, offset := 0,
        select := some "mvalue,mvalue.a,sname", filter := some "mvalue.eq.null", showNull := false,
        distinct := true, roles := ["GUEST"] }
    ∃ prepared, measurements Resources.bundled options "*" "*" none = .ok prepared ∧
      ∃ tables labels, (tables = ValueTable.all ∨ ∃ values, tables = [values]) ∧
        List.Nodup labels ∧
        List.Forall₂ (fun values branch => Branch.LinesUp branch labels values false) tables
          prepared.query.branches := by
  intro options
  have succeeds : (measurements Resources.bundled options "*" "*" none).isOk = true := by
    decide +kernel
  obtain ⟨prepared, compiled⟩ := exists_of_isOk succeeds
  exact ⟨prepared, compiled, linesUp_of_measurements compiled⟩

end StationGateway.Recipe
