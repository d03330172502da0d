import Mathlib
import StationGateway.Proofs.Expansion.Outputs
import StationGateway.Row

/-!
# Labels of projections

The label of a projected column spells the selector that it comes from, as soon as the columns of
measured values are put back into one. So no two selectors share a label, and the label says which
attribute a column of the answer belongs to. -/

namespace StationGateway

open Text

namespace Selector

/-- A place is spelled by its name and its path. -/
theorem ofText?_respelled {given name path : String}
    (spelled : ofText? given = some ⟨name, some path⟩) :
    ofText? (name ++ "." ++ path) = some ⟨name, some path⟩ := by
  have spelled_again := spelled
  rw [ofText?] at spelled
  split_ifs at spelled with is_empty
  have text_eq : trim given.toList = (name ++ "." ++ path).toList := by
    split at spelled
    · cases spelled
    next found_name found_path _ split_eq =>
      obtain ⟨name_eq, path_eq⟩ := Selector.mk.inj (Option.some.inj spelled)
      rw [eq_append_of_splitOnce split_eq, ← name_eq, ← Option.some.inj path_eq]
      simp
    · cases spelled
  rw [ofText?, ← text_eq, trim_trim]
  rwa [ofText?] at spelled_again

/-- A name of small letters spells the whole attribute. -/
theorem ofText?_whole {name : String} (named : name.toList ≠ [])
    (letters : ∀ char ∈ name.toList, char.isLower = true) : ofText? name = some (whole name) := by
  have no_point : '.' ∉ name.toList := fun point => absurd (letters '.' point) (by decide)
  exact ofText?_of_visible named (fun char member => isBlank_of_isLower (letters char member)) no_point

end Selector

/-! ## Columns of the answer -/

/-- The name that a column has in the answer: its label without quotation marks around it. -/
def Output.column (output : Output) : String :=
  match output.label.toList with
  | '"' :: rest => String.ofList rest.dropLast
  | _ => output.label

/-- The name that a column has when the columns of measured values are put into one. -/
def Output.shown (output : Output) : String :=
  if Row.isSlot output.column then Row.valueColumn else output.column

section

variable {list : TargetList} {field : Attribute} {fragment : Fragment} {selector : Selector}
  {output : Output}

theorem column_of_letters {name expression : String}
    (letters : ∀ char ∈ name.toList, char.isLower = true ∨ char = '_') :
    Output.column ⟨expression, name⟩ = name := by
  rw [Output.column]
  dsimp only
  split
  next rest label_eq =>
    have mark := letters '"' (label_eq ▸ List.mem_cons_self)
    exact absurd mark (by decide)
  · rfl

theorem shown_of_letters {name expression : String}
    (letters : ∀ char ∈ name.toList, char.isLower = true) :
    Output.shown ⟨expression, name⟩ = name := by
  rw [Output.shown, column_of_letters fun char member => .inl (letters char member)]
  split_ifs with is_slot
  · have underscores : ∀ slot ∈ Row.valueSlots, slot = Row.valueColumn ∨ '_' ∈ slot.toList := by
      decide
    rcases underscores name (List.contains_iff_mem.mp is_slot) with same | underscore
    · exact same.symm
    · exact absurd (letters '_' underscore) (by decide)
  · rfl

theorem shown_place {name path expression : String} :
    Output.shown ⟨expression, "\"" ++ name ++ "." ++ path ++ "\""⟩ = name ++ "." ++ path := by
  have column_eq : Output.column ⟨expression, "\"" ++ name ++ "." ++ path ++ "\""⟩ =
      name ++ "." ++ path := by
    have chars_eq : ("\"" ++ name ++ "." ++ path ++ "\"").toList =
        '"' :: ((name ++ "." ++ path).toList ++ ['"']) := by simp
    have last_dropped : Output.column ⟨expression, "\"" ++ name ++ "." ++ path ++ "\""⟩ =
        String.ofList ((name ++ "." ++ path).toList ++ ['"']).dropLast := by
      rw [Output.column, chars_eq]
      rfl
    rw [last_dropped, List.dropLast_concat, String.ofList_toList]
  have no_points : ∀ slot ∈ Row.valueSlots, '.' ∉ slot.toList := by decide
  have no_slot : Row.isSlot (name ++ "." ++ path) = false := by
    refine Bool.eq_false_iff.mpr fun is_slot => ?_
    refine no_points _ (List.contains_iff_mem.mp is_slot) ?_
    simp
  rw [Output.shown, column_eq, no_slot]
  rfl

private theorem valueSlots_shown : ∀ slot ∈ Mobility.valueSlots, ∀ expression,
    Output.shown ⟨expression, slot.2.label⟩ = "mvalue" := by
  have labels : ∀ slot ∈ Mobility.valueSlots,
      slot.2.label.toList.all (fun char => char.isLower || char == '_') = true ∧
        Row.isSlot slot.2.label = true := by
    decide
  intro slot member expression
  obtain ⟨letters, is_slot⟩ := labels slot member
  have column_eq : Output.column ⟨expression, slot.2.label⟩ = slot.2.label :=
    column_of_letters fun char char_in => by simpa using List.all_eq_true.mp letters char char_in
  rw [Output.shown, column_eq, is_slot]
  rfl

/-- Measured values have one name, whatever table they come from. -/
theorem valueFields_named : ∀ field ∈ Mobility.valueFields, field.finalName = "mvalue" := by
  decide

/-- A column of the answer spells the selector that it comes from. -/
theorem ofText?_shown {scope : Scope} (list_mem : list ∈ Mobility.lists)
    (spelled : scope.Spells selector) (projected : Scope.projection? list selector = some fragment)
    (member : output ∈ fragment.outputs) : Selector.ofText? output.shown = some selector := by
  obtain ⟨found, not_pointer, path_eq⟩ := Scope.projection?_eq_some_iff.mp projected
  have field_mem := List.mem_of_find?_eq_some found
  have name_eq := Scope.finalName_of_find? found
  have ordinary := Mobility.ordinary_of_column list_mem field_mem
    (Mobility.isSome_column? list_mem field_mem not_pointer)
  obtain ⟨name, path⟩ := selector
  obtain ⟨field, field_path⟩ := fragment
  dsimp only at name_eq path_eq ordinary
  subst name_eq path_eq
  cases field_path with
  | none =>
      have whole_spelled := Selector.ofText?_whole ordinary.named ordinary.letters
      by_cases is_value : field ∈ Mobility.valueFields
      · obtain ⟨column, -, -, outputs_eq, -⟩ := Mobility.outputs_of_value is_value
        rw [Fragment.outputs, outputs_eq] at member
        obtain ⟨slot, slot_in, rfl⟩ := List.mem_map.mp member
        rw [valueSlots_shown slot slot_in]
        rw [valueFields_named field is_value] at whole_spelled ⊢
        exact whole_spelled
      · obtain ⟨-, -, outputs_eq⟩ := Mobility.outputs_of_plain list_mem field_mem is_value
        rw [Fragment.outputs, outputs_eq] at member
        obtain rfl := List.mem_singleton.mp member
        rw [shown_of_letters ordinary.letters]
        exact whole_spelled
  | some path =>
      rw [Fragment.outputs] at member
      obtain rfl := List.mem_singleton.mp member
      rw [shown_place]
      rcases spelled with ⟨given, given_eq⟩ | ⟨_, _, _, _, whole_eq⟩
      · exact Selector.ofText?_respelled given_eq
      · cases whole_eq

/-- No label of a projection is that of a column that clients do not see. -/
theorem head?_label (list_mem : list ∈ Mobility.lists) (field_mem : field ∈ list.attributes)
    (not_pointer : field.isPointer = false) {path : Option String}
    (member : output ∈ Fragment.outputs ⟨field, path⟩) : output.label.toList.head? ≠ some '_' := by
  have ordinary := Mobility.ordinary_of_column list_mem field_mem
    (Mobility.isSome_column? list_mem field_mem not_pointer)
  cases path with
  | none =>
      by_cases is_value : field ∈ Mobility.valueFields
      · have slots : ∀ slot ∈ Mobility.valueSlots, slot.2.label.toList.head? ≠ some '_' := by decide
        obtain ⟨column, -, -, outputs_eq, -⟩ := Mobility.outputs_of_value is_value
        rw [Fragment.outputs, outputs_eq] at member
        obtain ⟨slot, slot_in, rfl⟩ := List.mem_map.mp member
        exact slots slot slot_in
      · obtain ⟨-, -, outputs_eq⟩ := Mobility.outputs_of_plain list_mem field_mem is_value
        rw [Fragment.outputs, outputs_eq] at member
        obtain rfl := List.mem_singleton.mp member
        intro begins
        exact absurd (ordinary.letters '_' (List.mem_of_head? begins)) (by decide)
  | some path =>
      rw [Fragment.outputs] at member
      obtain rfl := List.mem_singleton.mp member
      simp [String.toList_append]

/-- Measured values of all tables have the same labels. -/
theorem labels_of_value {other : Attribute} (is_value : field ∈ Mobility.valueFields)
    (other_value : other ∈ Mobility.valueFields) (path : Option String) :
    ((Fragment.outputs ⟨field, path⟩).map fun output => output.label) =
      (Fragment.outputs ⟨other, path⟩).map fun output => output.label := by
  cases path with
  | none =>
      obtain ⟨column, -, -, outputs_eq, -⟩ := Mobility.outputs_of_value is_value
      obtain ⟨other_column, -, -, other_eq, -⟩ := Mobility.outputs_of_value other_value
      rw [Fragment.outputs, outputs_eq, Fragment.outputs, other_eq, Mobility.valueOutputs,
        Mobility.valueOutputs, List.map_map, List.map_map]
      rfl
  | some path =>
      rw [Fragment.outputs, Fragment.outputs]
      dsimp only
      rw [List.map_singleton, List.map_singleton, valueFields_named field is_value,
        valueFields_named other other_value]

/-- The columns of one projection have distinct labels. -/
theorem nodup_labels (list_mem : list ∈ Mobility.lists) (field_mem : field ∈ list.attributes)
    (path : Option String) :
    ((Fragment.outputs ⟨field, path⟩).map fun output => output.label).Nodup := by
  cases path with
  | none =>
      by_cases is_value : field ∈ Mobility.valueFields
      · have slots : (Mobility.valueSlots.map fun slot => slot.2.label).Nodup := by decide
        obtain ⟨column, -, -, outputs_eq, -⟩ := Mobility.outputs_of_value is_value
        rw [Fragment.outputs, outputs_eq, Mobility.valueOutputs, List.map_map]
        exact slots
      · obtain ⟨-, -, outputs_eq⟩ := Mobility.outputs_of_plain list_mem field_mem is_value
        rw [Fragment.outputs, outputs_eq]
        exact List.nodup_singleton _
  | some path => exact List.nodup_singleton _

end

end StationGateway
