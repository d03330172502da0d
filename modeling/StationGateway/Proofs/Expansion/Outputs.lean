import Mathlib
import StationGateway.Proofs.Expansion.Gathered
import StationGateway.Proofs.Expansion.Selection

/-!
# Columns of projections

A projection gives columns of the answer, each of them an expression with a label. Most projections
give one column. A measured value gives three, one for each of the tables that values are kept in,
and those of the other two tables are null. -/

namespace StationGateway

open Text

/-- A column of the answer. -/
structure Output where
  /-- The expression. -/
  expression : String
  /-- The label. -/
  label : String
  deriving DecidableEq, Repr

/-- The text of a column. -/
def Output.text (output : Output) : String :=
  output.expression ++ " as " ++ output.label

/-- The column that an item of a projection format stands for: that of the attribute itself, or
another one that is spelled out. -/
def Attribute.outputOf (field : Attribute) (item : List Char) : Output :=
  if item = formatSlot then ⟨field.projectedColumn?.getD "", field.columnLabel⟩
  else
    match splitLast ' ' item with
    | some (before, label) =>
        ⟨String.ofList ((stripEnd? [' ', 'a', 's'] before).getD before), String.ofList label⟩
    | none => ⟨String.ofList item, String.ofList item⟩

/-- The columns that a whole attribute gives, by the items of its projection format. -/
def Attribute.outputs (field : Attribute) : List Output :=
  (splitOn ',' field.selectFormat.toList).map fun item => field.outputOf (trim item)

/-- The columns that a projection gives. -/
def Fragment.outputs (fragment : Fragment) : List Output :=
  match fragment.path with
  | none => fragment.field.outputs
  | some path =>
      [⟨if fragment.field.scalarOnly then "null::jsonb"
        else fragment.field.placeColumn ++ "#>'\x7b" ++ Selector.commaPath path ++ "\x7d'",
        "\"" ++ fragment.field.finalName ++ "." ++ path ++ "\""⟩]

/-! ## Formats -/

/-- A format is filled in at its first place. -/
theorem applyFormat_eq {format before after : String} (format_eq : format = before ++ "%s" ++ after)
    (first : '%' ∉ before.toList) (value : String) :
    applyFormat format value = before ++ value ++ after := by
  have replaced : ∀ chars : List Char, '%' ∉ chars →
      replaceFirst formatSlot value.toList (chars ++ formatSlot ++ after.toList) =
        chars ++ value.toList ++ after.toList := by
    intro chars absent
    induction chars with
    | nil => simp [formatSlot, replaceFirst, stripStart?]
    | cons char rest induction =>
        obtain ⟨char_ne, rest_absent⟩ := not_or.mp (mt List.mem_cons.mpr absent)
        have kept : stripStart? formatSlot (char :: (rest ++ formatSlot ++ after.toList)) = none := by
          rw [formatSlot, stripStart?, if_neg char_ne]
        rw [List.cons_append, List.cons_append, replaceFirst, kept]
        dsimp only
        rw [induction rest_absent]
        rfl
  have slot : "%s".toList = formatSlot := rfl
  apply String.toList_injective
  rw [applyFormat, String.toList_ofList, format_eq, String.toList_append, String.toList_append, slot,
    replaced before.toList first, String.toList_append, String.toList_append]

theorem applyFormat_slot (value : String) : applyFormat "%s" value = value := by
  have filled := @applyFormat_eq "%s" "" "" rfl List.not_mem_nil value
  rwa [String.empty_append, String.append_empty] at filled

namespace Mobility

/-- The attributes of measured values. -/
def valueFields : List Attribute :=
  measurementDouble.attributes ++ measurementString.attributes ++ measurementJson.attributes

/-- The columns of the tables of measured values, each with what stands in its place for the other
tables. -/
def valueSlots : List (String × Output) :=
  [("me.double_value", ⟨"null::double precision", "mvalue_double"⟩),
    ("me.string_value", ⟨"null::character varying", "mvalue_string"⟩),
    ("me.json_value", ⟨"null::jsonb", "mvalue_json"⟩)]

/-- The columns that the measured values of a table give. -/
def valueOutputs (column : String) : List Output :=
  valueSlots.map fun slot => ⟨if slot.1 = column then column else slot.2.expression, slot.2.label⟩

/-- How columns are projected: as they are, as times, or as geometries. -/
def columnFormats : List String :=
  ["%s", "timezone('UTC', %s)", "st_asgeojson(%s, 9, 3)::jsonb"]

private theorem formats_checked : ∀ list ∈ lists, ∀ field ∈ list.attributes,
    (field.isPointer = false → field.column?.isSome = true) ∧
    (field.selectFormat = "%s" ∧ field.label = none ∨ field ∈ valueFields) ∧
      field.columnFormat ∈ columnFormats := by
  decide +kernel

/-- A value column gives what the items of its format spell, with its own column in their midst. -/
private theorem outputs_of_valueColumn {name expression format before after : String}
    {scalarOnly : Bool} {chars : List Char} {outputs : List Output}
    (chars_eq : format = String.ofList chars) (format_eq : format = before ++ "%s" ++ after)
    (first : '%' ∉ before.toList)
    (outputs_eq : (splitOn ',' chars).map (fun item =>
      (valueColumn name expression format scalarOnly).outputOf (trim item)) = outputs)
    (spelled : before ++ (expression ++ " as " ++ name) ++ after = join ", " (outputs.map Output.text)) :
    (valueColumn name expression format scalarOnly).outputs = outputs ∧
      Fragment.text ⟨valueColumn name expression format scalarOnly, none⟩ =
        join ", " (outputs.map Output.text) := by
  have filled : Fragment.text ⟨valueColumn name expression format scalarOnly, none⟩ =
      applyFormat format (applyFormat "%s" expression ++ " as " ++ name) := rfl
  have format_chars : (valueColumn name expression format scalarOnly).selectFormat =
      String.ofList chars := chars_eq
  refine ⟨?_, ?_⟩
  · rw [Attribute.outputs, format_chars, String.toList_ofList, outputs_eq]
  · rw [filled, applyFormat_slot, applyFormat_eq format_eq first, spelled]

/-- The columns of measured values, null where they are those of other tables. -/
theorem outputs_of_value {field : Attribute} (is_value : field ∈ valueFields) :
    ∃ column, field.column? = some column ∧ column ∈ valueSlots.map (·.1) ∧
      field.outputs = valueOutputs column ∧
      Fragment.text ⟨field, none⟩ = join ", " ((valueOutputs column).map Output.text) := by
  simp only [valueFields, measurementDouble, measurementString, measurementJson, List.cons_append,
    List.nil_append, List.mem_cons, List.not_mem_nil, or_false] at is_value
  rcases is_value with rfl | rfl | rfl
  · refine ⟨"me.double_value", rfl, by simp [valueSlots], ?_⟩
    exact @outputs_of_valueColumn _ _ _ ""
      ", null::character varying as mvalue_string, null::jsonb as mvalue_json" _ _ _ rfl
      (by decide +kernel) (by decide) rfl (by decide +kernel)
  · refine ⟨"me.string_value", rfl, by simp [valueSlots], ?_⟩
    exact @outputs_of_valueColumn _ _ _ "null::double precision as mvalue_double, "
      ", null::jsonb as mvalue_json" _ _ _ rfl (by decide +kernel) (by decide) rfl (by decide +kernel)
  · have format_eq :
        "null::double precision as mvalue_double, " ++ "null::character varying as mvalue_string, %s" =
          "null::double precision as mvalue_double, null::character varying as mvalue_string, %s" := by
      decide +kernel
    refine ⟨"me.json_value", rfl, by simp [valueSlots], ?_⟩
    rw [format_eq]
    exact @outputs_of_valueColumn _ _ _
      "null::double precision as mvalue_double, null::character varying as mvalue_string, " "" _ _ _
      rfl (by decide +kernel) (by decide) rfl (by decide +kernel)

section

variable {list : TargetList} {field : Attribute}

theorem isSome_column? (list_mem : list ∈ lists) (field_mem : field ∈ list.attributes)
    (not_pointer : field.isPointer = false) : field.column?.isSome = true :=
  (formats_checked list list_mem field field_mem).1 not_pointer

theorem columnFormat_mem (list_mem : list ∈ lists) (field_mem : field ∈ list.attributes) :
    field.columnFormat ∈ columnFormats :=
  (formats_checked list list_mem field field_mem).2.2

/-- An attribute that is no measured value gives one column under its name. -/
theorem outputs_of_plain (list_mem : list ∈ lists) (field_mem : field ∈ list.attributes)
    (plain : field ∉ valueFields) :
    field.selectFormat = "%s" ∧ field.columnLabel = field.finalName ∧
      field.outputs = [⟨field.projectedColumn?.getD "", field.finalName⟩] := by
  obtain ⟨format_eq, label_eq⟩ :=
    (formats_checked list list_mem field field_mem).2.1.resolve_right plain
  have label : field.columnLabel = field.finalName := by
    rw [Attribute.columnLabel, label_eq, Option.getD_none]
  refine ⟨format_eq, label, ?_⟩
  have items : splitOn ',' "%s".toList = [formatSlot] := by decide
  have kept : trim formatSlot = formatSlot := by decide
  rw [Attribute.outputs, format_eq, items, List.map_singleton, kept, Attribute.outputOf, if_pos rfl,
    label]

theorem outputs_ne_nil (list_mem : list ∈ lists) (field_mem : field ∈ list.attributes)
    (path : Option String) : Fragment.outputs ⟨field, path⟩ ≠ [] := by
  cases path with
  | none =>
      by_cases is_value : field ∈ valueFields
      · obtain ⟨column, -, -, outputs_eq, -⟩ := outputs_of_value is_value
        rw [Fragment.outputs, outputs_eq]
        exact List.cons_ne_nil _ _
      · obtain ⟨-, -, outputs_eq⟩ := outputs_of_plain list_mem field_mem is_value
        rw [Fragment.outputs, outputs_eq]
        exact List.cons_ne_nil _ _
  | some path => exact List.cons_ne_nil _ _

/-- The text of a projection is that of its columns. -/
theorem text_eq_outputs (list_mem : list ∈ lists) (field_mem : field ∈ list.attributes)
    (not_pointer : field.isPointer = false) (path : Option String) :
    Fragment.text ⟨field, path⟩ =
      join ", " ((Fragment.outputs ⟨field, path⟩).map Output.text) := by
  cases path with
  | some path =>
      cases scalar : field.scalarOnly with
      | true => simp [Fragment.text, Fragment.outputs, Output.text, join, scalar, String.append_assoc]
      | false =>
          simp [Fragment.text, Fragment.outputs, Output.text, join, scalar, Attribute.placeColumn,
            String.append_assoc]
  | none =>
      by_cases is_value : field ∈ valueFields
      · obtain ⟨column, -, -, outputs_eq, text_eq⟩ := outputs_of_value is_value
        rw [Fragment.outputs, outputs_eq, text_eq]
      · obtain ⟨format_eq, label_eq, outputs_eq⟩ := outputs_of_plain list_mem field_mem is_value
        obtain ⟨column, column_eq⟩ :=
          Option.isSome_iff_exists.mp (isSome_column? list_mem field_mem not_pointer)
        rw [Fragment.outputs, outputs_eq, List.map_singleton, join, Output.text, Fragment.text]
        simp only [Attribute.fragment?, Attribute.projectedColumn?, column_eq, format_eq, label_eq,
          applyFormat_slot, Option.map_some, Option.getD_some]

theorem text_ne_empty (list_mem : list ∈ lists) (field_mem : field ∈ list.attributes)
    (not_pointer : field.isPointer = false) (path : Option String) :
    Fragment.text ⟨field, path⟩ ≠ "" := by
  rw [text_eq_outputs list_mem field_mem not_pointer, Ne, join_eq_empty_iff]
  · simpa using outputs_ne_nil list_mem field_mem path
  · simp [Output.text]

end

end Mobility

end StationGateway
