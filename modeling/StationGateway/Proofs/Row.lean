import Mathlib
import StationGateway.Row

/-!
# Columns of rows

Which columns a row has, before and after its measured value is put into one column. -/

namespace StationGateway

section

variable {row : Row} {column : String}

theorem Json.isSome_member?_iff : (Json.member? column row).isSome ↔ column ∈ row.map (·.1) := by
  induction row with
  | nil => simp [Json.member?]
  | cons first rest induction =>
      obtain ⟨name, cell⟩ := first
      rw [Json.member?, List.map_cons, List.mem_cons]
      split_ifs with same
      · simp [same]
      · rw [induction]
        exact ⟨.inr, fun found => found.resolve_left fun equal => same equal.symm⟩

theorem Json.mem_keys_setMember_iff {name : String} {value : Json} :
    column ∈ (Json.setMember name value row).map (·.1) ↔ column = name ∨ column ∈ row.map (·.1) := by
  induction row with
  | nil => simp [Json.setMember]
  | cons first rest induction =>
      rw [Json.setMember]
      split_ifs with same
      · simp [same]
      · rw [List.map_cons, List.map_cons, List.mem_cons, List.mem_cons, induction]
        tauto

/-- A new member is set after the others. -/
theorem Json.setMember_of_new {name : String} (value : Json) (new : name ∉ row.map (·.1)) :
    Json.setMember name value row = row ++ [(name, value)] := by
  induction row with
  | nil => rfl
  | cons first rest induction =>
      rw [List.map_cons, List.mem_cons, not_or] at new
      rw [Json.setMember, if_neg (Ne.symm new.1), induction new.2]
      rfl

namespace Row

/-! ## Columns of a gathered row -/

namespace Gathering

variable (gathering : Gathering) (entry : String × Json)

theorem row_add : (gathering.add entry).row =
    if isSlot entry.1 then
      if gathering.placed then gathering.row else Json.setMember valueColumn .null gathering.row
    else Json.setMember entry.1 entry.2 gathering.row := by
  rw [add]
  split_ifs <;> rfl

theorem value_add : (gathering.add entry).value =
    if isSlot entry.1 && gathering.value.isNull then entry.2 else gathering.value := by
  rw [add]
  split_ifs <;> simp_all

theorem placed_add : (gathering.add entry).placed = (isSlot entry.1 || gathering.placed) := by
  rw [add]
  split_ifs <;> simp_all

end Gathering

theorem mem_keys_add_iff {gathering : Gathering} {entry : String × Json} (other : column ≠ valueColumn) :
    column ∈ (gathering.add entry).row.map (·.1) ↔
      column ∈ gathering.row.map (·.1) ∨ column = entry.1 ∧ isSlot column = false := by
  rw [gathering.row_add entry]
  split_ifs with is_slot placed
  · grind
  · grind [Json.mem_keys_setMember_iff]
  · grind [Json.mem_keys_setMember_iff]

theorem mem_keys_gathered_iff {gathering : Gathering} (other : column ≠ valueColumn) :
    column ∈ (row.foldl Gathering.add gathering).row.map (·.1) ↔
      column ∈ gathering.row.map (·.1) ∨ column ∈ row.map (·.1) ∧ isSlot column = false := by
  induction row generalizing gathering with
  | nil => simp
  | cons entry rest induction =>
      rw [List.foldl_cons, induction, mem_keys_add_iff other, List.map_cons, List.mem_cons]
      tauto

/-! ## The value column -/

/-- The columns of the tables that measured values are kept in. -/
def tableColumns : List String :=
  ["mvalue_double", "mvalue_string", "mvalue_json"]

theorem isSlot_iff : isSlot column = true ↔ column = valueColumn ∨ column ∈ tableColumns := by
  simp [isSlot, valueSlots, tableColumns]

@[simp] theorem isSlot_valueColumn : isSlot valueColumn = true :=
  isSlot_iff.mpr (.inl rfl)

theorem isSlot_of_mem_tableColumns (member : column ∈ tableColumns) : isSlot column = true :=
  isSlot_iff.mpr (.inr member)

theorem ne_valueColumn_of_mem_tableColumns (member : column ∈ tableColumns) :
    column ≠ valueColumn := by
  rintro rfl
  simp [tableColumns, valueColumn] at member

/-- A row with columns of the tables is gathered. -/
theorem collapse_of_table (table : ∃ own ∈ tableColumns, own ∈ row.map (·.1)) :
    row.collapse = Json.setMember valueColumn (row.foldl Gathering.add {}).value
      (row.foldl Gathering.add {}).row := by
  obtain ⟨own, is_table, in_row⟩ := table
  obtain ⟨entry, entry_in, rfl⟩ := List.mem_map.mp in_row
  rw [collapse, if_pos]
  apply List.any_eq_true.mpr
  refine ⟨entry, entry_in, ?_⟩
  simp [ne_valueColumn_of_mem_tableColumns is_table, isSlot_of_mem_tableColumns is_table]

/-- A row without columns of the tables stays as it is. -/
theorem collapse_of_no_table (no_table : ∀ own ∈ tableColumns, own ∉ row.map (·.1)) :
    row.collapse = row := by
  rw [collapse, if_neg]
  intro some_table
  obtain ⟨entry, entry_in, is_table⟩ := List.any_eq_true.mp some_table
  simp only [ne_eq, Bool.and_eq_true, decide_eq_true_eq] at is_table
  have member := (isSlot_iff.mp is_table.2).resolve_left is_table.1
  exact no_table entry.1 member (List.mem_map_of_mem entry_in)

theorem mem_keys_collapse_iff (table : ∃ own ∈ tableColumns, own ∈ row.map (·.1)) :
    column ∈ row.collapse.map (·.1) ↔
      column = valueColumn ∨ column ∈ row.map (·.1) ∧ isSlot column = false := by
  rw [collapse_of_table table, Json.mem_keys_setMember_iff]
  by_cases is_value : column = valueColumn
  · simp [is_value]
  · rw [mem_keys_gathered_iff is_value]
    simp

/-- The columns of a row whose measured value is in one column. -/
theorem exists_of_mem_collapse (member : column ∈ row.collapse.map (·.1)) :
    ∃ own ∈ row.map (·.1), column = if isSlot own then valueColumn else own := by
  by_cases table : ∃ own ∈ tableColumns, own ∈ row.map (·.1)
  · rcases (mem_keys_collapse_iff table).mp member with is_value | ⟨in_row, no_slot⟩
    · obtain ⟨own, is_table, in_row⟩ := table
      refine ⟨own, in_row, ?_⟩
      rw [if_pos (isSlot_of_mem_tableColumns is_table), is_value]
    · refine ⟨column, in_row, ?_⟩
      rw [no_slot]
      rfl
  · have no_table : ∀ own ∈ tableColumns, own ∉ row.map (·.1) := by simpa using table
    rw [collapse_of_no_table no_table] at member
    refine ⟨column, member, ?_⟩
    split_ifs with is_slot
    · exact (isSlot_iff.mp is_slot).resolve_right fun is_table => no_table column is_table member
    · rfl

theorem mem_collapse (member : column ∈ row.map (·.1)) (no_slot : isSlot column = false) :
    column ∈ row.collapse.map (·.1) := by
  by_cases table : ∃ own ∈ tableColumns, own ∈ row.map (·.1)
  · exact (mem_keys_collapse_iff table).mpr (.inr ⟨member, no_slot⟩)
  · rw [collapse_of_no_table (by simpa using table)]
    exact member

/-! ## One value in place of the slots -/

/-- The row with `value` in place of the first slot and without the other slots. -/
def placeValue (value : Json) : Row → Row
  | [] => []
  | (column, cell) :: rest =>
      if isSlot column then (valueColumn, value) :: rest.filter fun entry => !isSlot entry.1
      else (column, cell) :: placeValue value rest

/-- The columns of a row with one value are those of the row, the value in place of the slots. -/
theorem exists_of_mem_placeValue {value : Json} (member : column ∈ (row.placeValue value).map (·.1)) :
    ∃ own ∈ row.map (·.1), column = if isSlot own then valueColumn else own := by
  induction row with
  | nil => cases member
  | cons first rest induction =>
      obtain ⟨name, cell⟩ := first
      rw [placeValue] at member
      split_ifs at member with is_slot
      · rcases List.mem_cons.mp member with is_value | in_rest
        · exact ⟨name, List.mem_cons_self, by rw [is_value, if_pos is_slot]⟩
        · obtain ⟨entry, entry_in, rfl⟩ := List.mem_map.mp in_rest
          obtain ⟨in_row, no_slot⟩ := List.mem_filter.mp entry_in
          refine ⟨entry.1, List.mem_cons_of_mem _ (List.mem_map_of_mem in_row), ?_⟩
          rw [if_neg (by simpa using no_slot)]
      · rcases List.mem_cons.mp member with is_first | in_rest
        · exact ⟨name, List.mem_cons_self, by rw [is_first, if_neg is_slot]⟩
        · obtain ⟨own, own_in, same⟩ := induction in_rest
          exact ⟨own, List.mem_cons_of_mem _ own_in, same⟩

/-- The other columns keep their cells and their order. -/
theorem filter_placeValue (value : Json) (row : Row) :
    ((row.placeValue value).filter fun entry => !isSlot entry.1) =
      row.filter fun entry => !isSlot entry.1 := by
  induction row with
  | nil => rfl
  | cons first rest induction =>
      obtain ⟨name, cell⟩ := first
      rw [placeValue]
      split_ifs with is_slot
      · simp [is_slot]
      · simp [is_slot, induction]

/-- The value is the only slot that is left. -/
theorem filter_isSlot_placeValue {value : Json} (has_slot : ∃ entry ∈ row, isSlot entry.1 = true) :
    ((row.placeValue value).filter fun entry => isSlot entry.1) = [(valueColumn, value)] := by
  induction row with
  | nil => simp at has_slot
  | cons first rest induction =>
      obtain ⟨name, cell⟩ := first
      rw [placeValue]
      split_ifs with is_slot
      · simp [List.filter_filter]
      · have further : ∃ entry ∈ rest, isSlot entry.1 = true := by
          simpa [is_slot] using has_slot
        simp [is_slot, induction further]

/-- The value stands where the first slot stood. -/
theorem takeWhile_placeValue (value : Json) (row : Row) :
    ((row.placeValue value).takeWhile fun entry => !isSlot entry.1) =
      row.takeWhile fun entry => !isSlot entry.1 := by
  induction row with
  | nil => rfl
  | cons first rest induction =>
      obtain ⟨name, cell⟩ := first
      rw [placeValue]
      split_ifs with is_slot
      · simp [is_slot]
      · simp [is_slot, induction]

theorem placeValue_append (value : Json) (row : Row) (entry : String × Json) :
    placeValue value (row ++ [entry]) = row.placeValue value ++
      if isSlot entry.1 then (if row.any fun entry => isSlot entry.1 then [] else [(valueColumn, value)])
      else [entry] := by
  induction row with
  | nil =>
      obtain ⟨name, cell⟩ := entry
      simp [placeValue]
  | cons first rest induction =>
      obtain ⟨name, cell⟩ := first
      rw [List.cons_append, placeValue, placeValue, List.any_cons]
      by_cases first_slot : isSlot name = true
      · rw [if_pos first_slot, if_pos first_slot, first_slot]
        cases entry_slot : isSlot entry.1 <;> simp [entry_slot]
      · rw [if_neg first_slot, if_neg first_slot, induction, Bool.eq_false_iff.mpr first_slot,
          Bool.false_or]
        rfl

theorem placeValue_of_no_slot (value : Json) (no_slot : ∀ entry ∈ row, isSlot entry.1 = false) :
    row.placeValue value = row := by
  induction row with
  | nil => rfl
  | cons first rest induction =>
      obtain ⟨first_other, rest_other⟩ := List.forall_mem_cons.mp no_slot
      obtain ⟨name, cell⟩ := first
      rw [placeValue, first_other, induction rest_other]
      rfl

/-- The value column can be filled after the row has been gathered. -/
theorem setMember_placeValue {earlier value : Json} (has_slot : ∃ entry ∈ row, isSlot entry.1 = true) :
    Json.setMember valueColumn value (row.placeValue earlier) = row.placeValue value := by
  induction row with
  | nil => simp at has_slot
  | cons first rest induction =>
      obtain ⟨name, cell⟩ := first
      rw [placeValue, placeValue]
      split_ifs with is_slot
      · rw [Json.setMember, if_pos rfl]
      · have further : ∃ entry ∈ rest, isSlot entry.1 = true := by
          simpa [is_slot] using has_slot
        have other : name ≠ valueColumn := by
          rintro rfl
          exact is_slot isSlot_valueColumn
        rw [Json.setMember, if_neg other, induction further]

/-- Whether a value is the first one in the slots of a row that is not null, or null if all are. -/
def IsMeasured (value : Json) (row : Row) : Prop :=
  (∃ earlier column later, row = earlier ++ (column, value) :: later ∧ isSlot column = true ∧
      value.isNull = false ∧ ∀ entry ∈ earlier, isSlot entry.1 = true → entry.2.isNull = true) ∨
    value = .null ∧ ∀ entry ∈ row, isSlot entry.1 = true → entry.2.isNull = true

theorem eq_null_of_isNull {value : Json} (is_null : value.isNull = true) : value = .null := by
  cases value <;> simp_all [Json.isNull]

/-- The first value stays the first one, and a later one is taken only as long as there is none. -/
theorem IsMeasured.append {value : Json} (measured : IsMeasured value row) (entry : String × Json) :
    IsMeasured (if isSlot entry.1 && value.isNull then entry.2 else value) (row ++ [entry]) := by
  rcases measured with ⟨earlier, column, later, row_eq, is_slot, not_null, nulls⟩ | ⟨rfl, nulls⟩
  · left
    refine ⟨earlier, column, later ++ [entry], ?_, is_slot, ?_, nulls⟩
    · simp [row_eq, not_null]
    · simp [not_null]
  · by_cases is_first : isSlot entry.1 = true ∧ entry.2.isNull = false
    · left
      refine ⟨row, entry.1, [], ?_, is_first.1, ?_, nulls⟩
      · simp [is_first.1, show Json.isNull .null = true from rfl]
      · simp [is_first, show Json.isNull .null = true from rfl]
    · right
      have entry_null : isSlot entry.1 = true → entry.2.isNull = true := by
        simpa using is_first
      refine ⟨?_, ?_⟩
      · split_ifs with is_slot
        · exact eq_null_of_isNull (entry_null (Bool.and_eq_true _ _ ▸ is_slot).1)
        · rfl
      · intro other member
        rcases List.mem_append.mp member with in_row | is_entry
        · exact nulls other in_row
        · exact List.mem_singleton.mp is_entry ▸ entry_null

/-! ## Gathering a row -/

/-- What has been gathered of the columns so far. -/
structure Gathering.IsOf (gathering : Gathering) (seen : Row) : Prop where
  row_eq : gathering.row = seen.placeValue .null
  measured : IsMeasured gathering.value seen
  placed_eq : gathering.placed = seen.any fun entry => isSlot entry.1

theorem Gathering.isOf_nil : ({} : Gathering).IsOf [] where
  row_eq := rfl
  measured := .inr ⟨rfl, by simp⟩
  placed_eq := rfl

theorem Gathering.IsOf.add {gathering : Gathering} {seen : Row} {entry : String × Json}
    (gathered : gathering.IsOf seen) (new : entry.1 ∉ seen.map (·.1)) :
    (gathering.add entry).IsOf (seen ++ [entry]) := by
  obtain ⟨row_eq, measured, placed_eq⟩ := gathered
  refine ⟨?_, ?_, ?_⟩
  · rw [row_add, placeValue_append, row_eq, placed_eq]
    split_ifs with is_slot has_slot
    · rw [List.append_nil]
    · -- The first slot: its place is after all columns so far, since none of them is the value column.
      have no_slot : ∀ entry ∈ seen, isSlot entry.1 = false := by
        intro entry member
        by_contra own_slot
        exact has_slot (List.any_eq_true.mpr ⟨entry, member, by simpa using own_slot⟩)
      rw [placeValue_of_no_slot .null no_slot]
      refine Json.setMember_of_new .null fun member => ?_
      obtain ⟨own, own_in, is_value⟩ := List.mem_map.mp member
      have other := no_slot own own_in
      rw [is_value, isSlot_valueColumn] at other
      cases other
    · refine Json.setMember_of_new entry.2 fun member => ?_
      obtain ⟨own, own_in, same⟩ := exists_of_mem_placeValue member
      split_ifs at same with own_slot
      · exact is_slot (same ▸ isSlot_valueColumn)
      · exact new (same ▸ own_in)
  · rw [value_add]
    exact measured.append entry
  · simp [placed_add, placed_eq, Bool.or_comm]

theorem Gathering.IsOf.foldl {gathering : Gathering} {seen : Row} (gathered : gathering.IsOf seen)
    (distinct : ((seen ++ row).map (·.1)).Nodup) :
    (row.foldl Gathering.add gathering).IsOf (seen ++ row) := by
  induction row generalizing gathering seen with
  | nil => simpa using gathered
  | cons entry rest induction =>
      rw [List.append_cons] at distinct ⊢
      have new : entry.1 ∉ seen.map (·.1) := by
        rw [List.map_append, List.map_append] at distinct
        have disjoint := List.disjoint_of_nodup_append distinct.of_append_left
        exact fun member => disjoint member (List.mem_singleton.mpr rfl)
      exact induction (gathered.add new) distinct

/-- The measured value is put in the place of the first slot. -/
theorem collapse_eq_placeValue (distinct : (row.map (·.1)).Nodup)
    (table : ∃ own ∈ tableColumns, own ∈ row.map (·.1)) :
    ∃ value, IsMeasured value row ∧ row.collapse = row.placeValue value := by
  have gathered := Gathering.isOf_nil.foldl distinct
  rw [List.nil_append] at gathered
  refine ⟨_, gathered.measured, ?_⟩
  obtain ⟨own, is_table, in_row⟩ := table
  obtain ⟨entry, entry_in, rfl⟩ := List.mem_map.mp in_row
  rw [collapse_of_table ⟨entry.1, is_table, in_row⟩, gathered.row_eq]
  exact setMember_placeValue ⟨entry, entry_in, isSlot_of_mem_tableColumns is_table⟩

/-- A row whose measured value is in one column has no column of a table. -/
theorem not_mem_collapse_of_table : ∀ own ∈ tableColumns, own ∉ row.collapse.map (·.1) := by
  intro own is_table member
  obtain ⟨earlier, -, own_eq⟩ := exists_of_mem_collapse member
  split_ifs at own_eq with is_slot
  · exact ne_valueColumn_of_mem_tableColumns is_table own_eq
  · exact is_slot (own_eq ▸ isSlot_of_mem_tableColumns is_table)

/-- Rows are collapsed without loss: one column takes the place of the first slot and has the first value
that is not null, and all other cells stay as they are. So rows that are collapsed stay as they are, and
of the slots clients only see that column. -/
theorem collapse_gathers (row : Row) (distinct : (row.map (·.1)).Nodup) (showNull : Bool) :
    ((∀ own ∈ tableColumns, own ∉ row.map (·.1)) → row.collapse = row) ∧
    ((∃ own ∈ tableColumns, own ∈ row.map (·.1)) →
      (row.collapse.filter fun entry => !isSlot entry.1) = (row.filter fun entry => !isSlot entry.1) ∧
      ∃ value, IsMeasured value row ∧
        (row.collapse.filter fun entry => isSlot entry.1) = [(valueColumn, value)] ∧
        (row.collapse.takeWhile fun entry => !isSlot entry.1) =
          row.takeWhile fun entry => !isSlot entry.1) ∧
    row.collapse.collapse = row.collapse ∧
    ∀ entry ∈ row.collapse.visible showNull, isHidden entry.1 = false ∧
      (isSlot entry.1 = true → entry.1 = valueColumn) ∧ (showNull = false → entry.2.isNull = false) := by
  refine ⟨collapse_of_no_table, fun table => ?_, collapse_of_no_table not_mem_collapse_of_table,
    fun entry member => ?_⟩
  · have has_slot : ∃ entry ∈ row, isSlot entry.1 = true := by
      obtain ⟨own, is_table, in_row⟩ := table
      obtain ⟨entry, entry_in, rfl⟩ := List.mem_map.mp in_row
      exact ⟨entry, entry_in, isSlot_of_mem_tableColumns is_table⟩
    obtain ⟨value, measured, row_eq⟩ := collapse_eq_placeValue distinct table
    rw [row_eq]
    exact ⟨filter_placeValue value row, value, measured, filter_isSlot_placeValue has_slot,
      takeWhile_placeValue value row⟩
  · obtain ⟨in_row, shown⟩ := List.mem_filter.mp member
    simp only [Bool.and_eq_true, Bool.not_eq_true', Bool.or_eq_true] at shown
    refine ⟨shown.1, fun is_slot => ?_, fun no_nulls => ?_⟩
    · by_contra other
      have is_table := (isSlot_iff.mp is_slot).resolve_left other
      exact not_mem_collapse_of_table entry.1 is_table (List.mem_map_of_mem in_row)
    · simpa [no_nulls] using shown.2

/-- A row whose value is in the second of its tables. -/
def statusRow : Row :=
  [("_timestamp", .string "2024-01-01"), ("mvalue_double", .null), ("tname", .string "status"),
    ("mvalue_string", .string "ok"), ("mvalue_json", .null)]

theorem collapse_statusRow :
    ((statusRow.map (·.1)).Nodup ∧ ∃ own ∈ tableColumns, own ∈ statusRow.map (·.1)) ∧
      (∃ value, IsMeasured value statusRow ∧
        (statusRow.collapse.filter fun entry => isSlot entry.1) = [(valueColumn, value)] ∧
        (statusRow.collapse.takeWhile fun entry => !isSlot entry.1) =
          statusRow.takeWhile fun entry => !isSlot entry.1) ∧
      (("mvalue", .string "ok") ∈ statusRow.collapse.visible false ∧ (Json.string "ok").isNull = false) ∧
      Row.collapse [("mvalue", .null), ("sname", .string "s")] =
        [("mvalue", .null), ("sname", .string "s")] := by
  have distinct : (statusRow.map (·.1)).Nodup := by decide
  have table : ∃ own ∈ tableColumns, own ∈ statusRow.map (·.1) := by decide
  have shown : ("mvalue", .string "ok") ∈ statusRow.collapse.visible false := by
    have visible_eq : statusRow.collapse.visible false =
        [("mvalue", .string "ok"), ("tname", .string "status")] := by rfl
    rw [visible_eq]
    exact List.mem_cons_self
  obtain ⟨-, gathers, -, clean⟩ := collapse_gathers statusRow distinct false
  obtain ⟨unchanged, -⟩ := collapse_gathers [("mvalue", .null), ("sname", .string "s")] (by decide) false
  refine ⟨⟨distinct, table⟩, (gathers table).2, ⟨shown, ?_⟩, unchanged (by decide)⟩
  exact (clean _ shown).2.2 rfl

end Row

end

end StationGateway
