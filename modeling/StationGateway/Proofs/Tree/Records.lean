import StationGateway.Proofs.Tree.Nested
import StationGateway.Proofs.Tree.Reference

/-!
# Rows with nothing to show

A row has no element if all its cells in the columns of the element's lists are null. Of a list from
which elements take one field, only the cells of that field count. -/

namespace StationGateway.Tree

open StationGateway.Order Text

/-! ## Cells that are there -/

/-- The cell of a row in a column. -/
def cellIn (column : ListColumn) (row : Row) : Json :=
  (Json.member? column.label row).getD .null

/-- The cells of a row in the columns that the first row has of a list, as one object. -/
def cellsLike (first : Row) (list : TargetList) (row : Row) : List (String × Json) :=
  (objectOf false (columnsOf list first) row).fields

/-- Whether a row has something to show in an element, given a row with the same columns. -/
def Leaf.ShownBy (leaf : Leaf) (first row : Row) : Prop :=
  (∃ list ∈ leaf.list :: leaf.inlines, ∃ column ∈ columnsOf list first,
      (cellIn column row).isNull = false) ∨
    ∃ list ∈ leaf.merges, ∃ column ∈ columnsOf list first,
      column.place.head? = some (targetOf list) ∧ (cellIn column row).isNull = false

section Fields

variable {columns : List ListColumn} {row : Row} {name : String}

theorem isNull_nest (value : Json) (path : List String) (root : Json) :
    (nest value path root).isNull = root.isNull := by
  match path, root with
  | [_], .object _ => rfl
  | _ :: _ :: _, .object _ => rfl
  | [], _ => rfl
  | _ :: _, .null | _ :: _, .bool _ | _ :: _, .number _ | _ :: _, .string _ | _ :: _, .array _ =>
      simp [nest]

/-- A cell is set under the first name of its place. -/
theorem exists_fields_addCell (column : ListColumn) (cell : Json) (draft : Draft) :
    ∃ head value, column.place.head? = some head ∧
      (draft.addCell column cell).fields = put head value draft.fields ∧
      (cell.isNull = false → (∀ old, find? head draft.fields = some old → old.isNull = false) →
        value.isNull = false) := by
  rw [Draft.addCell, ListColumn.place]
  cases column.selector.path with
  | none => exact ⟨column.label, cell, rfl, rfl, fun not_null _ => not_null⟩
  | some path =>
      refine ⟨column.selector.name, _, rfl, rfl, fun _ old_not_null => ?_⟩
      rw [isNull_nest]
      cases found : find? column.selector.name draft.fields with
      | none => rfl
      | some old => exact old_not_null old found

/-- An object has a field for every name under which a cell is not null, and no other. -/
theorem find?_fields_objectOf (columns : List ListColumn) (row : Row) (name : String) :
    (∀ value, find? name (objectOf false columns row).fields = some value → value.isNull = false) ∧
      ((find? name (objectOf false columns row).fields).isSome ↔ ∃ column ∈ columns,
        column.place.head? = some name ∧ (cellIn column row).isNull = false) := by
  induction columns using List.reverseRecOn with
  | nil =>
      refine ⟨fun value found => ?_, ?_⟩
      · cases found
      · simp [objectOf, find?]
  | append_singleton columns column induction =>
      obtain ⟨not_null, isSome_iff⟩ := induction
      rw [objectOf_append, Bool.not_false, Bool.and_true, ← cellIn]
      by_cases is_null : (cellIn column row).isNull = true
      · rw [if_pos is_null]
        refine ⟨not_null, isSome_iff.trans ?_⟩
        simp [is_null, or_and_right, exists_or]
      · have cell_not_null : (cellIn column row).isNull = false := Bool.eq_false_iff.mpr is_null
        obtain ⟨head, value, head_eq, fields_eq, value_not_null⟩ :=
          exists_fields_addCell column (cellIn column row) (objectOf false columns row)
        rw [if_neg is_null, fields_eq, find?_put]
        by_cases is_head : name = head
        · subst is_head
          rw [if_pos rfl]
          refine ⟨?_, fun _ => ⟨column, List.mem_append_right _ List.mem_cons_self, head_eq,
            cell_not_null⟩, fun _ => rfl⟩
          rintro _ ⟨⟩
          exact value_not_null cell_not_null not_null
        · rw [if_neg is_head]
          refine ⟨not_null, isSome_iff.trans ?_⟩
          simp [head_eq, Ne.symm is_head, or_and_right, exists_or]

theorem find?_objectOf_isNull_iff :
    ((find? name (objectOf false columns row).fields).getD .null).isNull = true ↔
      ¬∃ column ∈ columns, column.place.head? = some name ∧ (cellIn column row).isNull = false := by
  obtain ⟨not_null, isSome_iff⟩ := find?_fields_objectOf columns row name
  rw [← isSome_iff]
  cases found : find? name (objectOf false columns row).fields with
  | none => simp [Json.isNull]
  | some value => simp [not_null value found]

theorem exists_head (column : ListColumn) : ∃ head, column.place.head? = some head := by
  rw [ListColumn.place]
  cases column.selector.path with
  | none => exact ⟨_, rfl⟩
  | some path => exact ⟨_, rfl⟩

theorem fields_objectOf_eq_nil_iff :
    (objectOf false columns row).fields = [] ↔
      ¬∃ column ∈ columns, (cellIn column row).isNull = false := by
  have isSome_iff := fun name => (find?_fields_objectOf columns row name).2
  constructor
  · rintro nothing ⟨column, member, not_null⟩
    obtain ⟨head, head_eq⟩ := exists_head column
    have present := (isSome_iff head).mpr ⟨column, member, head_eq, not_null⟩
    rw [nothing] at present
    cases present
  · intro absent
    rw [List.eq_nil_iff_forall_not_mem]
    rintro ⟨name, value⟩ member
    have present : (find? name (objectOf false columns row).fields).isSome :=
      find?_isSome_iff.mpr (List.mem_map_of_mem member)
    obtain ⟨column, in_columns, -, not_null⟩ := (isSome_iff name).mp present
    exact absent ⟨column, in_columns, not_null⟩

end Fields

/-! ## Records -/

section Records

variable {cells : TargetList → Row → List (String × Json)} {leaf : Leaf} {first row : Row}

theorem putAll_eq_nil_iff {β : Type} {map entries : List (String × β)} :
    putAll map entries = [] ↔ map = [] ∧ entries = [] := by
  have put_ne : ∀ (key : String) (value : β) (map : List (String × β)), put key value map ≠ [] := by
    intro key value map nothing
    have found := find?_put key key value map
    rw [nothing, if_pos rfl] at found
    cases found
  induction entries generalizing map with
  | nil => exact (and_iff_left rfl).symm
  | cons entry rest induction =>
      rw [putAll, List.foldl_cons, ← putAll]
      refine induction.trans ?_
      simp [put_ne]

theorem record_eq_none_iff :
    record cells leaf row = none ↔ cells leaf.list row = [] ∧
      (∀ list ∈ leaf.merges, ((find? (targetOf list) (cells list row)).getD .null).isNull = true) ∧
      ∀ list ∈ leaf.inlines, cells list row = [] := by
  have merged_iff : mergedMembers cells leaf.merges row = [] ↔ ∀ list ∈ leaf.merges,
      ((find? (targetOf list) (cells list row)).getD .null).isNull = true := by
    simp [mergedMembers, List.filterMap_eq_nil_iff]
  have folded_iff : foldedMembers cells leaf.inlines row = [] ↔ ∀ list ∈ leaf.inlines,
      cells list row = [] := by
    simp [foldedMembers, List.filterMap_eq_nil_iff]
  rw [← merged_iff, ← folded_iff, ← and_assoc, ← putAll_eq_nil_iff, record]
  simp [List.isEmpty_iff]

/-- A row has an element if it has something to show in it. -/
theorem record_eq_none_iff_not_shownBy :
    record (cellsLike first) leaf row = none ↔ ¬leaf.ShownBy first row := by
  rw [record_eq_none_iff, Leaf.ShownBy, not_or]
  simp only [cellsLike, fields_objectOf_eq_nil_iff, find?_objectOf_isNull_iff]
  simp only [List.exists_mem_cons_iff, not_or, not_exists, not_and]
  tauto

end Records

end StationGateway.Tree
