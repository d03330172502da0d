import StationGateway.Proofs.Recipe.Plan
import StationGateway.Proofs.Tree.Capped
import StationGateway.Proofs.Tree.Lost
import StationGateway.Proofs.Tree.Selected

/-!
# Refused trees

A refused tree is longer than the cap but for what its rows are counted with and do not show. That is
nothing if the rows are plain: their columns are whole attributes, each given once, and none belongs to
an object that is folded into an entry of a map or handed on to an element. The three lists that values
are handed on from have the same attribute, so a measured value is counted three times. -/

namespace StationGateway.Tree

open StationGateway.Order

/-! ## Objects of whole columns -/

section Objects

variable {hidden : List String} {showNull : Bool} {columns : List ListColumn} {name : String}
  {value : Json} {fields : List (String × Json)}

theorem shownBytes_cons (hidden : List String) (field : String × Json) (fields : List (String × Json)) :
    shownBytes hidden (field :: fields) =
      (if field.1 ∈ hidden then 0 else field.1.utf8ByteSize + cellSize field.2) +
        shownBytes hidden fields := by
  rw [shownBytes, shownBytes, List.filter_cons]
  by_cases is_hidden : field.1 ∈ hidden
  · simp [is_hidden]
  · simp [is_hidden]

/-- A new field adds its name and value. -/
theorem shownBytes_put (shown : name ∉ hidden) (new : find? name fields = none) :
    shownBytes hidden (put name value fields) =
      shownBytes hidden fields + (name.utf8ByteSize + cellSize value) := by
  induction fields with
  | nil => rw [put, shownBytes_cons, if_neg shown, shownBytes_nil, Nat.add_comm]
  | cons field rest induction =>
      rw [find?] at new
      split_ifs at new with is_first
      rw [put, if_neg is_first]
      split_ifs with is_before
      · rw [shownBytes_cons, if_neg shown, Nat.add_comm]
      · rw [shownBytes_cons, induction new, shownBytes_cons, Nat.add_assoc]

/-- A field that comes to no less than the one that it takes the place of takes nothing away. -/
theorem shownBytes_le_put
    (lighter : ∀ old, find? name fields = some old → cellSize old ≤ cellSize value) :
    shownBytes hidden fields ≤ shownBytes hidden (put name value fields) := by
  induction fields with
  | nil => exact Nat.zero_le _
  | cons field rest induction =>
      rw [put]
      split_ifs with is_before is_first
      · rw [shownBytes_cons _ (name, value)]
        exact Nat.le_add_left _ _
      · have old_le := lighter field.2 (if_pos is_first)
        rw [shownBytes_cons, shownBytes_cons, is_first]
        split_ifs
        · exact Nat.le_refl _
        · dsimp only
          omega
      · have rest_le := induction fun old found => lighter old ((if_neg is_first).trans found)
        rw [shownBytes_cons, shownBytes_cons]
        exact Nat.add_le_add_left rest_le _

/-- An object of whole columns has their fields only. -/
theorem find?_objectOf_eq_none (whole : ∀ column ∈ columns, column.selector.path = none)
    (row : Row) (absent : ∀ column ∈ columns, column.label ≠ name) :
    find? name (objectOf showNull columns row).fields = none := by
  refine Option.eq_none_iff_forall_not_mem.mpr fun value found => ?_
  obtain ⟨⟨column, member, field_eq⟩, -⟩ := showsColumns_objectOf (List.mem_singleton.mpr rfl)
    (name, value) (mem_of_find? found)
  rw [ListColumn.field, whole column member] at field_eq
  exact absent column member field_eq

/-- The estimated size of an object of whole columns is what its fields come to. -/
theorem size_objectOf (whole : ∀ column ∈ columns, column.selector.path = none)
    (labels : (columns.map (·.label)).Nodup) (shown : ∀ column ∈ columns, column.label ∉ hidden)
    (row : Row) :
    (objectOf showNull columns row).size = shownBytes hidden (objectOf showNull columns row).fields := by
  induction columns using List.reverseRecOn with
  | nil => rfl
  | append_singleton columns column induction =>
      rw [List.forall_mem_append] at whole shown
      rw [List.map_append, List.nodup_append] at labels
      have before := induction whole.1 labels.1 shown.1
      have column_whole := whole.2 column (List.mem_singleton.mpr rfl)
      have new : find? column.label (objectOf showNull columns row).fields = none :=
        find?_objectOf_eq_none whole.1 row fun other member =>
          labels.2.2 other.label (List.mem_map_of_mem member) column.label (List.mem_singleton.mpr rfl)
      rw [objectOf_append]
      split_ifs with left_out
      · exact before
      · rw [Draft.addCell, column_whole]
        dsimp only
        rw [shownBytes_put (shown.2 column (List.mem_singleton.mpr rfl)) new, before]
        omega

end Objects

/-! ## Rows -/

section Shown

variable {hidden : List String} {showNull : Bool} {fields : TargetList → List (String × Json)}
  {leaf : Leaf}

theorem shownOf_append (lists others : List TargetList) :
    shownOf hidden fields (lists ++ others) =
      shownOf hidden fields lists + shownOf hidden fields others := by
  rw [shownOf, shownOf, shownOf, List.map_append, List.sum_append]

theorem shownOf_cons (list : TargetList) (lists : List TargetList) :
    shownOf hidden fields (list :: lists) =
      shownBytes hidden (fields list) + shownOf hidden fields lists := by
  rw [shownOf, List.map_cons, List.sum_cons, ← shownOf]

theorem shownOf_eq_zero {lists : List TargetList} (empty : ∀ list ∈ lists, fields list = []) :
    shownOf hidden fields lists = 0 := by
  refine List.sum_eq_zero fun bytes member => ?_
  obtain ⟨list, is_list, rfl⟩ := List.mem_map.mp member
  rw [empty list is_list, shownBytes_nil]

/-- An element keeps its fields if what it takes is nothing but nulls in other places. -/
theorem shownBytes_le_elementFields (empty : ∀ list ∈ leaf.merges, fields list = [])
    (apart : ∀ list ∈ leaf.merges, find? (targetOf list) (fields leaf.list) = none) :
    shownBytes hidden (fields leaf.list) ≤ shownBytes hidden (elementFields showNull fields leaf) := by
  have kept : ∀ merges : List TargetList, (∀ list ∈ merges, fields list = []) →
      ∀ own, (∀ list ∈ merges, ∀ old, find? (targetOf list) own = some old → old = .null) →
        shownBytes hidden own ≤ shownBytes hidden (merges.foldl (takeField showNull fields) own) := by
    intro merges empty own nulls
    induction merges generalizing own with
    | nil => exact Nat.le_refl _
    | cons list rest induction =>
        rw [List.forall_mem_cons] at empty nulls
        rw [List.foldl_cons, takeField, empty.1]
        change _ ≤ shownBytes hidden (rest.foldl _ (if !showNull then own else put _ Json.null own))
        split_ifs with left_out
        · exact induction empty.2 own nulls.2
        · refine Nat.le_trans (shownBytes_le_put fun old found => ?_) (induction empty.2 _ ?_)
          · exact Nat.le_of_eq (congrArg cellSize (nulls.1 old found))
          · intro other member old found
            rw [find?_put] at found
            split_ifs at found with same
            · exact (Option.some.inj found).symm
            · exact nulls.2 other member old found
  refine kept leaf.merges empty _ fun list member old found => ?_
  rw [apart list member] at found
  cases found

/-- What the lists below an object come to is shown if nothing is handed on. -/
theorem shownOf_levelsBelow_le {leaf : Option Leaf} (inlines : List TargetList) (tiers : List Tier)
    (empty : ∀ found ∈ leaf, ∀ list ∈ found.merges, fields list = [])
    (kept : ∀ found ∈ leaf, shownBytes hidden (fields found.list) ≤
      shownBytes hidden (elementFields showNull fields found)) :
    shownOf hidden fields (levelsBelow leaf inlines tiers).flatten ≤
      shownBelow hidden showNull fields leaf inlines tiers := by
  induction tiers generalizing inlines with
  | nil =>
      rw [levelsBelow, List.flatten_filter_not_isEmpty]
      cases leaf with
      | none =>
          rw [leafLevels, List.flatten_singleton]
          exact Nat.le_refl _
      | some leaf =>
          have leaf_kept := kept leaf rfl
          have merges_eq : shownOf hidden fields leaf.merges = 0 := shownOf_eq_zero (empty leaf rfl)
          rw [leafLevels, List.flatten_cons, List.flatten_singleton, shownOf_append, shownOf_append,
            shownOf_cons, merges_eq, shownBelow]
          omega
  | cons tier rest induction =>
      have rest_le := induction tier.inlines
      rw [levelsBelow, List.flatten_cons, shownOf_append, shownOf_append, shownOf_cons, shownBelow]
      change _ + (_ + 0) + _ ≤ _
      omega

end Shown

/-- What is folded in is folded into an entry of a map. -/
theorem exists_tier_of_mem_inlinesAfter {inlines : List TargetList} {tiers : List Tier} {kept : Nat}
    {list : TargetList} (member : list ∈ inlinesAfter inlines tiers kept) :
    list ∈ inlines ∨ ∃ tier ∈ tiers, list ∈ tier.inlines := by
  induction tiers generalizing inlines kept with
  | nil => exact .inl member
  | cons tier rest induction =>
      cases kept with
      | zero => exact .inl member
      | succ kept =>
          rcases induction member with in_tier | ⟨other, other_in, in_other⟩
          · exact .inr ⟨tier, List.mem_cons_self, in_tier⟩
          · exact .inr ⟨other, List.mem_cons_of_mem tier other_in, in_other⟩

/-! ## Plain rows -/

/-- Whether what the lists of a layout make of rows with the columns of a first one is shown once. -/
structure Layout.IsPlain (layout : Layout) (first : Row) : Prop where
  /-- Each column is given once. -/
  distinct : (first.map (·.1)).Nodup
  /-- Columns are whole attributes. -/
  whole : ∀ list ∈ layout.levels.flatten, ∀ column ∈ columnsOf list first, column.selector.path = none
  /-- No object stands in the place of a column. -/
  uncovered : ∀ list ∈ layout.levels.flatten, ∀ column ∈ columnsOf list first,
    column.label ∉ layout.objectNames
  /-- What is folded into an entry of a map has no columns. -/
  unfolded : ∀ tier ∈ layout.tiers, ∀ list ∈ tier.inlines, columnsOf list first = []
  /-- What is handed on to an element has no columns. -/
  unmerged : ∀ leaf ∈ layout.leaf, ∀ list ∈ leaf.merges, columnsOf list first = []

theorem labels_columnsOf_sublist (list : TargetList) (row : Row) :
    ((columnsOf list row).map (·.label)).Sublist (row.map (·.1)) := by
  induction row with
  | nil => exact List.Sublist.refl _
  | cons cell rest induction =>
      obtain ⟨label, value⟩ := cell
      rw [columnsOf, List.filterMap_cons, ← columnsOf, List.map_cons]
      dsimp only
      split
      next => exact induction.cons label
      next column found =>
        split at found
        next selector spelled =>
          split_ifs at found
          obtain rfl := Option.some.inj found
          exact induction.cons_cons label
        next => cases found

/-- An element has no attribute under which it takes what is handed on to it. -/
theorem merge_targets_checked : ∀ layout ∈ Layout.served, ∀ leaf ∈ layout.leaf, ∀ list ∈ leaf.merges,
    columnsOf leaf.list [(targetOf list, .null)] = [] := by
  decide +kernel

/-- Whether a plan has the columns of a first row for the lists of a layout. -/
def Plan.Reads (plan : Plan) (layout : Layout) (first : Row) : Prop :=
  ∀ list ∈ layout.levels.flatten, find? list.name plan.columns = some (columnsOf list first)

namespace Layout.IsPlain

variable {layout : Layout} {plan : Plan} {first : Row}

/-- An object is sized by what it shows. -/
theorem size_draftOf (plain : layout.IsPlain first) (reads : plan.Reads layout first)
    {list : TargetList} (member : list ∈ layout.levels.flatten) (row : Row) :
    (draftOf plan row list).size = shownBytes layout.objectNames (fieldsOf plan row list) := by
  have labels : ((columnsOf list first).map (·.label)).Nodup :=
    (labels_columnsOf_sublist list first).nodup plain.distinct
  rw [draftOf, fieldsOf, reads list member, Option.getD_some]
  exact size_objectOf (plain.whole list member) labels (plain.uncovered list member) row

theorem fieldsOf_eq_nil (reads : plan.Reads layout first) {list : TargetList}
    (member : list ∈ layout.levels.flatten) (no_columns : columnsOf list first = []) (row : Row) :
    fieldsOf plan row list = [] := by
  rw [fieldsOf, reads list member, Option.getD_some, no_columns]
  rfl

theorem fieldsOf_merges (plain : layout.IsPlain first) (reads : plan.Reads layout first) (row : Row) :
    ∀ leaf ∈ layout.leaf, ∀ list ∈ leaf.merges, fieldsOf plan row list = [] := by
  intro leaf is_leaf list member
  exact fieldsOf_eq_nil reads (Layout.mem_levels_of_leaf is_leaf (.inr (.inl member)))
    (plain.unmerged leaf is_leaf list member) row

theorem fieldsOf_inlines (plain : layout.IsPlain first) (reads : plan.Reads layout first) (row : Row)
    {kept : Nat} : ∀ list ∈ inlinesAfter [] layout.tiers kept, fieldsOf plan row list = [] := by
  intro list member
  rcases exists_tier_of_mem_inlinesAfter member with nowhere | ⟨tier, tier_in, in_tier⟩
  · cases nowhere
  · exact fieldsOf_eq_nil reads (mem_levelsBelow_of_inlines tier_in in_tier)
      (plain.unfolded tier tier_in list in_tier) row

/-- An element has none of the attributes that it takes. -/
theorem find?_targetOf_eq_none (plain : layout.IsPlain first) (reads : plan.Reads layout first)
    (served : layout ∈ Layout.served) (row : Row) : ∀ leaf ∈ layout.leaf, ∀ list ∈ leaf.merges,
      find? (targetOf list) (fieldsOf plan row leaf.list) = none := by
  intro leaf is_leaf list member
  have leaf_in : leaf.list ∈ layout.levels.flatten := Layout.mem_levels_of_leaf is_leaf (.inl rfl)
  rw [fieldsOf, reads leaf.list leaf_in, Option.getD_some]
  refine find?_objectOf_eq_none (plain.whole leaf.list leaf_in) row fun column column_in same => ?_
  have defines := (mem_columnsOf.mp (List.mem_map_of_mem column_in)).2
  have found : column.label ∈ (columnsOf leaf.list [(targetOf list, .null)]).map (·.label) :=
    mem_columnsOf.mpr ⟨List.mem_singleton.mpr same, defines⟩
  rw [merge_targets_checked layout served leaf is_leaf list member] at found
  cases found

/-- A row is counted with no more than what it shows, and replaces nothing. -/
theorem next (plain : layout.IsPlain first) (reads : plan.Reads layout first)
    (served : layout ∈ Layout.served) (ledger : Ledger) (row : Row) :
    (ledger.next layout plan row).counted + ledger.shown ≤
        ledger.counted + (ledger.next layout plan row).shown ∧
      (ledger.next layout plan row).replaced = ledger.replaced := by
  rw [Ledger.next]
  generalize kept_eq : agreement ledger.previous (keysIn layout.columns row) = kept
  have kept_le : kept ≤ layout.tiers.length := by
    have le := agreement_le_right ledger.previous (keysIn layout.columns row)
    rwa [kept_eq, keysIn, List.length_map, Layout.columns, List.length_map] at le
  have levels_eq : layout.levels.drop kept = levelsBelow layout.leaf
      (inlinesAfter [] layout.tiers kept) (layout.tiers.drop kept) := drop_levelsBelow kept_le
  have counted_eq : ((layout.levels.drop kept).flatten.map fun list =>
      (draftOf plan row list).size).sum =
        shownOf layout.objectNames (fieldsOf plan row) (layout.levels.drop kept).flatten := by
    refine congrArg List.sum (List.map_congr_left fun list member => ?_)
    exact plain.size_draftOf reads ((List.drop_sublist kept layout.levels).flatten.subset member) row
  have shown_le : shownOf layout.objectNames (fieldsOf plan row) (layout.levels.drop kept).flatten ≤
      shownBelow layout.objectNames plan.showNull (fieldsOf plan row) layout.leaf
        (inlinesAfter [] layout.tiers kept) (layout.tiers.drop kept) := by
    rw [levels_eq]
    refine shownOf_levelsBelow_le _ _ (plain.fieldsOf_merges reads row) fun leaf is_leaf => ?_
    exact shownBytes_le_elementFields (plain.fieldsOf_merges reads row leaf is_leaf)
      (plain.find?_targetOf_eq_none reads served row leaf is_leaf)
  have nothing_replaced : shownOf layout.objectNames (fieldsOf plan (ledger.makers kept))
      (inlinesAfter [] layout.tiers kept) = 0 :=
    shownOf_eq_zero (plain.fieldsOf_inlines reads (ledger.makers kept))
  dsimp only
  rw [counted_eq, nothing_replaced]
  omega

/-- Plain rows are counted with no more than what they show. -/
theorem ledger (plain : layout.IsPlain first) (reads : plan.Reads layout first)
    (served : layout ∈ Layout.served) (rows : List Row) :
    (rows.foldl (Ledger.next layout plan) .start).counted ≤
        (rows.foldl (Ledger.next layout plan) .start).shown ∧
      (rows.foldl (Ledger.next layout plan) .start).replaced = 0 := by
  induction rows using List.reverseRecOn with
  | nil => exact ⟨Nat.le_refl 0, rfl⟩
  | append_singleton rows row induction =>
      obtain ⟨counted_le, replaced_eq⟩ := induction
      obtain ⟨next_le, next_eq⟩ := plain.next reads served
        (rows.foldl (Ledger.next layout plan) .start) row
      rw [List.foldl_append, List.foldl_cons, List.foldl_nil]
      exact ⟨by omega, next_eq.trans replaced_eq⟩

/-- Plain rows show all that they are counted with. -/
theorem unshown_eq_zero {rows : List Row} (plain : layout.IsPlain (rows.headD []))
    (served : layout ∈ Layout.served) (showNull : Bool) : layout.unshown showNull rows = 0 := by
  have reads : { layout.plan 0 (rows.headD []) with showNull }.Reads layout (rows.headD []) :=
    fun list member => @Layout.find?_columns layout 0 _ (Layout.fits_of_served served) list member
  obtain ⟨counted_le, replaced_eq⟩ := plain.ledger reads served rows
  rw [Layout.unshown, Layout.ledger]
  omega

end Layout.IsPlain

/-! ## Long texts -/

/-- A row with a text of some length in a column. -/
def textRow (label : String) (length : Nat) : Row :=
  [("_stationtype", .string "A"), ("_stationcode", .string "x"), ("_datatypename", .string "d"),
    (label, .string (String.ofList (List.replicate length 'x')))]

section TextRow

variable {label : String} {length cap : Nat}

theorem keyed_textRow : ∀ row ∈ [textRow label length], IsKeyed Layout.measurements.columns row := by
  intro row member column is_column
  obtain rfl := List.mem_singleton.mp member
  have columns_eq : Layout.measurements.columns =
      ["_stationtype", "_stationcode", "_datatypename"] := by decide
  rw [columns_eq] at is_column
  simp only [List.mem_cons, List.not_mem_nil, or_false] at is_column
  rcases is_column with rfl | rfl | rfl
  · exact ⟨"A", rfl⟩
  · exact ⟨"x", rfl⟩
  · exact ⟨"d", rfl⟩

theorem contiguous_textRow : ∀ depth ≤ Layout.measurements.columns.length,
    Contiguous ([textRow label length].map fun row =>
      (keysIn Layout.measurements.columns row).take depth) := by
  intro depth _ last lt between between_lt
  rw [List.map_singleton, List.length_singleton] at lt
  omega

theorem utf8ByteSize_replicate (length : Nat) :
    (String.ofList (List.replicate length 'x')).utf8ByteSize = length := by
  rw [String.utf8ByteSize_ofList]
  induction length with
  | zero => rfl
  | succ length induction =>
      rw [List.replicate_succ, String.utf8Len, induction]
      rfl

theorem size_textRow (apart : label ∉ ["_stationtype", "_stationcode", "_datatypename"]) :
    (objectOf false [⟨label, .whole label⟩] (textRow label length)).size =
      length + label.utf8ByteSize := by
  simp only [List.mem_cons, List.not_mem_nil, or_false, not_or] at apart
  obtain ⟨type_ne, code_ne, name_ne⟩ := apart
  have found : Json.member? label (textRow label length) =
      some (.string (String.ofList (List.replicate length 'x'))) := by
    simp [textRow, Json.member?, Ne.symm type_ne, Ne.symm code_ne, Ne.symm name_ne]
  rw [objectOf, List.foldl_cons, List.foldl_nil, found]
  change 0 + cellSize (.string _) + label.utf8ByteSize = _
  rw [cellSize, utf8ByteSize_replicate, Nat.zero_add]

/-- The columns are the same however long the text is. -/
theorem columnsOf_textRow (label : String) (length : Nat) (list : TargetList) :
    columnsOf list (textRow label length) = columnsOf list (textRow label 0) :=
  columnsOf_congr rfl list

/-- A text is counted once for each list that has a column for it. -/
theorem counted_textRow {columns : List (List ListColumn)}
    (columns_eq : Layout.measurements.levels.flatten.map (columnsOf · (textRow label 0)) = columns) :
    (Layout.measurements.ledger false [textRow label length]).counted =
      (columns.map fun own => (objectOf false own (textRow label length)).size).sum := by
  have is_served : Layout.measurements ∈ Layout.served := by
    simp [Layout.served]
  rw [counted_singleton (Layout.fits_of_served is_served), ← columns_eq, List.map_map]
  simp only [columnsOf_textRow label length]
  rfl

theorem counted_name :
    (Layout.measurements.ledger false [textRow "sname" length]).counted = length + 5 := by
  have columns_eq : Layout.measurements.levels.flatten.map (columnsOf · (textRow "sname" 0)) =
      [[], [⟨"sname", .whole "sname"⟩], [], [], [], [], [], [], []] := by
    rfl
  have text_size := @size_textRow "sname" length (by decide)
  have no_size : (objectOf false [] (textRow "sname" length)).size = 0 := rfl
  have label_size : "sname".utf8ByteSize = 5 := rfl
  rw [counted_textRow columns_eq]
  simp only [List.map_cons, List.map_nil, text_size, no_size, label_size, List.sum_cons, List.sum_nil]
  omega

theorem plain_name : Layout.measurements.IsPlain (textRow "sname" length) := by
  refine ⟨?_, ?_, ?_, ?_, ?_⟩
  · change ["_stationtype", "_stationcode", "_datatypename", "sname"].Nodup
    decide
  all_goals simp only [columnsOf_textRow "sname" length]
  all_goals decide +kernel

end TextRow

/-! ## Refused trees -/

/-- A refused tree is longer than the cap, but for what the rows are counted with and do not show. That
is nothing if they are plain. -/
theorem cap_lt_bytes_of_refused {layout : Layout} {rows : List Row} {showNull : Bool} {cap : Nat}
    (served : layout ∈ Layout.served) (keyed : ∀ row ∈ rows, IsKeyed layout.columns row)
    (contiguous : ∀ depth ≤ layout.columns.length,
      Contiguous (rows.map fun row => (keysIn layout.columns row).take depth))
    (positive : 0 < cap) (bounded : cap ≤ 1000000)
    (refused : ofRows Mobility.catalogue layout.entry layout.exits showNull cap rows =
      .error (.responseTooLarge cap)) :
    ∃ tree, ofRows Mobility.catalogue layout.entry layout.exits showNull 0 rows = .ok tree ∧
      cap * megabyte < tree.bytes + layout.unshown showNull rows ∧
        (layout.IsPlain (rows.headD []) → cap * megabyte < tree.bytes) := by
  obtain ⟨tree, built, shown_le, capped⟩ := ofRows_capped served keyed contiguous showNull positive
    bounded
  rw [refused] at capped
  have longer : cap * megabyte < tree.bytes + layout.unshown showNull rows := by
    split_ifs at capped with exceeds
    rw [Layout.unshown]
    omega
  refine ⟨tree, built, longer, fun plain => ?_⟩
  rwa [plain.unshown_eq_zero served showNull, Nat.add_zero] at longer

theorem cap_lt_bytes_of_refused_name :
    Layout.measurements ∈ Layout.served ∧ Layout.measurements.IsPlain (textRow "sname" 1000000) ∧
      ofRows Mobility.catalogue Layout.measurements.entry Layout.measurements.exits false 1
          [textRow "sname" 1000000] = .error (.responseTooLarge 1) ∧
      ∃ tree, ofRows Mobility.catalogue Layout.measurements.entry Layout.measurements.exits false 0
          [textRow "sname" 1000000] = .ok tree ∧ 1 * megabyte < tree.bytes := by
  have is_served : Layout.measurements ∈ Layout.served := by
    simp [Layout.served]
  obtain ⟨tree, -, -, capped⟩ := ofRows_capped is_served (@keyed_textRow "sname" 1000000)
    contiguous_textRow false Nat.one_pos (Nat.le_of_ble_eq_true rfl)
  have exceeds : (Layout.measurements.ledger false [textRow "sname" 1000000]).counted >
      1 * megabyte := by
    rw [counted_name, megabyte]
    decide
  rw [if_pos exceeds] at capped
  obtain ⟨tree, built, -, longer⟩ := cap_lt_bytes_of_refused is_served keyed_textRow contiguous_textRow
    Nat.one_pos (Nat.le_of_ble_eq_true rfl) capped
  exact ⟨is_served, plain_name, capped, tree, built, longer plain_name⟩

end StationGateway.Tree
