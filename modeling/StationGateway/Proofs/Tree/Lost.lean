import Mathlib
import StationGateway.Proofs.Tree.Bearing
import StationGateway.Proofs.Tree.Records
import StationGateway.Proofs.Tree.Shown

/-!
# Rows that are lost

The elements of a tree are those of the rows that are filed, each at the end of its keys, in the order
of the rows. A row that is not filed leaves no trace, so nothing is missing from a tree if and only if
such rows have nothing to show. -/

namespace StationGateway.Tree

open StationGateway.Order

/-- The rows that are not filed. -/
def lostRows {α : Type} (keysOf : α → List String) : Filing → List α → List α
  | _, [] => []
  | filing, row :: rest =>
      if filing.files (keysOf row) then lostRows keysOf (filing.next (keysOf row)) rest
      else row :: lostRows keysOf (filing.next (keysOf row)) rest

/-- Every row is either filed or lost. -/
theorem perm_filedRows_append_lostRows {α : Type} (keysOf : α → List String) (filing : Filing)
    (rows : List α) : rows.Perm (filedRows keysOf filing rows ++ lostRows keysOf filing rows) := by
  induction rows generalizing filing with
  | nil => exact List.Perm.refl []
  | cons row rest induction =>
      have rest_perm := induction (filing.next (keysOf row))
      rw [filedRows, lostRows]
      split_ifs with files
      · exact rest_perm.cons row
      · exact (rest_perm.cons row).trans List.perm_middle.symm

section Elements

variable {layout : Layout} {leaf : Leaf} {sizeLimit : Int} {first row : Row}

/-- The elements of the rows with some keys, in the order of the rows. -/
def recordsAt (layout : Layout) (leaf : Leaf) (first : Row) (keys : List String) (rows : List Row) :
    List Json :=
  (rows.filter fun row => keysIn layout.columns row = keys).filterMap (record (cellsLike first) leaf)

/-- Whether no column of the innermost entries has the name under which their elements stand. -/
def Layout.LeavesRoom (layout : Layout) (leaf : Leaf) (first : Row) : Prop :=
  ∀ tier ∈ layout.tiers.getLast?, ∀ column ∈ columnsOf tier.list first,
    column.place.head? ≠ some (targetOf leaf.list)

theorem recordsAt_concat (keys : List String) (rows : List Row) (row : Row) :
    recordsAt layout leaf first keys (rows ++ [row]) = recordsAt layout leaf first keys rows ++
      if keys = keysIn layout.columns row then (record (cellsLike first) leaf row).toList else [] := by
  rw [recordsAt, List.filter_append, List.filterMap_append, ← recordsAt]
  by_cases same : keys = keysIn layout.columns row
  · subst same
    rw [if_pos rfl, List.filter_cons_of_pos (by simp), List.filter_nil]
    cases found : record (cellsLike first) leaf row with
    | none => simp [found]
    | some element => simp [found]
  · rw [if_neg same, List.filter_cons_of_neg (by simpa using Ne.symm same), List.filter_nil,
      List.filterMap_nil]

/-- The leaf of a layout fits below its innermost entries. -/
theorem FitsBelow.leaf_fits {parent : Option String} {inlines : List TargetList} {tiers : List Tier}
    (fits : FitsBelow (some leaf) parent inlines tiers) : ∃ owner beside, leaf.Fits owner beside := by
  induction tiers generalizing parent inlines with
  | nil => exact ⟨parent, inlines, fits.2 leaf rfl⟩
  | cons tier rest induction => exact induction fits.2.2

/-- The lists of a leaf belong to those of the layout. -/
theorem Layout.mem_levels_of_leaf (is_leaf : layout.leaf = some leaf) {list : TargetList}
    (member : list = leaf.list ∨ list ∈ leaf.merges ∨ list ∈ leaf.inlines) :
    list ∈ layout.levels.flatten := by
  rw [Layout.levels, is_leaf]
  generalize ([] : List TargetList) = inlines
  induction layout.tiers generalizing inlines with
  | nil => exact mem_levelsBelow_nil.mpr (.inr ⟨leaf, rfl, member⟩)
  | cons tier rest induction => exact mem_levelsBelow_cons.mpr (.inr (.inr (induction tier.inlines)))

/-- What a row shows in an element depends on the columns of the first row. -/
theorem record_plan (fits : layout.Fits) (is_leaf : layout.leaf = some leaf) (row : Row) :
    record (fun list row => fieldsOf (layout.plan sizeLimit first) row list) leaf row =
      record (cellsLike first) leaf row := by
  have of_leaf : ∀ list, list = leaf.list ∨ list ∈ leaf.merges ∨ list ∈ leaf.inlines →
      fieldsOf (layout.plan sizeLimit first) row list = cellsLike first list row :=
    fun list member => fieldsOf_plan fits (Layout.mem_levels_of_leaf is_leaf member) row
  exact record_congr (of_leaf _ (.inl rfl)) (fun list merged => of_leaf list (.inr (.inl merged)))
    fun list folded => of_leaf list (.inr (.inr folded))

/-! ## One more row -/

/-- A tree whose elements are those of some rows. -/
structure Stocked (layout : Layout) (leaf : Leaf) (first : Row) (taken : List Row) (filing : Filing)
    (growth : Growth) (main : Plant) : Prop where
  /-- It stands at the root. -/
  tended : Tended layout filing growth main
  /-- It has the elements of the rows. -/
  elements : ∀ keys, keys.length = layout.tiers.length →
    (main.elementsAt layout.tiers keys (targetOf leaf.list)).map Plant.json =
      recordsAt layout leaf first keys taken
  /-- No field stands in for a list of elements. -/
  spares : main.Spares (targetOf leaf.list) layout.tiers

theorem stocked_start (layout : Layout) (leaf : Leaf) (first : Row) :
    Stocked layout leaf first [] .start .start (.node Forest.root [] []) where
  tended := tended_start layout
  elements keys _ := by
    rw [Plant.elementsAt]
    cases keys with
    | nil => rw [Plant.at?_nil]; rfl
    | cons key keys => rw [Plant.at?_of_no_limbs rfl]; rfl
  spares path entry _ found := by
    cases path with
    | nil =>
        obtain rfl := Plant.eq_of_at?_nil found
        rfl
    | cons key path =>
        rw [Plant.at?_of_no_limbs rfl] at found
        cases found

variable {taken : List Row} {filing : Filing} {growth : Growth} {main : Plant}

/-- A filed row adds its element at the end of its keys. -/
theorem Stocked.addRow_filed (stocked : Stocked layout leaf first taken filing growth main)
    (fits : layout.Fits) (is_leaf : layout.leaf = some leaf) (room : layout.LeavesRoom leaf first)
    (unlimited : sizeLimit ≤ 0) (keyed : IsKeyed layout.columns row)
    (files : filing.files (keysIn layout.columns row) = true) :
    ∃ later grown, growth.addRow (layout.plan sizeLimit first) row = .ok later ∧
      Stocked layout leaf first (taken ++ [row]) (filing.next (keysIn layout.columns row)) later
        grown := by
  obtain ⟨later, seed, added, fields, no_limbs, extended, tended⟩ :=
    stocked.tended.addRow_filed fits (layout.follows unlimited first) (keysOf_eq keyed) files
  obtain ⟨owner, beside, leaf_fits⟩ := (is_leaf ▸ fits.below).leaf_fits
  have shows : Shows seed (fun list row => fieldsOf (layout.plan sizeLimit first) row list) row :=
    ⟨fields, no_limbs⟩
  have new_json := json_newElements shows leaf_fits
  rw [record_plan fits is_leaf] at new_json
  refine ⟨later, _, added, tended, fun keys length_eq => ?_,
    extended.spares _ (fun tier is_last => ?_) stocked.spares⟩
  · rw [extended.elements leaf is_leaf keys length_eq, List.map_append, stocked.elements keys length_eq,
      recordsAt_concat, ← new_json]
    split_ifs with same
    · rfl
    · rfl
  · have tier_in : tier.list ∈ layout.levels.flatten := by
      obtain ⟨front, tiers_eq⟩ := List.getLast?_eq_some_iff.mp is_last
      have found : layout.tiers[front.length]? = some tier := by simp [tiers_eq]
      exact List.mem_flatten.mpr
        ((List.mem_flatten.mp (Layout.list_mem_drop found (Nat.zero_le _))).imp fun level member =>
          ⟨List.mem_of_mem_drop member.1, member.2⟩)
    rw [fields, fieldsOf_plan fits tier_in, ← Option.isNone_iff_eq_none, ← Option.not_isSome,
      Bool.not_eq_true', Bool.eq_false_iff]
    intro present
    obtain ⟨column, member, head_eq, -⟩ := (find?_fields_objectOf _ row _).2.mp present
    exact room tier is_last column member head_eq

/-- A lost row changes nothing in the tree. -/
theorem Stocked.addRow_lost (stocked : Stocked layout leaf first taken filing growth main)
    (fits : layout.Fits) (unlimited : sizeLimit ≤ 0) (keyed : IsKeyed layout.columns row)
    (lost : filing.files (keysIn layout.columns row) = false) :
    ∃ later, growth.addRow (layout.plan sizeLimit first) row = .ok later ∧
      Stocked layout leaf first taken (filing.next (keysIn layout.columns row)) later main := by
  obtain ⟨later, added, tended⟩ :=
    stocked.tended.addRow_lost fits (layout.follows unlimited first) (keysOf_eq keyed) lost
  exact ⟨later, added, tended, stocked.elements, stocked.spares⟩

/-! ## All rows -/

/-- Any rows with keys grow into a tree with the elements of those that are filed. -/
theorem exists_stocked (fits : layout.Fits) (is_leaf : layout.leaf = some leaf)
    (room : layout.LeavesRoom leaf first) (unlimited : sizeLimit ≤ 0) {rest : List Row}
    (keyed : ∀ row ∈ rest, IsKeyed layout.columns row)
    (stocked : Stocked layout leaf first taken filing growth main) :
    ∃ all_filing later grown,
      rest.foldlM (Growth.addRow (layout.plan sizeLimit first)) growth = .ok later ∧
        Stocked layout leaf first (taken ++ filedRows (keysIn layout.columns) filing rest) all_filing
          later grown := by
  induction rest generalizing taken filing growth main with
  | nil =>
      rw [filedRows, List.append_nil]
      exact ⟨filing, growth, main, rfl, stocked⟩
  | cons row rest induction =>
      have row_keyed := keyed row List.mem_cons_self
      have rest_keyed := fun other member => keyed other (List.mem_cons_of_mem row member)
      rw [filedRows]
      split_ifs with files
      · obtain ⟨middle, middle_main, added, middle_stocked⟩ :=
          stocked.addRow_filed fits is_leaf room unlimited row_keyed files
        obtain ⟨all_filing, later, grown, run, all_stocked⟩ := induction rest_keyed middle_stocked
        rw [List.append_assoc] at all_stocked
        refine ⟨all_filing, later, grown, ?_, all_stocked⟩
        rw [List.foldlM_cons, added]
        exact run
      · obtain ⟨middle, added, middle_stocked⟩ :=
          stocked.addRow_lost fits unlimited row_keyed (Bool.eq_false_iff.mpr files)
        obtain ⟨all_filing, later, grown, run, all_stocked⟩ := induction rest_keyed middle_stocked
        refine ⟨all_filing, later, grown, ?_, all_stocked⟩
        rw [List.foldlM_cons, added]
        exact run

/-- The lists of a tree are those of the rows that are filed. -/
theorem listAt_ofRows (served : layout ∈ Layout.served) (is_leaf : layout.leaf = some leaf)
    (named : ∀ tier ∈ layout.tiers.tail, tier.target.isSome) (unlimited : sizeLimit ≤ 0)
    {rows : List Row} (room : ∀ first ∈ rows.head?, layout.LeavesRoom leaf first)
    (keyed : ∀ row ∈ rows, IsKeyed layout.columns row) :
    ∃ tree, ofRows Mobility.catalogue layout.entry layout.exits false sizeLimit rows = .ok tree ∧
      ∀ keys, keys.length = layout.tiers.length → ∀ first ∈ rows.head?,
        listAt (namesTo layout.tiers keys ++ [targetOf leaf.list]) tree =
          recordsAt layout leaf first keys (filedRows (keysIn layout.columns) .start rows) := by
  cases rows with
  | nil => exact ⟨.object [], rfl, fun _ _ first is_first => by cases is_first⟩
  | cons first rest =>
      have fits := Layout.fits_of_served served
      obtain ⟨filing, growth, main, run, stocked⟩ := exists_stocked fits is_leaf
        (room first rfl) unlimited keyed (stocked_start layout leaf first)
      have render_eq : growth.forest.render = main.json :=
        Forest.render_of_has stocked.tended.has stocked.tended.single stocked.tended.at_root
      refine ⟨main.json, render_eq ▸ ofRows_eq served run, fun keys length_eq other is_first => ?_⟩
      obtain rfl := Option.some.inj is_first
      rw [Plant.listAt_namesTo (stocked.tended.has.tidy stocked.tended.sound.tidy)
        (is_leaf ▸ stocked.tended.shaped) (stocked.tended.leads named) length_eq (.inr stocked.spares),
        stocked.elements keys length_eq]
      rfl

/-! ## What is missing -/

/-- The elements of all rows are there if and only if no lost row has one. -/
theorem perm_recordsAt_iff (layout : Layout) (leaf : Leaf) (first : Row) (rows : List Row) :
    (∀ keys, keys.length = layout.tiers.length →
        (recordsAt layout leaf first keys (filedRows (keysIn layout.columns) .start rows)).Perm
          (recordsAt layout leaf first keys rows)) ↔
      ∀ row ∈ lostRows (keysIn layout.columns) .start rows, ¬leaf.ShownBy first row := by
  have split_perm : ∀ keys, (recordsAt layout leaf first keys rows).Perm
      (recordsAt layout leaf first keys (filedRows (keysIn layout.columns) .start rows) ++
        recordsAt layout leaf first keys (lostRows (keysIn layout.columns) .start rows)) := by
    intro keys
    have rows_perm := perm_filedRows_append_lostRows (keysIn layout.columns) .start rows
    rw [recordsAt, recordsAt, recordsAt, ← List.filterMap_append, ← List.filter_append]
    exact (rows_perm.filter _).filterMap _
  constructor
  · intro complete row lost
    have length_eq : (keysIn layout.columns row).length = layout.tiers.length := by
      rw [keysIn, List.length_map, Layout.columns, List.length_map]
    have same_length := ((complete _ length_eq).trans (split_perm (keysIn layout.columns row))).length_eq
    have nothing : recordsAt layout leaf first (keysIn layout.columns row)
        (lostRows (keysIn layout.columns) .start rows) = [] := by
      rw [List.length_append] at same_length
      exact List.eq_nil_of_length_eq_zero (by omega)
    refine record_eq_none_iff_not_shownBy.mp (List.filterMap_eq_nil_iff.mp nothing row ?_)
    exact List.mem_filter.mpr ⟨lost, by simp⟩
  · intro bare keys _
    have nothing : recordsAt layout leaf first keys
        (lostRows (keysIn layout.columns) .start rows) = [] :=
      List.filterMap_eq_nil_iff.mpr fun row member =>
        record_eq_none_iff_not_shownBy.mpr (bare row (List.mem_of_mem_filter member))
    have perm := split_perm keys
    rw [nothing, List.append_nil] at perm
    exact perm.symm

end Elements

/-! ## Measurements -/

/-- What stands in the list of the measurements of a data type. -/
def Leaf.measurements : Leaf where
  list := Mobility.measurement
  merges := [Mobility.measurementDouble, Mobility.measurementString, Mobility.measurementJson]
  inlines := [Mobility.provenance]

/-- The measurements that a tree shows of a data type at a station. -/
def measurementsAt (tree : Json) (type station datatype : String) : List Json :=
  listAt [type, "stations", station, "sdatatypes", datatype, "tmeasurements"] tree

/-- The measurements of a tree are those of the rows that are filed, in their order. So every row with
something to show has its measurement there if and only if no lost row has anything to show. -/
theorem measurementsAt_ofRows {first : Row} {rest : List Row} {sizeLimit : Int}
    (unlimited : sizeLimit ≤ 0)
    (keyed : ∀ row ∈ first :: rest, IsKeyed ["_stationtype", "_stationcode", "_datatypename"] row)
    (room : ∀ column ∈ columnsOf Mobility.datatype first,
      column.place.head? ≠ some "tmeasurements") :
    ∃ tree, ofRows Mobility.catalogue "stationtype" [⟨"metadatahistory", false⟩] false sizeLimit
        (first :: rest) = .ok tree ∧
      (∀ type station datatype, measurementsAt tree type station datatype =
        recordsAt .measurements .measurements first [type, station, datatype]
          (filedRows (keysIn Layout.measurements.columns) .start (first :: rest))) ∧
      ((∀ type station datatype, (measurementsAt tree type station datatype).Perm
          (recordsAt .measurements .measurements first [type, station, datatype] (first :: rest))) ↔
        ∀ row ∈ lostRows (keysIn Layout.measurements.columns) .start (first :: rest),
          ¬Leaf.measurements.ShownBy first row) := by
  have is_served : Layout.measurements ∈ Layout.served := by simp [Layout.served]
  have leaves_room : ∀ row ∈ (first :: rest).head?,
      Layout.measurements.LeavesRoom .measurements row := by
    intro row is_first tier is_last
    obtain rfl := Option.some.inj is_first
    obtain rfl := Option.some.inj is_last
    exact room
  obtain ⟨tree, tree_eq, lists⟩ := listAt_ofRows is_served rfl (by decide) unlimited leaves_room keyed
  have shown : ∀ type station datatype, measurementsAt tree type station datatype =
      recordsAt .measurements .measurements first [type, station, datatype]
        (filedRows (keysIn Layout.measurements.columns) .start (first :: rest)) :=
    fun type station datatype => lists [type, station, datatype] rfl first rfl
  refine ⟨tree, tree_eq, shown, ?_⟩
  rw [← perm_recordsAt_iff]
  constructor
  · intro complete keys length_eq
    obtain ⟨type, station, datatype, rfl⟩ := List.length_eq_three.mp length_eq
    exact shown type station datatype ▸ complete type station datatype
  · intro complete type station datatype
    exact shown type station datatype ▸ complete [type, station, datatype] rfl

/-- A row with one measurement. -/
def measuredRow (type station datatype : String) (value : Int) : Row :=
  [("_stationtype", .string type), ("_stationcode", .string station),
    ("_datatypename", .string datatype), ("mvalue", .int value)]

/-- A type of stations that comes back after another one, and then a data type of its own. -/
def returningRows : List Row :=
  [ measuredRow "A" "x" "d" 1, measuredRow "B" "x" "d" 2, measuredRow "A" "x" "d" 3
  , measuredRow "A" "x" "e" 4 ]

/-- The last measurement goes missing. -/
theorem measurementsAt_ofRows_returning :
    ∃ tree, ofRows Mobility.catalogue "stationtype" [⟨"metadatahistory", false⟩] false 0
        returningRows = .ok tree ∧
      measurementsAt tree "A" "x" "d" = [.object [("mvalue", .int 1)], .object [("mvalue", .int 3)]] ∧
      measurementsAt tree "A" "x" "e" = [] ∧
      ¬∀ type station datatype, (measurementsAt tree type station datatype).Perm
        (recordsAt .measurements .measurements (measuredRow "A" "x" "d" 1)
          [type, station, datatype] returningRows) := by
  have keyed : ∀ row ∈ returningRows,
      IsKeyed ["_stationtype", "_stationcode", "_datatypename"] row := by
    intro row member column column_in
    simp only [returningRows, List.mem_cons, List.not_mem_nil, or_false] at member
    simp only [List.mem_cons, List.not_mem_nil, or_false] at column_in
    rcases member with rfl | rfl | rfl | rfl
    all_goals rcases column_in with rfl | rfl | rfl
    all_goals exact ⟨_, rfl⟩
  obtain ⟨tree, tree_eq, shown, complete_iff⟩ := measurementsAt_ofRows (Int.le_refl 0) keyed
    (by decide +kernel)
  refine ⟨tree, tree_eq, ?_, ?_, fun complete => ?_⟩
  · rw [shown]
    rfl
  · rw [shown]
    rfl
  · have lost_eq : lostRows (keysIn Layout.measurements.columns) .start returningRows =
        [measuredRow "A" "x" "e" 4] := rfl
    have columns_eq : columnsOf Mobility.measurementDouble (measuredRow "A" "x" "d" 1) =
        [⟨"mvalue", .whole "mvalue"⟩] := rfl
    refine complete_iff.mp complete _ (lost_eq ▸ List.mem_cons_self) (.inr ?_)
    exact ⟨Mobility.measurementDouble, List.mem_cons_self, _, columns_eq ▸ List.mem_cons_self, rfl, rfl⟩

end StationGateway.Tree
