import StationGateway.Proofs.Order.Gather
import StationGateway.Proofs.Tree.Layout

/-!
# The tree of rows

What the tree of some rows is, said without building it: rows are grouped by the keys of the outermost
map, each group is an entry, and the rows of a group are the tree below it. An entry shows the cells of
its first row; below the innermost entries every row is an element, unless it has nothing to show. -/

namespace StationGateway.Tree

open StationGateway.Order

/-! ## Keys -/

/-- The text that a row has in a column, empty if there is none. -/
def textIn (column : String) (row : Row) : String :=
  match Json.member? column row with
  | some (.string text) => text
  | _ => ""

/-- The texts that a row has in several columns. -/
def keysIn (columns : List String) (row : Row) : List String :=
  columns.map fun column => textIn column row

theorem keysIn_cons (column : String) (columns : List String) (row : Row) :
    keysIn (column :: columns) row = textIn column row :: keysIn columns row :=
  rfl

/-- Whether a row has a text in each of several columns. -/
def IsKeyed (columns : List String) (row : Row) : Prop :=
  ∀ column ∈ columns, ∃ text, Json.member? column row = some (.string text)

theorem keysOf_eq {columns : List String} {row : Row} (keyed : IsKeyed columns row) :
    keysOf row columns = .ok (keysIn columns row) := by
  induction columns with
  | nil => rfl
  | cons column rest induction =>
      obtain ⟨text, found⟩ := keyed column List.mem_cons_self
      have rest_eq := induction fun other member => keyed other (List.mem_cons_of_mem column member)
      have key_eq : keyOf row column = .ok text := by simp only [keyOf, found]
      have text_eq : textIn column row = text := by simp only [textIn, found]
      simp only [keysOf, key_eq, rest_eq, keysIn, List.map_cons, text_eq]
      rfl

/-- The rows with a text in a column. -/
def groupOf (column text : String) (rows : List Row) : List Row :=
  rows.filter fun row => textIn column row = text

/-! ## Records and entries -/

section Reference

variable (cells : TargetList → Row → List (String × Json))

/-- The objects of a row that are folded into another one. -/
def foldedMembers (lists : List TargetList) (row : Row) : List (String × Json) :=
  lists.filterMap fun list =>
    if (cells list row).isEmpty then none else some (targetOf list, .object (cells list row))

/-- The cells of a row that an element takes from some lists. -/
def mergedMembers (lists : List TargetList) (row : Row) : List (String × Json) :=
  lists.filterMap fun list =>
    let value := (find? (targetOf list) (cells list row)).getD .null
    if value.isNull then none else some (targetOf list, value)

/-- The element of a row, none if it has nothing to show. -/
def record (leaf : Leaf) (row : Row) : Option Json :=
  let own := putAll (cells leaf.list row) (mergedMembers cells leaf.merges row)
  let folded := foldedMembers cells leaf.inlines row
  if own.isEmpty && folded.isEmpty then none else some (.object (putAll own (mapOfList folded)))

/-- The elements of some rows under their name, if there are any. -/
def leafMembers (leaf : Option Leaf) (rows : List Row) : List (String × Json) :=
  match leaf with
  | none => []
  | some leaf =>
      let records := rows.filterMap (record cells leaf)
      if records.isEmpty then [] else [(targetOf leaf.list, .array records)]

/-- What the first of some rows shows, nothing if there is none. -/
def ofFirst (shown : Row → List (String × Json)) (rows : List Row) : List (String × Json) :=
  (rows.head?.map shown).getD []

/-- Entries, in a map of a name or on their own. -/
def underTarget (target : Option String) (entries : List (String × Json)) : List (String × Json) :=
  match target with
  | none => entries
  | some target => [(target, .object entries)]

/-- What some rows show below an object. -/
def membersBelow (leaf : Option Leaf) :
    List TargetList → List Tier → List Row → List (String × Json)
  | inlines, [], rows => ofFirst (foldedMembers cells inlines) rows ++ leafMembers cells leaf rows
  | inlines, tier :: rest, rows =>
      ofFirst (foldedMembers cells inlines) rows ++
        underTarget tier.target ((ofList (rows.map (textIn tier.column))).map fun key =>
          let group := groupOf tier.column key rows
          (key, .object (putAll (ofFirst (cells tier.list) group)
            (mapOfList (membersBelow leaf tier.inlines rest group)))))

/-- The entry of some rows in a map. -/
def entryJson (leaf : Option Leaf) (tier : Tier) (rest : List Tier) (rows : List Row) : Json :=
  .object (putAll (ofFirst (cells tier.list) rows)
    (mapOfList (membersBelow cells leaf tier.inlines rest rows)))

/-- The tree of some rows. -/
def referenceTree (layout : Layout) (rows : List Row) : Json :=
  .object (mapOfList (membersBelow cells layout.leaf [] layout.tiers rows))

variable {cells} {leaf : Option Leaf} {parent : Option String} {inlines : List TargetList}
  {tiers : List Tier}

theorem membersBelow_cons (tier : Tier) (rest : List Tier) (rows : List Row) :
    membersBelow cells leaf inlines (tier :: rest) rows =
      ofFirst (foldedMembers cells inlines) rows ++
        underTarget tier.target ((ofList (rows.map (textIn tier.column))).map fun key =>
          (key, entryJson cells leaf tier rest (groupOf tier.column key rows))) :=
  rfl

/-! ## Names -/

theorem foldedMembers_cons (list : TargetList) (lists : List TargetList) (row : Row) :
    foldedMembers cells (list :: lists) row =
      (if (cells list row).isEmpty then [] else [(targetOf list, .object (cells list row))]) ++
        foldedMembers cells lists row := by
  rw [foldedMembers, List.filterMap_cons]
  split_ifs with is_empty
  · rfl
  · rfl

theorem mergedMembers_cons (list : TargetList) (lists : List TargetList) (row : Row) :
    mergedMembers cells (list :: lists) row =
      (if ((find? (targetOf list) (cells list row)).getD .null).isNull then []
        else [(targetOf list, (find? (targetOf list) (cells list row)).getD .null)]) ++
        mergedMembers cells lists row := by
  rw [mergedMembers, List.filterMap_cons]
  dsimp only
  split_ifs with is_null
  · rfl
  · rfl

theorem keys_foldedMembers (lists : List TargetList) (row : Row) :
    ((foldedMembers cells lists row).map (·.1)).Sublist (lists.map targetOf) := by
  induction lists with
  | nil => exact List.Sublist.refl []
  | cons list rest induction =>
      rw [foldedMembers_cons, List.map_append, List.map_cons]
      split_ifs with is_empty
      · exact induction.cons (targetOf list)
      · exact induction.cons_cons (targetOf list)

theorem keys_ofFirst_foldedMembers (lists : List TargetList) (rows : List Row) :
    ((ofFirst (foldedMembers cells lists) rows).map (·.1)).Sublist (lists.map targetOf) := by
  cases rows with
  | nil => exact List.nil_sublist _
  | cons row rest => exact keys_foldedMembers lists row

theorem keys_leafMembers (leaf : Option Leaf) (rows : List Row) :
    (leafMembers cells leaf rows).map (·.1) = [] ∨
      ∃ found ∈ leaf, (leafMembers cells leaf rows).map (·.1) = [targetOf found.list] := by
  cases leaf with
  | none => exact .inl rfl
  | some leaf =>
      rw [leafMembers]
      split_ifs with is_empty
      · exact .inl rfl
      · exact .inr ⟨leaf, rfl, rfl⟩

theorem nodup_keys_ofList {β : Type} (keys : List String) (image : String → β) :
    (((ofList keys).map fun key => (key, image key)).map (·.1)).Nodup :=
  nodup_keys (ascending_map_keys (pairwise_ofList keys) image)

/-- Nothing is folded into an object whose own members are entries. -/
theorem Tier.Fits.no_inlines {tier : Tier} (fits : tier.Fits parent inlines)
    (own : tier.target = none) : inlines = [] := by
  refine List.eq_nil_iff_forall_not_mem.mpr fun list member => ?_
  have has_target := (fits.2.2.2 list member).1
  rw [own] at has_target
  cases has_target

/-- What rows show below an object stands under different names. -/
theorem nodup_membersBelow (fits : FitsBelow leaf parent inlines tiers) (rows : List Row) :
    ((membersBelow cells leaf inlines tiers rows).map (·.1)).Nodup := by
  have folded : ((ofFirst (foldedMembers cells inlines) rows).map (·.1)).Sublist
      (inlines.map targetOf) := keys_ofFirst_foldedMembers inlines rows
  have folded_nodup : (inlines.map targetOf).Nodup →
      ((ofFirst (foldedMembers cells inlines) rows).map (·.1)).Nodup := folded.nodup
  have with_one : ∀ name, (inlines.map targetOf).Nodup → (∀ list ∈ inlines, targetOf list ≠ name) →
      ((ofFirst (foldedMembers cells inlines) rows).map (·.1) ++ [name]).Nodup := by
    intro name targets beside
    refine List.nodup_append.mpr ⟨folded_nodup targets, List.pairwise_singleton _ name, ?_⟩
    intro key in_folded other is_other is_name
    have same := List.mem_singleton.mp is_other
    obtain ⟨list, member, target_eq⟩ := List.mem_map.mp (folded.subset in_folded)
    exact beside list member (target_eq.trans (is_name.trans same))
  cases tiers with
  | nil =>
      have leaf_keys : (leafMembers cells leaf rows).map (·.1) = [] ∨
          ∃ found ∈ leaf, (leafMembers cells leaf rows).map (·.1) = [targetOf found.list] :=
        keys_leafMembers leaf rows
      rw [membersBelow, List.map_append]
      rcases leaf_keys with nothing | ⟨found, is_leaf, keys_eq⟩
      · rw [nothing, List.append_nil]
        exact folded_nodup fits.1.2
      · rw [keys_eq]
        exact with_one _ fits.1.2 (fits.2 found is_leaf).2.2.2.1
  | cons tier rest =>
      have beside := fits.2.1.2.2.2
      rw [membersBelow_cons, List.map_append]
      cases target_eq : tier.target with
      | none =>
          obtain rfl := fits.2.1.no_inlines target_eq
          rw [List.eq_nil_of_sublist_nil folded, List.nil_append]
          exact nodup_keys_ofList _ _
      | some target =>
          refine with_one target fits.1.2 fun list member same => (beside list member).2 ?_
          rw [target_eq, same]

/-! ## What a tree depends on -/

section Congruence

variable {others : TargetList → Row → List (String × Json)} {rows : List Row} {row other : Row}

theorem foldedMembers_congr {lists : List TargetList}
    (same : ∀ list ∈ lists, cells list row = others list other) :
    foldedMembers cells lists row = foldedMembers others lists other :=
  List.filterMap_congr fun list member => by rw [same list member]

theorem mergedMembers_congr {lists : List TargetList}
    (same : ∀ list ∈ lists, cells list row = others list other) :
    mergedMembers cells lists row = mergedMembers others lists other :=
  List.filterMap_congr fun list member => by rw [same list member]

theorem record_congr {leaf : Leaf} (own : cells leaf.list row = others leaf.list other)
    (merged : ∀ list ∈ leaf.merges, cells list row = others list other)
    (folded : ∀ list ∈ leaf.inlines, cells list row = others list other) :
    record cells leaf row = record others leaf other := by
  rw [record, record, own, mergedMembers_congr merged, foldedMembers_congr folded]

theorem ofFirst_congr {shown shown' : Row → List (String × Json)}
    (same : ∀ row ∈ rows, shown row = shown' row) : ofFirst shown rows = ofFirst shown' rows := by
  cases rows with
  | nil => rfl
  | cons first rest => exact same first List.mem_cons_self

theorem leafMembers_congr
    (same : ∀ found ∈ leaf, ∀ row ∈ rows, record cells found row = record others found row) :
    leafMembers cells leaf rows = leafMembers others leaf rows := by
  cases leaf with
  | none => rfl
  | some leaf => rw [leafMembers, leafMembers, List.filterMap_congr (same leaf rfl)]

/-- Rows show the same wherever their cells are the same. -/
theorem membersBelow_congr (same : ∀ list ∈ (levelsBelow leaf inlines tiers).flatten, ∀ row ∈ rows,
      cells list row = others list row) :
    membersBelow cells leaf inlines tiers rows = membersBelow others leaf inlines tiers rows := by
  induction tiers generalizing inlines rows with
  | nil =>
      have folded_same := fun row member => foldedMembers_congr fun list in_inlines =>
        same list (mem_levelsBelow_nil.mpr (.inl in_inlines)) row member
      rw [membersBelow, membersBelow, ofFirst_congr folded_same]
      refine congrArg _ (leafMembers_congr fun found is_leaf row member => ?_)
      have of_leaf := fun list either =>
        same list (mem_levelsBelow_nil.mpr (.inr ⟨found, is_leaf, either⟩)) row member
      exact record_congr (of_leaf _ (.inl rfl)) (fun list merged => of_leaf list (.inr (.inl merged)))
        fun list folded => of_leaf list (.inr (.inr folded))
  | cons tier rest induction =>
      have folded_same := fun row member => foldedMembers_congr fun list in_inlines =>
        same list (mem_levelsBelow_cons.mpr (.inl in_inlines)) row member
      have entry_same : ∀ key, entryJson cells leaf tier rest (groupOf tier.column key rows) =
          entryJson others leaf tier rest (groupOf tier.column key rows) := by
        intro key
        have in_rows : ∀ row ∈ groupOf tier.column key rows, row ∈ rows := fun row member =>
          List.mem_of_mem_filter member
        have own_same := fun row member =>
          same tier.list (mem_levelsBelow_cons.mpr (.inr (.inl rfl))) row (in_rows row member)
        have below_same := induction fun list member row in_group =>
          same list (mem_levelsBelow_cons.mpr (.inr (.inr member))) row (in_rows row in_group)
        rw [entryJson, entryJson, ofFirst_congr own_same, below_same]
      rw [membersBelow_cons, membersBelow_cons, ofFirst_congr folded_same]
      simp only [entry_same]

end Congruence

end Reference

end StationGateway.Tree
