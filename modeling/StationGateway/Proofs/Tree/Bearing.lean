import StationGateway.Proofs.Tree.Follow
import StationGateway.Proofs.Tree.Reference

/-!
# Plants that bear rows

A plant bears some rows if it has an entry for every key of theirs, the entry bears the rows of its
group, and what is folded into it and its elements are those of the rows. One more row adds what it
shows, wherever it begins a new group or ends the last one. -/

namespace StationGateway.Tree

open StationGateway.Order

section Bearing

variable {cells : TargetList → Row → List (String × Json)} {seed : TargetList → Plant}
  {leaf : Option Leaf} {parent : Option String} {inlines : List TargetList} {tiers : List Tier}
  {plant : Plant} {row : Row} {rows : List Row}

/-! ## New objects -/

/-- Whether new objects show the cells of a row. -/
structure Shows (seed : TargetList → Plant) (cells : TargetList → Row → List (String × Json))
    (row : Row) : Prop where
  /-- They have the cells. -/
  fields : ∀ list, (seed list).fields = cells list row
  /-- Nothing is attached to them. -/
  no_limbs : ∀ list, (seed list).limbs = []

theorem Shows.json (shows : Shows seed cells row) (list : TargetList) :
    (seed list).json = .object (cells list row) := by
  rw [Plant.json_eq, shows.no_limbs, shows.fields]
  rfl

theorem Shows.isBare (shows : Shows seed cells row) (list : TargetList) :
    (seed list).isBare = (cells list row).isEmpty := by
  rw [Plant.isBare, shows.no_limbs, shows.fields]
  exact Bool.and_true _

theorem ascending_attachInline (ascending : Ascending plant.limbs) (target : String) (twig : Plant) :
    Ascending (plant.attachInline false target twig).limbs := by
  rw [Plant.attachInline]
  split
  · exact ascending.erase target
  · exact ascending.put target _

theorem ascending_inlined (ascending : Ascending plant.limbs) (inlines : List TargetList) :
    Ascending (inlined false seed inlines plant).limbs := by
  induction inlines generalizing plant with
  | nil => exact ascending
  | cons list rest induction => exact induction (ascending_attachInline ascending _ _)

theorem find?_foldedMembers_of_not_mem {name : String} {lists : List TargetList}
    (absent : name ∉ lists.map targetOf) (row : Row) :
    find? name (foldedMembers cells lists row) = none :=
  find?_eq_none_of_not_mem fun member => absent ((keys_foldedMembers lists row).subset member)

/-- Folding in the new objects of a row puts what they show in place of what was there. -/
theorem find?_limbs_inlined_eq (shows : Shows seed cells row) (ascending : Ascending plant.limbs)
    (targets : (inlines.map targetOf).Nodup) (name : String) :
    (find? name (inlined false seed inlines plant).limbs).map Limb.json =
      if name ∈ inlines.map targetOf then find? name (foldedMembers cells inlines row)
      else (find? name plant.limbs).map Limb.json := by
  induction inlines generalizing plant with
  | nil => rfl
  | cons list rest induction =>
      rw [List.map_cons] at targets
      obtain ⟨target_new, rest_targets⟩ := List.nodup_cons.mp targets
      have rest_eq := induction (ascending_attachInline ascending (targetOf list) (seed list))
        rest_targets
      rw [inlined, List.foldl_cons, ← inlined, rest_eq, foldedMembers_cons, find?_append, List.map_cons]
      by_cases is_target : name = targetOf list
      · subst is_target
        rw [if_neg target_new, if_pos List.mem_cons_self, find?_foldedMembers_of_not_mem target_new,
          Option.or_none, Plant.attachInline, shows.isBare, Bool.not_false, Bool.and_true]
        split_ifs with is_empty
        · rw [Plant.dropLimb, Plant.limbs, find?_erase ascending, if_pos rfl]
          rfl
        · rw [Plant.limbs_setLimb, find?_put, if_pos rfl, Option.map_some, Limb.json, shows.json, find?,
            if_pos rfl]
      · have head_none : find? name (if (cells list row).isEmpty then [] else
            [(targetOf list, Json.object (cells list row))]) = none := by
          split_ifs with is_empty
          · rfl
          · rw [find?, if_neg is_target, find?]
        rw [head_none, Option.none_or, find?_limbs_attachInline is_target]
        simp [is_target]

/-- Folding the new objects of a row into an object to which nothing is attached. -/
theorem limbsJson_inlined (shows : Shows seed cells row) (no_limbs : plant.limbs = [])
    (targets : (inlines.map targetOf).Nodup) :
    limbsJson (inlined false seed inlines plant).limbs = mapOfList (foldedMembers cells inlines row) := by
  have ascending : Ascending plant.limbs := no_limbs ▸ ascending_nil
  rw [limbsJson_eq_map]
  refine eq_of_find?_eq ((ascending_inlined ascending inlines).map Limb.json) (ascending_mapOfList _)
    fun name => ?_
  rw [find?_map, find?_limbs_inlined_eq shows ascending targets,
    find?_mapOfList ((keys_foldedMembers inlines row).nodup targets)]
  split_ifs with is_target
  · rfl
  · rw [find?_foldedMembers_of_not_mem is_target, no_limbs]
    rfl

theorem attachMerged_all (shows : Shows seed cells row) (merges : List TargetList) (plant : Plant) :
    merges.foldl (fun element list => element.attachMerged false (targetOf list) (seed list)) plant =
      .node plant.id (putAll plant.fields (mergedMembers cells merges row)) plant.limbs := by
  induction merges generalizing plant with
  | nil =>
      cases plant
      rfl
  | cons list rest induction =>
      rw [List.foldl_cons, induction, Plant.attachMerged, shows.fields, mergedMembers_cons,
        Bool.not_false, Bool.and_true]
      split_ifs with is_null
      · rfl
      · rfl

/-- The new element of a row is its record. -/
theorem json_newElements {leaf : Leaf} (shows : Shows seed cells row) (fits : leaf.Fits parent inlines) :
    (newElements false seed leaf).map Plant.json = (record cells leaf row).toList := by
  have limbs_json : limbsJson (inlined false seed leaf.inlines (seed leaf.list)).limbs =
      mapOfList (foldedMembers cells leaf.inlines row) :=
    limbsJson_inlined shows (shows.no_limbs leaf.list) fits.2.2.2.2.2.2
  have fields_eq : (elementOf false seed leaf).fields =
      putAll (cells leaf.list row) (mergedMembers cells leaf.merges row) := by
    rw [elementOf, attachMerged_all shows, Plant.fields, fields_inlined, shows.fields]
  have limbs_eq : limbsJson (elementOf false seed leaf).limbs =
      mapOfList (foldedMembers cells leaf.inlines row) := by
    rw [elementOf, attachMerged_all shows, Plant.limbs, limbs_json]
  have bare_eq : (elementOf false seed leaf).isBare =
      ((putAll (cells leaf.list row) (mergedMembers cells leaf.merges row)).isEmpty &&
        (foldedMembers cells leaf.inlines row).isEmpty) := by
    rw [Plant.isBare, fields_eq, ← mapOfList_isEmpty
      ((keys_foldedMembers leaf.inlines row).nodup fits.2.2.2.2.2.2), ← limbs_eq, limbsJson_eq_map,
      List.isEmpty_map]
  rw [newElements, record, bare_eq, Bool.not_false, Bool.and_true]
  split_ifs with is_empty
  · rfl
  · rw [List.map_singleton, Plant.json_eq, fields_eq, limbs_eq, Option.toList_some]

/-! ## Groups -/

theorem groupOf_eq_nil {column text : String} (absent : ∀ row ∈ rows, textIn column row ≠ text) :
    groupOf column text rows = [] :=
  List.filter_eq_nil_iff.mpr fun row member => by simpa using absent row member

theorem groupOf_append_of_eq {column text : String} (same : textIn column row = text) :
    groupOf column text (rows ++ [row]) = groupOf column text rows ++ [row] := by
  rw [groupOf, List.filter_append, List.filter_cons_of_pos (by simpa using same), List.filter_nil]
  rfl

theorem groupOf_append_of_ne {column text : String} (ne : textIn column row ≠ text) :
    groupOf column text (rows ++ [row]) = groupOf column text rows := by
  rw [groupOf, List.filter_append, List.filter_cons_of_neg (by simpa using ne), List.filter_nil,
    List.append_nil]
  rfl

theorem ofFirst_append {shown : Row → List (String × Json)}
    (same : ∀ earlier ∈ rows, shown earlier = shown row) : ofFirst shown (rows ++ [row]) = shown row := by
  cases rows with
  | nil => rfl
  | cons first rest => exact same first List.mem_cons_self

theorem ofFirst_append_of_ne (shown : Row → List (String × Json)) (rows_ne : rows ≠ []) (more : List Row) :
    ofFirst shown (rows ++ more) = ofFirst shown rows := by
  cases rows with
  | nil => exact absurd rfl rows_ne
  | cons first rest => rfl

/-! ## Bearing rows -/

/-- Whether what is attached to an object is what some rows show below it. -/
def Bears (cells : TargetList → Row → List (String × Json)) (leaf : Option Leaf) :
    List TargetList → List Tier → List Row → Plant → Prop
  | inlines, [], rows, plant => ∀ name,
      (find? name plant.limbs).map Limb.json = find? name (membersBelow cells leaf inlines [] rows)
  | inlines, tier :: rest, rows, plant =>
      (∀ name, tier.target.isSome → tier.target ≠ some name →
        (find? name plant.limbs).map Limb.json =
          find? name (ofFirst (foldedMembers cells inlines) rows)) ∧
      (∀ key, (plant.entryAt? tier.target key).isSome ↔ groupOf tier.column key rows ≠ []) ∧
      ∀ key entry, plant.entryAt? tier.target key = some entry →
        entry.fields = ofFirst (cells tier.list) (groupOf tier.column key rows) ∧
          Bears cells leaf tier.inlines rest (groupOf tier.column key rows) entry

theorem bears_of_no_limbs (no_limbs : plant.limbs = []) (leaf : Option Leaf)
    (inlines : List TargetList) (tiers : List Tier) : Bears cells leaf inlines tiers [] plant := by
  cases tiers with
  | nil =>
      intro name
      cases leaf with
      | none => rw [no_limbs]; rfl
      | some leaf => rw [no_limbs]; rfl
  | cons tier rest =>
      refine ⟨fun name _ _ => ?_, fun key => ?_, fun key entry found => ?_⟩
      · rw [no_limbs]
        rfl
      · rw [Plant.entryAt?_of_no_limbs no_limbs]
        simp [groupOf]
      · rw [Plant.entryAt?_of_no_limbs no_limbs] at found
        cases found

/-- The elements that are shown under a name, if there are any. -/
def shownElements (records : List Json) : Option Json :=
  if records.isEmpty then none else some (.array records)

theorem find?_leafMembers (leaf : Leaf) (rows : List Row) (name : String) :
    find? name (leafMembers cells (some leaf) rows) =
      if name = targetOf leaf.list then shownElements (rows.filterMap (record cells leaf)) else none := by
  rw [leafMembers, shownElements]
  split_ifs with is_empty is_target is_target
  · rfl
  · rfl
  · rw [find?, if_pos is_target]
  · rw [find?, if_neg is_target, find?]

/-- One more element is shown after the others. -/
theorem find?_limbs_attachElement {target : String} {records : List Json} (item : Plant)
    (is_list : ∀ limb, find? target plant.limbs = some limb → ∃ items, limb = .list items)
    (shown : (find? target plant.limbs).map Limb.json = shownElements records) :
    (find? target (plant.attachElement false target item).limbs).map Limb.json =
      shownElements (records ++ (if item.isBare then [] else [item.json])) := by
  rw [Plant.attachElement, Bool.not_false, Bool.and_true]
  split_ifs with is_bare
  · rw [List.append_nil]
    exact shown
  · rw [shownElements] at shown
    rw [shownElements, if_neg (by simp)]
    cases found : find? target plant.limbs with
    | none =>
        rw [found] at shown
        split_ifs at shown with is_empty
        · rw [List.isEmpty_iff.mp is_empty, Plant.limbs_setLimb, find?_put, if_pos rfl]
          rfl
        · cases shown
    | some limb =>
        obtain ⟨items, rfl⟩ := is_list limb found
        rw [found, Option.map_some, Limb.json, itemsJson_eq_map] at shown
        split_ifs at shown with is_empty
        have records_eq := Json.array.inj (Option.some.inj shown)
        dsimp only
        rw [Plant.limbs_setLimb, find?_put, if_pos rfl, Option.map_some, Limb.json, itemsJson_eq_map,
          List.map_append, records_eq]
        rfl

theorem find?_limbs_putEntry {target : Option String} {name : String} (has_target : target.isSome)
    (ne : target ≠ some name) (key : String) (entry : Plant) :
    find? name (plant.putEntry target key entry).limbs = find? name plant.limbs := by
  obtain ⟨target, rfl⟩ := Option.isSome_iff_exists.mp has_target
  have name_ne : name ≠ target := fun same => ne (congrArg some same.symm)
  rw [Plant.putEntry]
  split
  · rw [Plant.limbs_setLimb, find?_put, if_neg name_ne]
  · rw [Plant.limbs_setLimb, find?_put, if_neg name_ne]
  · rfl

theorem find?_limbs_attachElement_of_ne {showNull : Bool} {name target : String} (ne : name ≠ target)
    (item : Plant) :
    find? name (plant.attachElement showNull target item).limbs = find? name plant.limbs := by
  rw [Plant.attachElement]
  split
  · rfl
  · split
    · rw [Plant.limbs_setLimb, find?_put, if_neg ne]
    · rw [Plant.limbs_setLimb, find?_put, if_neg ne]
    · rfl

/-- What is folded into an object is that of a row that agrees with those before it. -/
theorem find?_folded (shows : Shows seed cells row) (ascending : Ascending plant.limbs)
    (targets : (inlines.map targetOf).Nodup)
    (agree : ∀ earlier ∈ rows, ∀ list ∈ inlines, cells list earlier = cells list row) {name : String}
    (before : name ∉ inlines.map targetOf → (find? name plant.limbs).map Limb.json =
      find? name (ofFirst (foldedMembers cells inlines) rows)) :
    (find? name (inlined false seed inlines plant).limbs).map Limb.json =
      find? name (ofFirst (foldedMembers cells inlines) (rows ++ [row])) := by
  have folded_eq : ofFirst (foldedMembers cells inlines) (rows ++ [row]) =
      foldedMembers cells inlines row :=
    ofFirst_append fun earlier member => foldedMembers_congr (agree earlier member)
  rw [find?_limbs_inlined_eq shows ascending targets, folded_eq]
  split_ifs with is_target
  · rfl
  · have absent : name ∉ (ofFirst (foldedMembers cells inlines) rows).map (·.1) := fun member =>
      is_target ((keys_ofFirst_foldedMembers inlines rows).subset member)
    rw [before is_target, find?_eq_none_of_not_mem absent, find?_foldedMembers_of_not_mem is_target]

/-- A row grafted below an innermost entry adds its element. -/
theorem bears_graft_leaf (fits : FitsBelow leaf parent inlines []) (shows : Shows seed cells row)
    (ascending : Ascending plant.limbs) (shaped : plant.Shaped leaf [])
    (bears : Bears cells leaf inlines [] rows plant)
    (agree : ∀ earlier ∈ rows, ∀ list ∈ inlines, cells list earlier = cells list row)
    (keys : List String) :
    Bears cells leaf inlines [] (rows ++ [row]) (graft false seed leaf inlines [] keys plant) := by
  intro name
  have before := bears name
  rw [membersBelow, find?_append] at before
  rw [membersBelow, find?_append]
  cases leaf with
  | none =>
      have none_shown : find? name (leafMembers cells none rows) = none := rfl
      rw [none_shown, Option.or_none] at before
      exact (find?_folded shows ascending fits.1.2 agree fun _ => before).trans Option.or_none.symm
  | some leaf =>
      obtain ⟨-, -, -, beside, -⟩ := fits.2 leaf rfl
      rw [graft, find?_leafMembers]
      rw [find?_leafMembers] at before
      by_cases is_leaf : name = targetOf leaf.list
      · subst is_leaf
        have not_folded : ∀ rows, find? (targetOf leaf.list)
            (ofFirst (foldedMembers cells inlines) rows) = none := by
          intro rows
          refine find?_eq_none_of_not_mem fun member => ?_
          obtain ⟨list, in_inlines, same⟩ :=
            List.mem_map.mp ((keys_ofFirst_foldedMembers inlines rows).subset member)
          exact beside list in_inlines same
        have kept : find? (targetOf leaf.list) (inlined false seed inlines plant).limbs =
            find? (targetOf leaf.list) plant.limbs :=
          find?_limbs_inlined fun list member => (beside list member).symm
        have added : (if (elementOf false seed leaf).isBare then [] else [(elementOf false seed leaf).json]) =
            [row].filterMap (record cells leaf) := by
          have json_eq := json_newElements shows (fits.2 leaf rfl)
          rw [newElements, Bool.not_false, Bool.and_true, apply_ite (List.map Plant.json)] at json_eq
          refine json_eq.trans ?_
          rw [List.filterMap_cons, List.filterMap_nil]
          cases record cells leaf row with
          | none => rfl
          | some json => rfl
        rw [if_pos rfl, not_folded, Option.none_or, ← kept] at before
        rw [if_pos rfl, not_folded, Option.none_or, List.filterMap_append, find?_limbs_attachElement _
          (by rw [kept]; exact shaped leaf rfl) before, added]
      · rw [if_neg is_leaf, Option.or_none] at before
        rw [if_neg is_leaf, Option.or_none, find?_limbs_attachElement_of_ne is_leaf]
        exact find?_folded shows ascending fits.1.2 agree fun _ => before

/-- A map bears one more row if the entry for the key of the row does. -/
theorem bears_append {tier : Tier} {rest : List Tier} {later branch : Plant}
    (bears : Bears cells leaf inlines (tier :: rest) rows plant)
    (others : ∀ name, tier.target.isSome → tier.target ≠ some name →
      (find? name later.limbs).map Limb.json =
        find? name (ofFirst (foldedMembers cells inlines) (rows ++ [row])))
    (entry_eq : ∀ key, later.entryAt? tier.target key =
      if key = textIn tier.column row then some branch else plant.entryAt? tier.target key)
    (fields_eq : branch.fields =
      ofFirst (cells tier.list) (groupOf tier.column (textIn tier.column row) rows ++ [row]))
    (branch_bears : Bears cells leaf tier.inlines rest
      (groupOf tier.column (textIn tier.column row) rows ++ [row]) branch) :
    Bears cells leaf inlines (tier :: rest) (rows ++ [row]) later := by
  obtain ⟨-, isSome, entries⟩ := bears
  refine ⟨others, fun key => ?_, fun key entry found => ?_⟩
  · rw [entry_eq]
    by_cases is_key : key = textIn tier.column row
    · rw [if_pos is_key, groupOf_append_of_eq is_key.symm]
      simp
    · rw [if_neg is_key, groupOf_append_of_ne (Ne.symm is_key)]
      exact isSome key
  · rw [entry_eq] at found
    by_cases is_key : key = textIn tier.column row
    · subst is_key
      rw [if_pos rfl] at found
      obtain rfl := Option.some.inj found
      rw [groupOf_append_of_eq rfl]
      exact ⟨fields_eq, branch_bears⟩
    · rw [if_neg is_key] at found
      rw [groupOf_append_of_ne (Ne.symm is_key)]
      exact entries key entry found

/-- A row grafted below an object begins a new group there. -/
theorem bears_graft (fits : FitsBelow leaf parent inlines tiers) (shows : Shows seed cells row)
    (ascending : Ascending plant.limbs) (shaped : plant.Shaped leaf tiers)
    (bears : Bears cells leaf inlines tiers rows plant)
    (agree : ∀ earlier ∈ rows, ∀ list ∈ inlines, cells list earlier = cells list row)
    (fresh : ∀ tier ∈ tiers.head?, groupOf tier.column (textIn tier.column row) rows = []) :
    Bears cells leaf inlines tiers (rows ++ [row])
      (graft false seed leaf inlines tiers (keysIn (tiers.map Tier.column) row) plant) := by
  induction tiers generalizing plant parent inlines rows with
  | nil => exact bears_graft_leaf fits shows ascending shaped bears agree _
  | cons tier rest induction =>
      have new_group := fresh tier rfl
      have no_entry : plant.entryAt? tier.target (textIn tier.column row) = none := by
        rw [← Option.isNone_iff_eq_none, ← Option.not_isSome]
        simpa [new_group] using bears.2.1 (textIn tier.column row)
      have branch_bears : Bears cells leaf tier.inlines rest
          (groupOf tier.column (textIn tier.column row) rows ++ [row])
          (branchOf false seed leaf tier rest (keysIn (rest.map Tier.column) row)) := by
        rw [new_group]
        exact induction fits.2.2 (shows.no_limbs tier.list ▸ ascending_nil)
          (Plant.shaped_of_no_limbs (shows.no_limbs tier.list) leaf rest)
          (bears_of_no_limbs (shows.no_limbs tier.list) leaf tier.inlines rest)
          (fun earlier member => absurd member List.not_mem_nil) fun _ _ => rfl
      rw [List.map_cons, keysIn_cons]
      refine bears_append bears (fun name has_target ne => ?_) (fun key => ?_) ?_ branch_bears
      · rw [graft, Plant.attachKeyed, find?_limbs_putEntry has_target ne]
        exact find?_folded shows ascending fits.1.2 agree fun _ => bears.1 name has_target ne
      · rw [entryAt?_graft shaped.1 fits.2.1, no_entry]
        rfl
      · rw [new_group]
        exact (fields_graft _ _ _ _ _).trans (shows.fields tier.list)

/-- A row that goes on filling the objects of the row before it ends the last group of each. -/
theorem bears_extend {kept : Nat} (fits : FitsBelow leaf parent inlines tiers)
    (shows : Shows seed cells row) (tidy : plant.Tidy) (shaped : plant.Shaped leaf tiers)
    (bears : Bears cells leaf inlines tiers rows plant) (kept_le : kept ≤ tiers.length)
    (agree : ∀ earlier ∈ rows, ∀ depth ≤ tiers.length,
      (keysIn (tiers.map Tier.column) earlier).take depth =
        (keysIn (tiers.map Tier.column) row).take depth →
      ∀ list ∈ inlinesAfter inlines tiers depth, cells list earlier = cells list row)
    (known : 0 < kept → ∃ earlier ∈ rows, (keysIn (tiers.map Tier.column) earlier).take kept =
      (keysIn (tiers.map Tier.column) row).take kept)
    (fresh : kept < tiers.length → ∀ earlier ∈ rows,
      (keysIn (tiers.map Tier.column) earlier).take (kept + 1) ≠
        (keysIn (tiers.map Tier.column) row).take (kept + 1)) :
    Bears cells leaf inlines tiers (rows ++ [row])
      (extend false seed leaf kept inlines tiers (keysIn (tiers.map Tier.column) row) plant) := by
  induction kept generalizing plant parent inlines tiers rows with
  | zero =>
      have agree_here : ∀ earlier ∈ rows, ∀ list ∈ inlines, cells list earlier = cells list row := by
        intro earlier member list in_inlines
        refine agree earlier member 0 (Nat.zero_le _) rfl list ?_
        rw [inlinesAfter_zero]
        exact in_inlines
      have fresh_here : ∀ tier ∈ tiers.head?,
          groupOf tier.column (textIn tier.column row) rows = [] := by
        intro tier is_head
        cases tiers with
        | nil => cases is_head
        | cons first rest =>
            obtain rfl := Option.some.inj is_head
            refine groupOf_eq_nil fun earlier member same => ?_
            exact fresh (Nat.succ_pos _) earlier member (congrArg (fun key => [key]) same)
      exact bears_graft fits shows (ascending_limbs tidy.root) shaped bears agree_here fresh_here
  | succ kept induction =>
      obtain ⟨tier, rest, rfl⟩ : ∃ tier rest, tiers = tier :: rest :=
        List.exists_cons_of_length_pos (by omega)
      obtain ⟨earlier, earlier_in, earlier_keys⟩ := known (Nat.succ_pos kept)
      obtain ⟨same_key, earlier_rest⟩ := List.cons.inj earlier_keys
      have in_group : ∀ other ∈ groupOf tier.column (textIn tier.column row) rows,
          other ∈ rows ∧ textIn tier.column other = textIn tier.column row := by
        intro other member
        obtain ⟨in_rows, same⟩ := List.mem_filter.mp member
        exact ⟨in_rows, of_decide_eq_true same⟩
      have earlier_group : earlier ∈ groupOf tier.column (textIn tier.column row) rows :=
        List.mem_filter.mpr ⟨earlier_in, decide_eq_true same_key⟩
      have group_ne := List.ne_nil_of_mem earlier_group
      obtain ⟨existing, existing_eq⟩ :=
        Option.isSome_iff_exists.mp ((bears.2.1 (textIn tier.column row)).mpr group_ne)
      obtain ⟨fields_eq, existing_bears⟩ := bears.2.2 _ existing existing_eq
      have rows_ne := List.ne_nil_of_mem earlier_in
      have grown := induction fits.2.2 (tidy.entryAt? existing_eq) (shaped.2 _ existing existing_eq)
        existing_bears (Nat.le_of_succ_le_succ kept_le)
        (fun other member depth le same => by
          obtain ⟨in_rows, other_key⟩ := in_group other member
          refine agree other in_rows (depth + 1) (Nat.succ_le_succ le) ?_
          exact congrArg₂ List.cons other_key same)
        (fun _ => ⟨earlier, earlier_group, earlier_rest⟩)
        (fun lt other member same => by
          obtain ⟨in_rows, other_key⟩ := in_group other member
          exact fresh (Nat.succ_lt_succ lt) other in_rows (congrArg₂ List.cons other_key same))
      rw [List.map_cons, keysIn_cons, extend, existing_eq]
      refine bears_append bears (fun name has_target ne => ?_)
        (fun key => Plant.entryAt?_putEntry shaped.1 _ key _) ?_ grown
      · rw [find?_limbs_putEntry has_target ne, ofFirst_append_of_ne _ rows_ne]
        exact bears.1 name has_target ne
      · rw [ofFirst_append_of_ne _ group_ne, fields_extend]
        exact fields_eq

/-! ## What is shown -/

theorem mem_keys_iff {tier : Tier} {key : String} :
    key ∈ ofList (rows.map (textIn tier.column)) ↔ groupOf tier.column key rows ≠ [] := by
  rw [mem_ofList, List.mem_map]
  constructor
  · rintro ⟨row, member, same⟩
    exact List.ne_nil_of_mem (List.mem_filter.mpr ⟨member, decide_eq_true same⟩)
  · intro group_ne
    obtain ⟨row, member⟩ := List.exists_mem_of_ne_nil _ group_ne
    obtain ⟨in_rows, same⟩ := List.mem_filter.mp member
    exact ⟨row, in_rows, of_decide_eq_true same⟩

theorem limbsJson_of_find? (fits : FitsBelow leaf parent inlines tiers) (tidy : plant.Tidy)
    (same : ∀ name, (find? name plant.limbs).map Limb.json =
      find? name (membersBelow cells leaf inlines tiers rows)) :
    limbsJson plant.limbs = mapOfList (membersBelow cells leaf inlines tiers rows) := by
  rw [limbsJson_eq_map]
  refine eq_of_find?_eq ((ascending_limbs tidy.root).map Limb.json) (ascending_mapOfList _)
    fun name => ?_
  rw [find?_map, find?_mapOfList (nodup_membersBelow fits rows)]
  exact same name

/-- A map shows the entries that are found in it. -/
theorem json_of_entries {entries : List (String × Plant)} {shown : List (String × Json)}
    (ascending : Ascending entries) (shown_ascending : Ascending shown)
    (same : ∀ key, (find? key entries).map Plant.json = find? key shown) :
    (Limb.map entries).json = .object shown := by
  rw [Limb.json, entriesJson_eq_map]
  refine congrArg Json.object ?_
  refine eq_of_find?_eq (ascending.map Plant.json) shown_ascending fun key => ?_
  rw [find?_map]
  exact same key

/-- The entries of a map show the groups of the rows if they show what is below them. -/
theorem json_entryAt? {tier : Tier} {rest : List Tier}
    (bears : Bears cells leaf inlines (tier :: rest) rows plant)
    (below : ∀ key entry, plant.entryAt? tier.target key = some entry →
      limbsJson entry.limbs =
        mapOfList (membersBelow cells leaf tier.inlines rest (groupOf tier.column key rows)))
    (key : String) :
    (plant.entryAt? tier.target key).map Plant.json =
      find? key ((ofList (rows.map (textIn tier.column))).map fun key =>
        (key, entryJson cells leaf tier rest (groupOf tier.column key rows))) := by
  obtain ⟨-, isSome, entries⟩ := bears
  rw [find?_map_keys]
  cases found : plant.entryAt? tier.target key with
  | none =>
      have no_group : ¬groupOf tier.column key rows ≠ [] := by
        rw [← isSome key, found]
        exact Bool.false_ne_true
      rw [if_neg fun member => no_group (mem_keys_iff.mp member)]
      rfl
  | some entry =>
      have group_ne : groupOf tier.column key rows ≠ [] := by
        rw [← isSome key, found]
        rfl
      rw [if_pos (mem_keys_iff.mpr group_ne), Option.map_some, Plant.json_eq, below key entry found,
        (entries key entry found).1]
      rfl

/-- An object that bears rows shows what they show below it. -/
theorem limbsJson_of_bears (fits : FitsBelow leaf parent inlines tiers) (tidy : plant.Tidy)
    (shaped : plant.Shaped leaf tiers) (rows_ne : rows ≠ [])
    (bears : Bears cells leaf inlines tiers rows plant) :
    limbsJson plant.limbs = mapOfList (membersBelow cells leaf inlines tiers rows) := by
  induction tiers generalizing plant parent inlines rows with
  | nil => exact limbsJson_of_find? fits tidy bears
  | cons tier rest induction =>
      have entry_json := json_entryAt? bears fun key entry found =>
        induction fits.2.2 (tidy.entryAt? found) (shaped.2 key entry found)
          ((bears.2.1 key).mp (Option.isSome_of_eq_some found)) (bears.2.2 key entry found).2
      obtain ⟨others, isSome, -⟩ := bears
      refine limbsJson_of_find? fits tidy fun name => ?_
      rw [membersBelow_cons, find?_append]
      have holds := shaped.1
      cases target_eq : tier.target with
      | none =>
          obtain rfl := fits.2.1.no_inlines target_eq
          have none_folded : find? name (ofFirst (foldedMembers cells []) rows) = none :=
            find?_eq_none_of_not_mem fun member =>
              List.not_mem_nil ((keys_ofFirst_foldedMembers [] rows).subset member)
          rw [none_folded, Option.none_or, underTarget, ← entry_json, target_eq, Plant.entryAt?]
          rw [target_eq] at holds
          cases found : find? name plant.limbs with
          | none => rfl
          | some limb =>
              obtain ⟨entry, rfl⟩ := holds name limb found
              rfl
      | some target =>
          rw [underTarget, find?]
          by_cases is_target : name = target
          · subst is_target
            have none_folded : find? name (ofFirst (foldedMembers cells inlines) rows) = none := by
              refine find?_eq_none_of_not_mem fun member => ?_
              obtain ⟨list, in_inlines, same⟩ :=
                List.mem_map.mp ((keys_ofFirst_foldedMembers inlines rows).subset member)
              exact (fits.2.1.2.2.2 list in_inlines).2 (by rw [target_eq, same])
            obtain ⟨row, others_rows, rows_eq⟩ := List.exists_cons_of_ne_nil rows_ne
            rw [target_eq] at entry_json isSome holds
            rw [none_folded, Option.none_or, if_pos rfl]
            cases found : find? name plant.limbs with
            | none =>
                have has_entry : (plant.entryAt? (some name) (textIn tier.column row)).isSome := by
                  rw [isSome, rows_eq]
                  simp [groupOf]
                rw [Plant.entryAt?, found] at has_entry
                cases has_entry
            | some limb =>
                obtain ⟨entries, rfl⟩ := holds limb found
                refine congrArg some (json_of_entries (ascending_entries tidy.root found)
                  (ascending_map_keys (pairwise_ofList _) _) fun key => ?_)
                rw [← entry_json, Plant.entryAt?, found]
          · rw [if_neg is_target, find?, Option.or_none]
            refine others name (by rw [target_eq]; rfl) fun same => is_target ?_
            rw [target_eq] at same
            exact (Option.some.inj same).symm

end Bearing

end StationGateway.Tree
