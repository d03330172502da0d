import StationGateway.Proofs.Order.Gather
import StationGateway.Proofs.Tree.Follow

/-!
# Filing rows

Which rows a tree takes depends on their keys alone. A row goes on filling the objects that the row
before was filling, as far as their keys agree. The last of them may stand outside the tree: it was
made as part of a new entry that an entry of the tree took up, together with the entries below it. A
row that goes on filling such an object is lost. -/

namespace StationGateway.Tree

open StationGateway.Order

/-! ## Agreement -/

theorem agreement_le_left (keys others : List String) : agreement keys others ≤ keys.length := by
  induction keys generalizing others with
  | nil => exact Nat.le_refl 0
  | cons key keys induction =>
      cases others with
      | nil => exact Nat.zero_le _
      | cons other others =>
          rw [agreement]
          split
          · exact Nat.succ_le_succ (induction others)
          · exact Nat.zero_le _

theorem agreement_le_right (keys others : List String) : agreement keys others ≤ others.length := by
  induction keys generalizing others with
  | nil => exact Nat.zero_le _
  | cons key keys induction =>
      cases others with
      | nil => exact Nat.le_refl 0
      | cons other others =>
          rw [agreement]
          split
          · exact Nat.succ_le_succ (induction others)
          · exact Nat.zero_le _

theorem take_agreement (keys others : List String) :
    others.take (agreement keys others) = keys.take (agreement keys others) := by
  induction keys generalizing others with
  | nil => rfl
  | cons key keys induction =>
      cases others with
      | nil => rfl
      | cons other others =>
          rw [agreement]
          split
          next same => rw [List.take_succ_cons, List.take_succ_cons, induction, same]
          next => rfl

theorem take_of_le_agreement {keys others : List String} {depth : Nat}
    (le : depth ≤ agreement keys others) : others.take depth = keys.take depth := by
  have shortened := congrArg (List.take depth) (take_agreement keys others)
  rwa [List.take_take, List.take_take, Nat.min_eq_left le] at shortened

/-! ## The rows that are filed -/

/-- What decides whether the next row is filed. -/
structure Filing where
  /-- The keys of the row before. -/
  previous : List String
  /-- Whether the object that the maps of a level are filling stands in the tree. -/
  live : Nat → Bool
  /-- The keys of the rows that are filed. -/
  filed : List (List String)

namespace Filing

/-- No row yet. -/
def start : Filing :=
  ⟨[], fun _ => false, []⟩

/-- The number of objects that a row goes on filling. -/
def kept (filing : Filing) (keys : List String) : Nat :=
  agreement filing.previous keys

/-- Whether a row is filed: the last object that it goes on filling, if any, stands in the tree. -/
def files (filing : Filing) (keys : List String) : Bool :=
  filing.kept keys == 0 || filing.live (filing.kept keys - 1)

/-- Whether some row on a path of keys is filed. -/
def knows (filing : Filing) (path : List String) : Bool :=
  filing.filed.any fun keys => path.isPrefixOf keys

/-- After one more row. The new entry of a row stands in the tree, or the entry that takes it up; the
entries below it stand there if there is none. -/
def next (filing : Filing) (keys : List String) : Filing where
  previous := keys
  live depth :=
    if depth < filing.kept keys then filing.live depth
    else filing.files keys && (depth == filing.kept keys || !filing.knows (keys.take (depth + 1)))
  filed := if filing.files keys then filing.filed ++ [keys] else filing.filed

theorem live_next (filing : Filing) (keys : List String) (depth : Nat) :
    (filing.next keys).live depth =
      if depth < filing.kept keys then filing.live depth
      else filing.files keys && (depth == filing.kept keys || !filing.knows (keys.take (depth + 1))) :=
  rfl

theorem knows_next (filing : Filing) (keys path : List String) :
    (filing.next keys).knows path = (filing.knows path || filing.files keys && path.isPrefixOf keys) := by
  rw [knows, knows, next]
  cases filing.files keys with
  | false => simp
  | true => simp

end Filing

/-- The rows that are filed. -/
def filedRows {α : Type} (keysOf : α → List String) : Filing → List α → List α
  | _, [] => []
  | filing, row :: rest =>
      if filing.files (keysOf row) then row :: filedRows keysOf (filing.next (keysOf row)) rest
      else filedRows keysOf (filing.next (keysOf row)) rest

/-! ## Names -/

section Names

variable {layout : Layout} {kept depth : Nat} {tier : Tier}

theorem Layout.Fits.names_split (fits : layout.Fits) (kept : Nat) :
    ((layout.levels.take kept).flatten.map (·.name) ++
      (layout.levels.drop kept).flatten.map (·.name)).Nodup := by
  rw [← List.map_append, ← List.flatten_append, List.take_append_drop]
  exact fits.names

theorem Layout.Fits.names_drop (fits : layout.Fits) (kept : Nat) :
    ((layout.levels.drop kept).flatten.map (·.name)).Nodup :=
  (List.nodup_append.mp (fits.names_split kept)).2.1

/-- The lists that a row renews have other names than those that it goes on filling. -/
theorem Layout.Fits.name_ne (fits : layout.Fits) (tier_eq : layout.tiers[depth]? = some tier)
    (lt : depth < kept) : ∀ list ∈ (layout.levels.drop kept).flatten, list.name ≠ tier.list.name := by
  intro list member same
  have in_front : tier.list ∈ (layout.levels.take kept).flatten :=
    (list_mem_levelsBelow tier_eq).1 lt
  exact (List.nodup_append.mp (fits.names_split kept)).2.2 tier.list.name
    (List.mem_map_of_mem in_front) list.name (List.mem_map_of_mem member) same.symm

theorem Layout.list_mem_drop (tier_eq : layout.tiers[depth]? = some tier) (le : kept ≤ depth) :
    tier.list ∈ (layout.levels.drop kept).flatten :=
  (list_mem_levelsBelow tier_eq).2 le

end Names

/-! ## Trees in the making -/

/-- The keys of a row, where they are strings. -/
theorem length_of_keysOf {row : Row} {columns keys : List String} (keys_eq : keysOf row columns = .ok keys) :
    keys.length = columns.length := by
  induction columns generalizing keys with
  | nil =>
      cases keys_eq
      rfl
  | cons column rest induction =>
      obtain ⟨key, others, rfl, -, rest_keys⟩ := Growth.exists_of_keysOf_cons keys_eq
      rw [List.length_cons, List.length_cons, induction rest_keys]

theorem keysOf_drop {row : Row} {columns keys : List String} (keys_eq : keysOf row columns = .ok keys)
    (depth : Nat) : keysOf row (columns.drop depth) = .ok (keys.drop depth) := by
  induction depth generalizing columns keys with
  | zero => exact keys_eq
  | succ depth induction =>
      cases columns with
      | nil =>
          cases keys_eq
          rfl
      | cons column rest =>
          obtain ⟨key, others, rfl, -, rest_keys⟩ := Growth.exists_of_keysOf_cons keys_eq
          exact induction rest_keys

theorem keyOf_of_mem {row : Row} {columns keys : List String} (keys_eq : keysOf row columns = .ok keys)
    {column : String} (member : column ∈ columns) : ∃ key, keyOf row column = .ok key := by
  induction columns generalizing keys with
  | nil => cases member
  | cons first rest induction =>
      obtain ⟨key, others, -, key_eq, rest_keys⟩ := Growth.exists_of_keysOf_cons keys_eq
      rcases List.mem_cons.mp member with rfl | in_rest
      · exact ⟨key, key_eq⟩
      · exact induction rest_keys in_rest

/-- A growth with a plant at its root. -/
structure Tended (layout : Layout) (filing : Filing) (growth : Growth) (main : Plant) : Prop where
  /-- No object has two places. -/
  sound : growth.forest.Sound
  /-- The plant is there. -/
  has : growth.forest.Has main.cells
  /-- It stands at the root. -/
  at_root : main.id = Forest.root
  /-- The root has no fields. -/
  no_fields : main.fields = []
  /-- No object occurs twice in it. -/
  single : ∀ id, countIn id main.cells ≤ 1
  /-- It has the shape of the layout. -/
  shaped : main.Shaped layout.leaf layout.tiers
  /-- The keys of the row before are those of the filing. -/
  kept : ∀ keys, growth.keptLevels keys = filing.kept keys
  /-- Every filed row has a key for each map. -/
  lengths : ∀ keys ∈ filing.filed, keys.length = layout.tiers.length
  /-- The plant has the paths of the rows that are filed. -/
  knows : ∀ path, path ≠ [] → (main.at? layout.tiers path).isSome = filing.knows path
  /-- Live objects stand in the plant. -/
  live : ∀ depth tier, depth < filing.previous.length → layout.tiers[depth]? = some tier →
    filing.live depth = true → ∃ object,
      main.at? layout.tiers (filing.previous.take (depth + 1)) = some object ∧
        growth.nodeOf? tier.list.name = some object.id
  /-- Other objects stand outside of it. -/
  dead : ∀ depth tier, depth < filing.previous.length → layout.tiers[depth]? = some tier →
    filing.live depth = false → ∃ node, growth.nodeOf? tier.list.name = some node ∧
      node < growth.forest.next ∧ countIn node main.cells = 0

theorem tended_start (layout : Layout) : Tended layout .start .start (.node Forest.root [] []) where
  sound := Forest.sound_start
  has := by
    intro cell member
    obtain rfl := List.mem_singleton.mp member
    exact ⟨Nat.zero_lt_one, rfl⟩
  at_root := rfl
  no_fields := rfl
  single := by
    intro id
    rw [Plant.cells, limbsCells, countIn_cons, countIn_nil]
    exact List.count_le_length
  shaped := Plant.shaped_of_no_limbs rfl _ _
  kept _ := rfl
  lengths _ member := absurd member List.not_mem_nil
  knows := by
    intro path path_ne
    cases path with
    | nil => exact absurd rfl path_ne
    | cons key path => rw [Plant.at?_of_no_limbs rfl]; rfl
  live := fun _ _ lt => absurd lt (Nat.not_lt_zero _)
  dead := fun _ _ lt => absurd lt (Nat.not_lt_zero _)

/-! ## One more row -/

section AddRow

variable {layout : Layout} {plan : Plan} {filing : Filing} {growth : Growth} {main : Plant} {row : Row}
  {keys : List String}

/-- A plan that follows a layout and has no limit. -/
structure Plan.Follows (plan : Plan) (layout : Layout) : Prop where
  /-- It has the levels of the layout. -/
  levels : plan.levels = layout.levels
  /-- It has the key columns of the layout. -/
  keys : plan.keys = layout.columns
  /-- There is no limit. -/
  unlimited : plan.byteLimit? = none

theorem addRow_eq (follows : plan.Follows layout) (row_keys : keysOf row layout.columns = .ok keys)
    {later : Growth}
    (attached : (orderBelow (layout.levels.drop (growth.keptLevels keys))).foldlM
        (Growth.attach plan row)
        ((layout.levels.drop (growth.keptLevels keys)).flatten.foldl (Growth.renew plan row) growth) =
      .ok later) :
    growth.addRow plan row = .ok { later with previous := some keys } := by
  rw [← follows.levels] at attached
  rw [← follows.keys] at row_keys
  rw [Growth.addRow]
  refine Outcome.bind_eq_ok_iff.mpr ⟨keys, row_keys, Outcome.bind_eq_ok_iff.mpr ⟨later, attached, ?_⟩⟩
  rw [Growth.checkSize, follows.unlimited]

theorem length_eq_tiers (row_keys : keysOf row layout.columns = .ok keys) :
    keys.length = layout.tiers.length := by
  rw [length_of_keysOf row_keys, Layout.columns, List.length_map]

theorem kept_le_tiers (row_keys : keysOf row layout.columns = .ok keys) (filing : Filing) :
    filing.kept keys ≤ layout.tiers.length :=
  length_eq_tiers row_keys ▸ agreement_le_right filing.previous keys

/-- The last object that a filed row goes on filling stands in the plant. -/
theorem Tended.exists_stem (tended : Tended layout filing growth main)
    (row_keys : keysOf row layout.columns = .ok keys) (files : filing.files keys = true) :
    ∃ stem, main.at? layout.tiers (keys.take (filing.kept keys)) = some stem ∧
      growth.parentId (parentAfter none layout.tiers (filing.kept keys)) = stem.id := by
  cases kept_eq : filing.kept keys with
  | zero =>
      refine ⟨main, Plant.at?_nil _ main, ?_⟩
      rw [parentAfter_zero]
      exact tended.at_root.symm
  | succ depth =>
      have kept_le := kept_le_tiers row_keys filing
      have le_previous := agreement_le_left filing.previous keys
      rw [← Filing.kept, kept_eq] at le_previous
      rw [kept_eq] at kept_le
      have is_live : filing.live depth = true := by
        rw [Filing.files, kept_eq] at files
        simpa using files
      have tier_eq : layout.tiers[depth]? = some layout.tiers[depth] :=
        List.getElem?_eq_getElem (Nat.lt_of_succ_le kept_le)
      obtain ⟨object, object_at, node_eq⟩ :=
        tended.live depth _ (Nat.lt_of_succ_le le_previous) tier_eq is_live
      have take_eq : keys.take (depth + 1) = filing.previous.take (depth + 1) :=
        take_of_le_agreement (Nat.le_of_eq kept_eq.symm)
      rw [take_eq, parentAfter_succ tier_eq, Growth.parentId, Option.bind_some, node_eq]
      exact ⟨object, object_at, rfl⟩

/-- New objects are apart from what was there before. -/
theorem Renewed.apart {middle : Growth} {seed : TargetList → Plant} {lists : List TargetList}
    (renewed : Renewed plan row growth middle seed lists) (has : growth.forest.Has main.cells)
    (single : ∀ id, countIn id main.cells ≤ 1) (id : NodeId) :
    countIn id main.cells + countIn id (seedCells seed lists) ≤ 1 := by
  by_cases lt : id < growth.forest.next
  · rw [renewed.countIn_eq_zero lt]
    exact single id
  · rw [has.countIn_eq_zero (Nat.not_lt.mp lt), Nat.zero_add]
    exact renewed.countIn_le_one id

theorem find?_resumed_of_ne {plant : Plant} {current : List (String × NodeId)} {tiers : List Tier}
    {name : String} (ne : ∀ tier ∈ tiers.head?, name ≠ tier.list.name) (keys : List String) :
    find? name (resumed plant current tiers keys) = find? name current := by
  match tiers, keys with
  | [], _ => rfl
  | _ :: _, [] => rfl
  | tier :: rest, key :: keys =>
      rw [resumed]
      split
      · rw [find?_put, if_neg (ne tier rfl)]
      · rfl

/-- The object that a map is filling after a filed row: the one before if the row goes on filling it,
else a new one, or the entry that takes up the new entry of the row. -/
def filledAfter (layout : Layout) (growth : Growth) (seed : TargetList → Plant) (main : Plant)
    (keys : List String) (kept depth : Nat) (tier : Tier) : Option NodeId :=
  if depth < kept then growth.nodeOf? tier.list.name
  else if depth = kept then
    some (((main.at? layout.tiers (keys.take (kept + 1))).map Plant.id).getD (seed tier.list).id)
  else some (seed tier.list).id

theorem nodeOf?_of_filed {middle attached : Growth} {seed : TargetList → Plant} {stem : Plant}
    {kept depth : Nat} {tier : Tier} (fits : layout.Fits) (length_eq : keys.length = layout.tiers.length)
    (renewed : Renewed plan row growth middle seed (layout.levels.drop kept).flatten)
    (stem_eq : main.at? layout.tiers (keys.take kept) = some stem)
    (current_eq : attached.current =
      resumed stem middle.current (layout.tiers.drop kept) (keys.drop kept))
    (tier_eq : layout.tiers[depth]? = some tier) :
    attached.nodeOf? tier.list.name = filledAfter layout growth seed main keys kept depth tier := by
  have seeded : kept ≤ depth → middle.nodeOf? tier.list.name = some (seed tier.list).id := fun le =>
    (renewed.seeded tier.list (Layout.list_mem_drop tier_eq le)).1
  have other_name : ∀ other ∈ (layout.tiers.drop kept).head?, depth ≠ kept →
      tier.list.name ≠ other.list.name := by
    intro other is_head ne
    rw [List.head?_drop] at is_head
    rcases Nat.lt_or_gt_of_ne ne with lt | gt
    · exact (fits.name_ne tier_eq lt other.list (Layout.list_mem_drop is_head (Nat.le_refl _))).symm
    · exact fits.name_ne is_head (Nat.lt_succ_self kept) tier.list
        (Layout.list_mem_drop tier_eq gt)
  rw [Growth.nodeOf?, current_eq, filledAfter]
  split_ifs with is_above is_kept
  · rw [find?_resumed_of_ne fun other is_head => other_name other is_head (Nat.ne_of_lt is_above)]
    exact renewed.others _ (fits.name_ne tier_eq is_above)
  · subst is_kept
    have lt : depth < layout.tiers.length := (List.getElem?_eq_some_iff.mp tier_eq).1
    have lt_keys : depth < keys.length := length_eq ▸ lt
    have tiers_eq : layout.tiers.drop depth = tier :: layout.tiers.drop (depth + 1) := by
      rw [List.drop_eq_getElem_cons lt, (List.getElem?_eq_some_iff.mp tier_eq).2]
    rw [Plant.at?_take_succ tier_eq lt_keys stem_eq, tiers_eq, List.drop_eq_getElem_cons lt_keys, resumed]
    cases stem.entryAt? tier.target keys[depth] with
    | none => exact seeded (Nat.le_refl depth)
    | some existing => exact (find?_put _ _ _ _).trans (if_pos rfl)
  · rw [find?_resumed_of_ne fun other is_head => other_name other is_head is_kept]
    exact seeded (Nat.not_lt.mp is_above)

/-- The last object that a row goes on filling does not change with its new objects. -/
theorem Renewed.parentId_eq {middle : Growth} {seed : TargetList → Plant} {kept : Nat}
    (renewed : Renewed plan row growth middle seed (layout.levels.drop kept).flatten)
    (fits : layout.Fits) (kept_le : kept ≤ layout.tiers.length) :
    middle.parentId (parentAfter none layout.tiers kept) =
      growth.parentId (parentAfter none layout.tiers kept) := by
  cases kept with
  | zero =>
      rw [parentAfter_zero]
      rfl
  | succ depth =>
      have tier_eq : layout.tiers[depth]? = some layout.tiers[depth] :=
        List.getElem?_eq_getElem (Nat.lt_of_succ_le kept_le)
      rw [parentAfter_succ tier_eq]
      exact congrArg (·.getD Forest.root)
        (renewed.others _ (fits.name_ne tier_eq (Nat.lt_succ_self depth)))

/-- What is folded into the last object that a row goes on filling is made anew, apart from the new
entries. -/
theorem Renewed.countIn_inlinesAfter {middle : Growth} {seed : TargetList → Plant} {kept depth : Nat}
    {tier : Tier} (renewed : Renewed plan row growth middle seed (layout.levels.drop kept).flatten)
    (tier_eq : layout.tiers[depth]? = some tier) (lt : kept < depth) :
    countIn (seed tier.list).id (seedCells seed (inlinesAfter [] layout.tiers kept)) = 0 := by
  have lt_tiers := (List.getElem?_eq_some_iff.mp tier_eq).1
  have kept_le : kept ≤ layout.tiers.length := by omega
  have levels_eq : layout.levels.drop kept = levelsBelow layout.leaf
      (inlinesAfter [] layout.tiers kept) (layout.tiers.drop kept) := drop_levelsBelow kept_le
  have tier_in : tier.list ∈ (layout.levels.drop (kept + 1)).flatten :=
    Layout.list_mem_drop tier_eq lt
  rw [← List.tail_drop, levels_eq, List.drop_eq_getElem_cons (by omega : kept < layout.tiers.length),
    levelsBelow, List.tail_cons] at tier_in
  have nodup := renewed.nodup
  rw [levels_eq, List.drop_eq_getElem_cons (by omega : kept < layout.tiers.length), levelsBelow,
    List.flatten_cons, List.append_assoc, List.map_append] at nodup
  rw [renewed.countIn_eq, List.count_eq_zero]
  intro member
  refine (List.nodup_append.mp nodup).2.2 _ member _ (List.mem_map_of_mem ?_) rfl
  exact List.mem_append_right _ tier_in

theorem Tended.isSome_take (tended : Tended layout filing growth main) {depth : Nat}
    (lt : depth < keys.length) :
    (main.at? layout.tiers (keys.take (depth + 1))).isSome = filing.knows (keys.take (depth + 1)) := by
  refine tended.knows _ fun nothing => ?_
  have length_zero := congrArg List.length nothing
  rw [List.length_take_of_le lt] at length_zero
  cases length_zero

/-- Live objects stand in the plant after a filed row. -/
theorem Tended.live_filed (tended : Tended layout filing growth main) {showNull : Bool}
    {seed : TargetList → Plant} {beside : List TargetList} {grown : Plant} {depth : Nat} {tier : Tier}
    (length_eq : keys.length = layout.tiers.length) (files : filing.files keys = true)
    (extended : Extended showNull seed layout.leaf beside (filing.kept keys) layout.tiers keys main grown)
    (tier_eq : layout.tiers[depth]? = some tier) (is_live : (filing.next keys).live depth = true) :
    ∃ object, grown.at? layout.tiers (keys.take (depth + 1)) = some object ∧
      filledAfter layout growth seed main keys (filing.kept keys) depth tier = some object.id := by
  have lt : depth < keys.length := length_eq ▸ (List.getElem?_eq_some_iff.mp tier_eq).1
  rw [Filing.live_next] at is_live
  rw [filledAfter]
  split_ifs at is_live ⊢ with is_above is_kept
  · have lt_previous := Nat.lt_of_lt_of_le is_above (agreement_le_left filing.previous keys)
    obtain ⟨object, object_at, object_node⟩ := tended.live depth tier lt_previous tier_eq is_live
    rw [← take_of_le_agreement is_above] at object_at
    obtain ⟨grown_object, grown_at, grown_id⟩ := extended.same _ object object_at
    exact ⟨grown_object, grown_at, object_node.trans (congrArg some grown_id.symm)⟩
  · have take_eq : keys.take (depth + 1) = keys.take (filing.kept keys + 1) := by rw [is_kept]
    cases found : main.at? layout.tiers (keys.take (filing.kept keys + 1)) with
    | none =>
        obtain ⟨object, object_at, object_id⟩ :=
          extended.new depth tier (Nat.not_lt.mp is_above) tier_eq (take_eq ▸ found)
        exact ⟨object, object_at, congrArg some object_id.symm⟩
    | some existing =>
        obtain ⟨object, object_at, object_id⟩ := extended.same _ existing (take_eq ▸ found)
        exact ⟨object, object_at, congrArg some object_id.symm⟩
  · have absent : main.at? layout.tiers (keys.take (depth + 1)) = none := by
      rw [← Option.isNone_iff_eq_none, ← Option.not_isSome, tended.isSome_take lt]
      simpa [files, is_kept] using is_live
    obtain ⟨object, object_at, object_id⟩ :=
      extended.new depth tier (Nat.not_lt.mp is_above) tier_eq absent
    exact ⟨object, object_at, congrArg some object_id.symm⟩

/-- Other objects stand outside of the plant after a filed row. -/
theorem Tended.dead_filed (tended : Tended layout filing growth main) {showNull : Bool}
    {seed : TargetList → Plant} {middle : Growth} {grown : Plant} {depth : Nat} {tier : Tier}
    (length_eq : keys.length = layout.tiers.length) (files : filing.files keys = true)
    (renewed : Renewed plan row growth middle seed (layout.levels.drop (filing.kept keys)).flatten)
    (extended : Extended showNull seed layout.leaf (inlinesAfter [] layout.tiers (filing.kept keys))
      (filing.kept keys) layout.tiers keys main grown)
    (count : ∀ id, countIn id grown.cells ≤ countIn id main.cells +
      countIn id (seedCells seed (layout.levels.drop (filing.kept keys)).flatten))
    (tier_eq : layout.tiers[depth]? = some tier) (is_dead : (filing.next keys).live depth = false) :
    ∃ node, filledAfter layout growth seed main keys (filing.kept keys) depth tier = some node ∧
      node < middle.forest.next ∧ countIn node grown.cells = 0 := by
  have lt : depth < keys.length := length_eq ▸ (List.getElem?_eq_some_iff.mp tier_eq).1
  rw [Filing.live_next] at is_dead
  rw [filledAfter]
  split_ifs at is_dead ⊢ with is_above is_kept
  · have lt_previous := Nat.lt_of_lt_of_le is_above (agreement_le_left filing.previous keys)
    obtain ⟨node, node_eq, node_lt, apart_main⟩ := tended.dead depth tier lt_previous tier_eq is_dead
    refine ⟨node, node_eq, Nat.lt_of_lt_of_le node_lt renewed.next_le, ?_⟩
    have count := count node
    rw [apart_main, renewed.countIn_eq_zero node_lt] at count
    exact Nat.le_zero.mp count
  · simp [files, is_kept] at is_dead
  · obtain ⟨existing, present⟩ : ∃ existing,
        main.at? layout.tiers (keys.take (depth + 1)) = some existing := by
      rw [← Option.isSome_iff_exists, tended.isSome_take lt]
      simpa [files, is_kept] using is_dead
    have below : filing.kept keys < depth := by omega
    have tier_in := Layout.list_mem_drop tier_eq (Nat.not_lt.mp is_above)
    refine ⟨_, rfl, (renewed.seeded tier.list tier_in).2.root.1, ?_⟩
    exact extended.taken depth tier existing below tier_eq present
      (tended.has.countIn_eq_zero (renewed.fresh tier.list tier_in))
      (renewed.countIn_inlinesAfter tier_eq below)

/-- A filed row extends the plant. -/
theorem Tended.addRow_filed (tended : Tended layout filing growth main) (fits : layout.Fits)
    (follows : plan.Follows layout) (row_keys : keysOf row layout.columns = .ok keys)
    (files : filing.files keys = true) :
    ∃ later seed, growth.addRow plan row = .ok later ∧
      (∀ list, (seed list).fields = fieldsOf plan row list) ∧ (∀ list, (seed list).limbs = []) ∧
      Extended plan.showNull seed layout.leaf (inlinesAfter [] layout.tiers (filing.kept keys))
        (filing.kept keys) layout.tiers keys main
        (extend plan.showNull seed layout.leaf (filing.kept keys) [] layout.tiers keys main) ∧
      Tended layout (filing.next keys) later
        (extend plan.showNull seed layout.leaf (filing.kept keys) [] layout.tiers keys main) := by
  have kept_le := kept_le_tiers row_keys filing
  have length_eq := length_eq_tiers row_keys
  obtain ⟨stem, stem_eq, parent_eq⟩ := tended.exists_stem row_keys files
  obtain ⟨seed, renewed⟩ := exists_renewed plan row growth (fits.names_drop (filing.kept keys))
  have levels_eq : layout.levels.drop (filing.kept keys) =
      levelsBelow layout.leaf (inlinesAfter [] layout.tiers (filing.kept keys))
        (layout.tiers.drop (filing.kept keys)) := drop_levelsBelow kept_le
  have apart := renewed.apart tended.has tended.single
  have ready : Growth.Ready ((layout.levels.drop (filing.kept keys)).flatten.foldl
      (Growth.renew plan row) growth) seed (parentAfter none layout.tiers (filing.kept keys))
      (layout.levels.drop (filing.kept keys)).flatten stem := by
    refine ⟨renewed.tidy tended.sound.tidy, renewed.has (tended.has.at? stem_eq), ?_,
      renewed.seeded, fun id => ?_⟩
    · exact (renewed.parentId_eq fits kept_le).trans parent_eq
    · have stem_le := Plant.countIn_at?_le stem_eq id
      have apart := apart id
      omega
  have rest_fits := fits.below.drop kept_le
  have rest_keys := keysOf_drop row_keys (filing.kept keys)
  rw [Layout.columns, ← List.map_drop] at rest_keys
  rw [levels_eq] at ready
  have ripe := ready.ripe plan rest_fits renewed.no_limbs rest_keys
  obtain ⟨attached, attach_eq, regrown, current_eq⟩ :=
    Growth.attach_below rest_fits renewed.no_limbs rest_keys ready
  rw [← levels_eq] at attach_eq regrown current_eq
  have grown := regrown.extend (renewed.tidy tended.sound.tidy) (renewed.has tended.has) apart kept_le
    length_eq stem_eq
  have extended := extended_extend fits.below renewed.no_limbs length_eq kept_le tended.shaped
    (tended.has.tidy tended.sound.tidy) stem_eq ripe
  have root_lt : Forest.root < growth.forest.next := tended.at_root ▸ tended.has.root.1
  have sound : attached.forest.Sound :=
    renewed.sound tended.sound root_lt (fits.names_drop (filing.kept keys)) attach_eq
  refine ⟨{ attached with previous := some keys }, seed, ?_, renewed.fields, renewed.no_limbs, extended,
    ⟨sound, grown.has, grown.id.trans tended.at_root, (fields_extend _ _ _ _ _ main).trans
      tended.no_fields, fun id => ?_, extended.shaped, fun _ => rfl, fun other member => ?_, ?_, ?_, ?_⟩⟩
  · exact addRow_eq follows row_keys (by rw [tended.kept]; exact attach_eq)
  · exact Nat.le_trans (grown.count id) (apart id)
  · rw [Filing.next, files, if_pos rfl] at member
    rcases List.mem_append.mp member with in_filed | is_new
    · exact tended.lengths other in_filed
    · exact List.mem_singleton.mp is_new ▸ length_eq
  · intro path path_ne
    rw [Bool.eq_iff_iff, extended.isSome, tended.knows path path_ne, Filing.knows_next, files]
    simp
  · intro depth tier _ tier_eq is_live
    obtain ⟨object, object_at, object_node⟩ :=
      tended.live_filed length_eq files extended tier_eq is_live
    exact ⟨object, object_at,
      (nodeOf?_of_filed fits length_eq renewed stem_eq current_eq tier_eq).trans object_node⟩
  · intro depth tier _ tier_eq is_dead
    obtain ⟨node, node_eq, node_lt, node_apart⟩ :=
      tended.dead_filed length_eq files renewed extended grown.count tier_eq is_dead
    exact ⟨node, (nodeOf?_of_filed fits length_eq renewed stem_eq current_eq tier_eq).trans node_eq,
      regrown.next.symm ▸ node_lt, node_apart⟩

/-- What a row fills from an object outside of the plant on stands apart from the plant. -/
theorem Tended.aside (tended : Tended layout filing growth main) (fits : layout.Fits)
    {middle : Growth} {seed : TargetList → Plant} {kept depth : Nat} {tier : Tier} {stem : NodeId}
    (renewed : Renewed plan row growth middle seed (layout.levels.drop kept).flatten)
    (tier_eq : layout.tiers[depth]? = some tier) (lt : depth < kept)
    (stem_eq : growth.nodeOf? tier.list.name = some stem) (stem_lt : stem < growth.forest.next)
    (stem_apart : countIn stem main.cells = 0) :
    Aside middle main (tier.list.name :: (layout.levels.drop kept).flatten.map (·.name)) := by
  have sound := renewed.middle_sound tended.sound
  refine ⟨sound.tidy, fun place member => (sound.within place member).2, fun id apart place member =>
    closed_of_sound sound (renewed.has tended.has) tended.at_root apart member, fun name member => ?_⟩
  rcases List.mem_cons.mp member with rfl | in_lists
  · refine ⟨stem, ?_, Nat.lt_of_lt_of_le stem_lt renewed.next_le, stem_apart⟩
    exact (renewed.others _ (fits.name_ne tier_eq lt)).trans stem_eq
  · obtain ⟨list, list_in, rfl⟩ := List.mem_map.mp in_lists
    obtain ⟨node_eq, has_list⟩ := renewed.seeded list list_in
    exact ⟨_, node_eq, has_list.root.1, tended.has.countIn_eq_zero (renewed.fresh list list_in)⟩

/-- What a row attaches below the objects that it goes on filling attaches to one of them or to
something that it attaches itself. -/
theorem parentList_of_mem_orderBelow (fits : layout.Fits) {depth : Nat} {tier : Tier}
    (tier_eq : layout.tiers[depth]? = some tier) {list : TargetList}
    (member : list ∈ orderBelow (layout.levels.drop (depth + 1))) :
    ∃ name ∈ tier.list.name :: (layout.levels.drop (depth + 1)).flatten.map (·.name),
      list.lookUp.parentList = some name := by
  have kept_le : depth + 1 ≤ layout.tiers.length := (List.getElem?_eq_some_iff.mp tier_eq).1
  have levels_eq : layout.levels.drop (depth + 1) = levelsBelow layout.leaf
      (inlinesAfter [] layout.tiers (depth + 1)) (layout.tiers.drop (depth + 1)) :=
    drop_levelsBelow kept_le
  have list_in := (orderBelow_perm _).mem_iff.mp member
  rw [levels_eq] at list_in
  rcases parentList_of_fits (fits.below.drop kept_le) list_in with at_stem | ⟨other, other_in, at_other⟩
  · rw [parentAfter_succ tier_eq] at at_stem
    exact ⟨_, List.mem_cons_self, at_stem⟩
  · rw [← levels_eq] at other_in
    exact ⟨other.name, List.mem_cons_of_mem _ (List.mem_map_of_mem other_in), at_other⟩

variable (plan) in
/-- A row with a key for each map attaches all that it makes anew. -/
theorem exists_attach_drop (fits : layout.Fits) (row_keys : keysOf row layout.columns = .ok keys)
    {kept : Nat} (kept_le : kept ≤ layout.tiers.length) (middle : Growth) :
    ∃ later, (orderBelow (layout.levels.drop kept)).foldlM (Growth.attach plan row) middle =
      .ok later := by
  have levels_eq : layout.levels.drop kept = levelsBelow layout.leaf
      (inlinesAfter [] layout.tiers kept) (layout.tiers.drop kept) := drop_levelsBelow kept_le
  refine Growth.exists_attach_all (fun list member is_map column keyed => ?_) middle
  have list_in := (orderBelow_perm _).mem_iff.mp member
  rw [levels_eq] at list_in
  have column_in := column_mem_of_fits (fits.below.drop kept_le) list_in is_map keyed
  rw [List.map_drop] at column_in
  exact keyOf_of_mem row_keys (List.mem_of_mem_drop column_in)

/-- A lost row leaves the plant as it is. -/
theorem Tended.addRow_lost (tended : Tended layout filing growth main) (fits : layout.Fits)
    (follows : plan.Follows layout) (row_keys : keysOf row layout.columns = .ok keys)
    (lost : filing.files keys = false) :
    ∃ later, growth.addRow plan row = .ok later ∧ Tended layout (filing.next keys) later main := by
  have kept_le := kept_le_tiers row_keys filing
  have le_previous : filing.kept keys ≤ filing.previous.length := agreement_le_left filing.previous keys
  obtain ⟨depth, kept_eq, is_dead⟩ : ∃ depth, filing.kept keys = depth + 1 ∧ filing.live depth = false := by
    rw [Filing.files] at lost
    cases kept_eq : filing.kept keys with
    | zero => simp [kept_eq] at lost
    | succ depth => exact ⟨depth, rfl, by simpa [kept_eq] using lost⟩
  have tier_eq : layout.tiers[depth]? = some layout.tiers[depth] := List.getElem?_eq_getElem (by omega)
  obtain ⟨stem, stem_eq, stem_lt, stem_apart⟩ := tended.dead depth _ (by omega) tier_eq is_dead
  obtain ⟨seed, renewed⟩ := exists_renewed plan row growth (fits.names_drop (filing.kept keys))
  have order_perm := orderBelow_perm (layout.levels.drop (filing.kept keys))
  have root_lt : Forest.root < growth.forest.next := tended.at_root ▸ tended.has.root.1
  have aside := tended.aside fits renewed tier_eq (by omega) stem_eq stem_lt stem_apart
  obtain ⟨attached, attach_eq⟩ := exists_attach_drop plan fits row_keys kept_le
    ((layout.levels.drop (filing.kept keys)).flatten.foldl (Growth.renew plan row) growth)
  obtain ⟨later_aside, same⟩ := aside.attach_all (fun list member => by
    refine ⟨List.mem_cons_of_mem _ (List.mem_map_of_mem (order_perm.mem_iff.mp member)), ?_⟩
    rw [kept_eq] at member ⊢
    exact parentList_of_mem_orderBelow fits tier_eq member) attach_eq
  have steady := Growth.steady_of_attach_all (renewed.tidy tended.sound.tidy)
    ((order_perm.map (·.name)).nodup_iff.mpr (fits.names_drop (filing.kept keys)))
    (fun list member => (renewed.seeded list (order_perm.mem_iff.mp member)).1) attach_eq
  have next_le : growth.forest.next ≤ attached.forest.next := steady.next ▸ renewed.next_le
  have above_same : ∀ level tier, level < filing.kept keys → layout.tiers[level]? = some tier →
      attached.nodeOf? tier.list.name = growth.nodeOf? tier.list.name := by
    intro level tier lt tier_eq
    have other_name := fits.name_ne tier_eq lt
    refine (steady.others _ fun member => ?_).trans (renewed.others _ other_name)
    obtain ⟨list, list_in, same_name⟩ := List.mem_map.mp member
    exact other_name list (order_perm.mem_iff.mp list_in) same_name
  have sound : attached.forest.Sound :=
    renewed.sound tended.sound root_lt (fits.names_drop (filing.kept keys)) attach_eq
  refine ⟨{ attached with previous := some keys }, ?_, sound, ?_, tended.at_root, tended.no_fields,
    tended.single, tended.shaped, fun _ => rfl, fun other member => ?_, ?_, ?_, ?_⟩
  · exact addRow_eq follows row_keys (by rw [tended.kept]; exact attach_eq)
  · exact (renewed.has tended.has).transfer (Nat.le_of_eq steady.next.symm) same
  · rw [Filing.next, lost, if_neg Bool.false_ne_true] at member
    exact tended.lengths other member
  · intro path path_ne
    rw [tended.knows path path_ne, Filing.knows_next, lost, Bool.false_and, Bool.or_false]
  · intro level tier lt tier_eq is_live
    rw [Filing.live_next] at is_live
    split_ifs at is_live with is_above
    · obtain ⟨object, object_at, node_eq⟩ := tended.live level tier (by omega) tier_eq is_live
      rw [← take_of_le_agreement is_above] at object_at
      exact ⟨object, object_at, (above_same level tier is_above tier_eq).trans node_eq⟩
    · rw [lost] at is_live
      cases is_live
  · intro level tier lt tier_eq is_dead
    rw [Filing.live_next] at is_dead
    split_ifs at is_dead with is_above
    · obtain ⟨node, node_eq, node_lt, node_apart⟩ := tended.dead level tier (by omega) tier_eq is_dead
      exact ⟨node, (above_same level tier is_above tier_eq).trans node_eq,
        Nat.lt_of_lt_of_le node_lt next_le, node_apart⟩
    · have tier_in := Layout.list_mem_drop tier_eq (Nat.not_lt.mp is_above)
      exact later_aside.nodes _ (List.mem_cons_of_mem _ (List.mem_map_of_mem tier_in))

end AddRow

/-! ## Trees of layouts -/

section Plans

variable {layout : Layout} {sizeLimit : Int} {first : Row}

theorem Layout.follows_showing (layout : Layout) (showNull : Bool) (unlimited : sizeLimit ≤ 0)
    (first : Row) : { layout.plan sizeLimit first with showNull }.Follows layout :=
  ⟨rfl, rfl, if_neg (Int.not_lt.mpr unlimited)⟩

theorem Layout.follows (layout : Layout) (unlimited : sizeLimit ≤ 0) (first : Row) :
    (layout.plan sizeLimit first).Follows layout :=
  layout.follows_showing false unlimited first

/-- The columns that a plan has for a list of its layout. -/
theorem Layout.find?_columns (fits : layout.Fits) {list : TargetList}
    (member : list ∈ layout.levels.flatten) :
    find? list.name (layout.plan sizeLimit first).columns = some (columnsOf list first) := by
  have names : ((layout.levels.flatten.map fun list => (list.name, columnsOf list first)).map
      (·.1)).Nodup := by
    rw [List.map_map]
    exact fits.names
  rw [Layout.plan, find?_mapOfList names]
  exact find?_eq_some_of_mem names (List.mem_map_of_mem member)

/-- The new objects of a row have its cells in the columns of the first row. -/
theorem fieldsOf_plan (fits : layout.Fits) {list : TargetList}
    (member : list ∈ layout.levels.flatten) (row : Row) :
    fieldsOf (layout.plan sizeLimit first) row list =
      (objectOf false (columnsOf list first) row).fields := by
  rw [fieldsOf, Layout.find?_columns fits member, Option.getD_some]
  rfl

/-- The tree of some rows is what stands at the root after all of them. -/
theorem ofRows_eq (served : layout ∈ Layout.served) {rest : List Row} {growth : Growth}
    (grown : (first :: rest).foldlM (Growth.addRow (layout.plan sizeLimit first)) .start = .ok growth) :
    ofRows Mobility.catalogue layout.entry layout.exits false sizeLimit (first :: rest) =
      .ok growth.forest.render := by
  rw [ofRows]
  exact Outcome.bind_eq_ok_iff.mpr
    ⟨_, Layout.planFor_eq served sizeLimit first, Outcome.bind_eq_ok_iff.mpr ⟨growth, grown, rfl⟩⟩

theorem Tended.render {filing : Filing} {growth : Growth} {main : Plant}
    (tended : Tended layout filing growth main) :
    growth.forest.render = .object (limbsJson main.limbs) := by
  have tidy := ascending_limbs (tended.has.tidy tended.sound.tidy).root
  rw [Forest.render_of_has tended.has tended.single tended.at_root, Plant.json_eq, tended.no_fields,
    limbsJson_eq_map]
  exact congrArg Json.object (mapOfList_of_ascending (tidy.map Limb.json))

end Plans

end StationGateway.Tree
