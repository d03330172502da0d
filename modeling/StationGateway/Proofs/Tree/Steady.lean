import StationGateway.Proofs.Tree.Renew

/-!
# What attaching leaves alone

Whatever the objects of a row attach to, no object gets a second place, and what stands apart from
all of them is left as it is. -/

namespace StationGateway.Tree

open StationGateway.Order

namespace Growth

variable {plan : Plan} {row : Row} {growth later : Growth} {list : TargetList}
  {node parent : NodeId}

/-! ## One object -/

/-- What attaching an object to a parent can do. -/
inductive Attaches (growth : Growth) (list : String) (node parent : NodeId) : Growth → Prop where
  /-- There is nothing to attach. -/
  | idle : Attaches growth list node parent growth
  /-- The parent changes, and the object gets at most one place below it. -/
  | change (change : Node → Node) (tidy : (change (growth.forest.get parent)).Tidy)
      (count : ∀ id, (change (growth.forest.get parent)).places.count id ≤
        (growth.forest.get parent).places.count id + [node].count id) :
      Attaches growth list node parent (growth.update parent change)
  /-- An object that stands below the parent takes up the new one. -/
  | takeUp (existing : NodeId) (below : existing ∈ (growth.forest.get parent).places) :
      Attaches growth list node parent (growth.takeUp list node existing)

theorem mem_places {object : Node} {name : String} {child : Child} {id : NodeId}
    (found : find? name object.children = some child) (member : id ∈ child.places) :
    id ∈ object.places :=
  List.mem_flatMap.mpr ⟨(name, child), mem_of_find? found, member⟩

theorem attaches_setChild (tidy : (growth.forest.get parent).Tidy) {name : String} {child : Child}
    (child_tidy : child.Tidy)
    (count : ∀ id, child.places.count id ≤
      ((find? name (growth.forest.get parent).children).map fun old => old.places.count id).getD 0 +
        [node].count id) :
    Attaches growth list.name node parent (growth.update parent (Node.setChild name child)) := by
  refine .change _ (tidy.setChild name child_tidy) fun id => ?_
  have counted := Node.count_places_setChild tidy name child id
  have count := count id
  omega

theorem attaches_attachInline (tidy : (growth.forest.get parent).Tidy) (showNull : Bool)
    (target : String) :
    Attaches growth list.name node parent (growth.attachInline showNull node parent target) := by
  rw [attachInline]
  split
  · exact .change _ (tidy.dropChild target) fun id =>
      Nat.le_trans (Node.count_places_dropChild_le _ target id) (Nat.le_add_right _ _)
  · exact attaches_setChild tidy (Child.tidy_object node) fun id => Nat.le_add_left _ _

theorem attaches_attachMerged (tidy : (growth.forest.get parent).Tidy) (showNull : Bool)
    (target : String) :
    Attaches growth list.name node parent (growth.attachMerged showNull node parent target) := by
  rw [attachMerged]
  split
  · exact .idle
  · exact .change _ (tidy.setField target _) fun id => Nat.le_add_right _ _

theorem attaches_attachElement (tidy : (growth.forest.get parent).Tidy) (showNull : Bool)
    (target : String) :
    Attaches growth list.name node parent (growth.attachElement showNull node parent target) := by
  rw [attachElement]
  split
  · exact .idle
  · exact .change _ (tidy.pushItem target node) (Node.count_places_pushItem_le tidy target node)

theorem attaches_attachRootEntry (tidy : (growth.forest.get parent).Tidy) (key : String) :
    Attaches growth list.name node parent (growth.attachRootEntry list.name node parent key) := by
  rw [attachRootEntry]
  split
  next existing found =>
    exact .takeUp existing (mem_places found List.mem_cons_self)
  next => exact attaches_setChild tidy (Child.tidy_object node) fun id => Nat.le_add_left _ _

theorem attaches_attachEntry (tidy : (growth.forest.get parent).Tidy) (target key : String) :
    Attaches growth list.name node parent (growth.attachEntry list.name node parent target key) := by
  rw [attachEntry]
  split
  next absent =>
    refine attaches_setChild tidy (Child.tidy_map (ascending_singleton _)) fun id => ?_
    exact Nat.le_add_left _ _
  next entries found =>
    split
    next existing found_entry =>
      exact .takeUp existing (mem_places found (List.mem_map_of_mem (mem_of_find? found_entry)))
    next absent =>
      have entries_ascending := tidy.child found entries rfl
      refine attaches_setChild tidy (Child.tidy_map (entries_ascending.put key node)) fun id => ?_
      have put_eq := total_put entries_ascending (fun node => [node].count id) key node
      rw [absent, Option.map_none, Option.getD_none] at put_eq
      rw [found, Option.map_some, Option.getD_some, Child.count_map, Child.count_map]
      exact Nat.le_of_eq put_eq
  next => exact .idle

/-- Attaching the object of a list does one of these. -/
theorem attaches_of_attach (tidy : ∀ id, (growth.forest.get id).Tidy)
    (node_eq : growth.nodeOf? list.name = some node)
    (attached : attach plan row growth list = .ok later) :
    Attaches growth list.name node (growth.parentOf list.lookUp) later := by
  have parent_tidy := tidy (growth.parentOf list.lookUp)
  rw [attach, node_eq] at attached
  dsimp only at attached
  split at attached
  · rw [attachKeyed] at attached
    split at attached
    · cases attached
      exact .idle
    · obtain ⟨key, -, found⟩ := Outcome.bind_eq_ok_iff.mp attached
      split at found
      · cases found
        exact attaches_attachRootEntry parent_tidy key
      · cases found
        exact attaches_attachEntry parent_tidy _ key
  · cases attached
    exact .idle
  · cases attached
    exact attaches_attachInline parent_tidy _ _
  · cases attached
    exact attaches_attachMerged parent_tidy _ _
  · cases attached
    exact attaches_attachElement parent_tidy _ _

/-- Attaching succeeds if the row has the keys of maps. -/
theorem exists_attach
    (keyed : list.lookUp.attachment = .map → ∀ column ∈ list.lookUp.key, ∃ key,
      keyOf row column = .ok key) :
    ∃ later, attach plan row growth list = .ok later := by
  rw [attach]
  split
  · exact ⟨growth, rfl⟩
  · dsimp only
    split
    next kind =>
      rw [attachKeyed]
      split
      · exact ⟨growth, rfl⟩
      next column found =>
        obtain ⟨key, key_eq⟩ := keyed kind column found
        rw [key_eq]
        dsimp only [bind, Except.bind]
        split
        · exact ⟨_, rfl⟩
        · exact ⟨_, rfl⟩
    all_goals exact ⟨_, rfl⟩

/-! ## Places -/

/-- A growth whose forest has at most some more places than another one, and whose lists go on
filling their objects except for some. -/
structure Steady (growth later : Growth) (names : List String) (places : List NodeId) : Prop where
  /-- Maps stay ascending. -/
  tidy : ∀ id, (later.forest.get id).Tidy
  /-- No object is added. -/
  next : later.forest.next = growth.forest.next
  /-- At most the given places are added. -/
  count : ∀ id, later.forest.places.count id ≤ growth.forest.places.count id + places.count id
  /-- Other lists go on filling their objects. -/
  others : ∀ name, name ∉ names → later.nodeOf? name = growth.nodeOf? name

theorem Attaches.steady (attaches : Attaches growth list.name node parent later)
    (tidy : ∀ id, (growth.forest.get id).Tidy) : growth.Steady later [list.name] [node] := by
  cases attaches with
  | idle => exact ⟨tidy, rfl, fun id => Nat.le_add_right _ _, fun _ _ => rfl⟩
  | change change change_tidy count =>
      refine ⟨fun id => ?_, Forest.next_update _ _ _, fun id => ?_, fun _ _ => rfl⟩
      · exact Forest.forall_get_update tidy change_tidy id
      · exact Forest.count_places_update_le (count id)
  | takeUp existing below =>
      obtain ⟨absorbed_tidy, count⟩ := Forest.absorb_tidy tidy node existing
      refine ⟨absorbed_tidy, next_absorb _ _ _, fun id => ?_, fun name other => ?_⟩
      · exact Nat.le_trans (count id) (Nat.le_add_right _ _)
      · rw [List.mem_singleton] at other
        exact (find?_put name list.name existing growth.current).trans (if_neg other)

/-- Attaching the objects of several lists adds at most one place for each. -/
theorem steady_of_attach_all {seed : TargetList → Plant} {order : List TargetList}
    (tidy : ∀ id, (growth.forest.get id).Tidy) (names : (order.map (·.name)).Nodup)
    (seeded : ∀ list ∈ order, growth.nodeOf? list.name = some (seed list).id)
    (attached : order.foldlM (attach plan row) growth = .ok later) :
    growth.Steady later (order.map (·.name)) (order.map fun list => (seed list).id) := by
  induction order generalizing growth with
  | nil =>
      cases attached
      exact ⟨tidy, rfl, fun id => Nat.le_refl _, fun _ _ => rfl⟩
  | cons list rest induction =>
      obtain ⟨name_new, rest_names⟩ := List.nodup_cons.mp names
      rw [List.foldlM_cons] at attached
      obtain ⟨middle, attached_list, attached_rest⟩ := Outcome.bind_eq_ok_iff.mp attached
      have first := (attaches_of_attach tidy (seeded list List.mem_cons_self) attached_list).steady tidy
      have rest_seeded : ∀ other ∈ rest, middle.nodeOf? other.name = some (seed other).id := by
        intro other member
        have other_name : other.name ∉ [list.name] := by
          rw [List.mem_singleton]
          exact fun same => name_new (List.mem_map.mpr ⟨other, member, same⟩)
        rw [first.others other.name other_name]
        exact seeded other (List.mem_cons_of_mem list member)
      have second := induction first.tidy rest_names rest_seeded attached_rest
      refine ⟨second.tidy, second.next.trans first.next, fun id => ?_, fun name absent => ?_⟩
      · have first_count := first.count id
        have second_count := second.count id
        have split_first : ((list :: rest).map fun list => (seed list).id).count id =
            [(seed list).id].count id + (rest.map fun list => (seed list).id).count id := by
          rw [List.map_cons, ← List.singleton_append, List.count_append]
        omega
      · rw [List.map_cons, List.mem_cons, not_or] at absent
        rw [second.others name absent.2, first.others name (by simpa using absent.1)]

/-- Attaching several objects succeeds if the row has the keys of maps. -/
theorem exists_attach_all {order : List TargetList}
    (keyed : ∀ list ∈ order, list.lookUp.attachment = .map → ∀ column ∈ list.lookUp.key, ∃ key,
      keyOf row column = .ok key) (growth : Growth) :
    ∃ later, order.foldlM (attach plan row) growth = .ok later := by
  induction order generalizing growth with
  | nil => exact ⟨growth, rfl⟩
  | cons list rest induction =>
      obtain ⟨middle, attached⟩ := @exists_attach plan row growth list (keyed list List.mem_cons_self)
      rw [List.foldlM_cons, attached]
      exact induction (fun other member => keyed other (List.mem_cons_of_mem list member)) middle

end Growth

/-- The lists of some levels attach in another order. -/
theorem orderBelow_perm (levels : List (List TargetList)) : (orderBelow levels).Perm levels.flatten := by
  induction levels with
  | nil => exact .nil
  | cons level rest induction =>
      have level_perm : (Growth.attachOrder level).Perm level := List.filter_append_perm _ level
      rw [orderBelow_cons, List.flatten_cons]
      exact (induction.append level_perm).trans List.perm_append_comm

/-- New objects leave a forest sound. -/
theorem Renewed.middle_sound {plan : Plan} {row : Row} {growth middle : Growth}
    {seed : TargetList → Plant} {lists : List TargetList}
    (renewed : Renewed plan row growth middle seed lists) (sound : growth.forest.Sound) :
    middle.forest.Sound := by
  refine ⟨renewed.tidy sound.tidy, fun id => renewed.places ▸ sound.single id, fun id member => ?_⟩
  obtain ⟨not_root, lt⟩ := sound.within id (renewed.places ▸ member)
  exact ⟨not_root, Nat.lt_of_lt_of_le lt renewed.next_le⟩

/-- A row leaves a forest sound. -/
theorem Renewed.sound {plan : Plan} {row : Row} {growth middle later : Growth}
    {seed : TargetList → Plant} {levels : List (List TargetList)}
    (renewed : Renewed plan row growth middle seed levels.flatten) (sound : growth.forest.Sound)
    (root_lt : Forest.root < growth.forest.next) (names : (levels.flatten.map (·.name)).Nodup)
    (attached : (orderBelow levels).foldlM (Growth.attach plan row) middle = .ok later) :
    later.forest.Sound := by
  have order_perm := orderBelow_perm levels
  have steady := Growth.steady_of_attach_all (renewed.tidy sound.tidy)
    ((order_perm.map (·.name)).nodup_iff.mpr names)
    (fun list member => (renewed.seeded list (order_perm.mem_iff.mp member)).1) attached
  have count_le : ∀ id, later.forest.places.count id ≤
      growth.forest.places.count id + (levels.flatten.map fun list => (seed list).id).count id := by
    intro id
    have count := steady.count id
    rwa [renewed.places, (order_perm.map fun list => (seed list).id).count_eq] at count
  have seed_le : ∀ id, (levels.flatten.map fun list => (seed list).id).count id ≤ 1 :=
    List.nodup_iff_count_le_one.mp renewed.nodup
  have old_or_new : ∀ id, 0 < (levels.flatten.map fun list => (seed list).id).count id →
      growth.forest.next ≤ id := by
    intro id positive
    obtain ⟨list, member, rfl⟩ := List.mem_map.mp (List.count_pos_iff.mp positive)
    exact renewed.fresh list member
  have seed_lt : ∀ id, 0 < (levels.flatten.map fun list => (seed list).id).count id →
      id < later.forest.next := by
    intro id positive
    obtain ⟨list, member, rfl⟩ := List.mem_map.mp (List.count_pos_iff.mp positive)
    rw [steady.next]
    exact (renewed.seeded list member).2.root.1
  refine ⟨steady.tidy, fun id => ?_, fun id member => ?_⟩
  · have count_le := count_le id
    have seed_le := seed_le id
    have single := sound.single id
    by_cases is_new : growth.forest.next ≤ id
    · have no_place : growth.forest.places.count id = 0 :=
        List.count_eq_zero.mpr fun member => absurd (sound.within id member).2 (Nat.not_lt.mpr is_new)
      omega
    · have not_seed : (levels.flatten.map fun list => (seed list).id).count id = 0 := by
        by_contra positive
        exact is_new (old_or_new id (Nat.pos_of_ne_zero positive))
      omega
  · have count_le := count_le id
    have positive := List.count_pos_iff.mpr member
    by_cases is_old : id ∈ growth.forest.places
    · obtain ⟨not_root, lt⟩ := sound.within id is_old
      rw [steady.next]
      exact ⟨not_root, Nat.lt_of_lt_of_le lt renewed.next_le⟩
    · rw [List.count_eq_zero.mpr is_old] at count_le
      have seed_positive : 0 < (levels.flatten.map fun list => (seed list).id).count id := by omega
      have is_new := Nat.lt_of_lt_of_le root_lt (old_or_new id seed_positive)
      exact ⟨Nat.ne_of_gt is_new, seed_lt id seed_positive⟩

/-! ## What stands apart -/

/-- A plant apart from the objects that some lists are filling, with no object elsewhere above any of
its objects. -/
structure Aside (growth : Growth) (main : Plant) (names : List String) : Prop where
  /-- Maps are ascending. -/
  tidy : ∀ id, (growth.forest.get id).Tidy
  /-- What has a place is an object. -/
  within : ∀ place ∈ growth.forest.places, place < growth.forest.next
  /-- What stands below other objects is no object of the plant. -/
  closed : ∀ id, countIn id main.cells = 0 → ∀ place ∈ (growth.forest.get id).places,
    countIn place main.cells = 0
  /-- The lists are filling other objects. -/
  nodes : ∀ name ∈ names, ∃ node, growth.nodeOf? name = some node ∧ node < growth.forest.next ∧
    countIn node main.cells = 0

/-- No object elsewhere stands above what a sound forest has at its root. -/
theorem closed_of_sound {forest : Forest} (sound : forest.Sound) {main : Plant}
    (has : forest.Has main.cells) (at_root : main.id = Forest.root) {id : NodeId}
    (apart : countIn id main.cells = 0) {place : NodeId} (below : place ∈ (forest.get id).places) :
    countIn place main.cells = 0 := by
  by_contra positive
  obtain ⟨cell, in_main, rfl⟩ := countIn_pos_iff.mp (Nat.pos_of_ne_zero positive)
  rcases main.placed in_main with is_root | ⟨above, in_above, in_places⟩
  · have not_root := (sound.within cell.1 (Forest.mem_places_of_mem_get below)).1
    exact not_root (is_root.trans at_root)
  · have ne : id ≠ above.1 := by
      rintro rfl
      have above_positive := countIn_pos in_above
      omega
    -- the place would be one below an object of the plant and one below an object elsewhere
    rw [← (has above in_above).2] at in_places
    have two := forest.count_get_add_le ne cell.1
    have single := sound.single cell.1
    have one := List.count_pos_iff.mpr below
    have other := List.count_pos_iff.mpr in_places
    omega

theorem Aside.attaches {growth later : Growth} {main : Plant} {names : List String}
    {list : TargetList} {node parent : NodeId} (aside : Aside growth main names)
    (node_lt : node < growth.forest.next) (node_apart : countIn node main.cells = 0)
    (parent_apart : countIn parent main.cells = 0)
    (attaches : Growth.Attaches growth list.name node parent later) :
    Aside later main names ∧ ∀ id, 0 < countIn id main.cells →
      later.forest.get id = growth.forest.get id := by
  have steady := attaches.steady aside.tidy
  have within : ∀ place ∈ later.forest.places, place < later.forest.next := by
    intro place member
    have count := steady.count place
    have positive := List.count_pos_iff.mpr member
    rw [steady.next]
    by_cases is_node : node = place
    · exact is_node ▸ node_lt
    · rw [List.count_singleton, if_neg (by simpa using is_node)] at count
      exact aside.within place (List.count_pos_iff.mp (by omega))
  cases attaches with
  | idle => exact ⟨aside, fun _ _ => rfl⟩
  | change change tidy count =>
      refine ⟨⟨steady.tidy, within, ?_, ?_⟩, fun id positive => ?_⟩
      · refine @Forest.forall_get_update _ (fun id node => countIn id main.cells = 0 →
          ∀ place ∈ node.places, countIn place main.cells = 0) aside.closed _ _
          fun _ place member => ?_
        have count := count place
        have positive := List.count_pos_iff.mpr member
        by_cases is_node : node = place
        · exact is_node ▸ node_apart
        · rw [List.count_singleton, if_neg (by simpa using is_node)] at count
          exact aside.closed parent parent_apart place (List.count_pos_iff.mp (by omega))
      · rw [steady.next]
        exact aside.nodes
      · refine Forest.get_update_of_ne (fun same => ?_) change
        rw [same, parent_apart] at positive
        exact absurd positive (Nat.lt_irrefl 0)
  | takeUp existing below =>
      have existing_lt := aside.within existing (Forest.mem_places_of_mem_get below)
      have existing_apart := aside.closed parent parent_apart existing below
      have frame := @Forest.absorb_frame _ aside.tidy (fun id => countIn id main.cells ≠ 0)
        (fun id apart place member => not_not.mpr (aside.closed id (not_not.mp apart) place member))
        node existing (not_not.mpr node_apart) (not_not.mpr existing_apart)
      refine ⟨⟨steady.tidy, within, fun id apart place member => ?_, fun name member => ?_⟩,
        fun id positive => frame.1 id (Nat.ne_of_gt positive)⟩
      · exact not_not.mp (frame.2 id (not_not.mpr apart) place member)
      · rw [steady.next]
        by_cases is_list : name = list.name
        · exact ⟨existing, (find?_put name list.name existing growth.current).trans (if_pos is_list),
            existing_lt, existing_apart⟩
        · obtain ⟨other, found, other_lt, apart⟩ := aside.nodes name member
          exact ⟨other, (find?_put name list.name existing growth.current).trans
            ((if_neg is_list).trans found), other_lt, apart⟩

/-- Attaching objects to each other leaves a plant apart from all of them. -/
theorem Aside.attach_all {plan : Plan} {row : Row} {growth later : Growth} {main : Plant}
    {names : List String} {order : List TargetList} (aside : Aside growth main names)
    (within : ∀ list ∈ order, list.name ∈ names ∧ ∃ parent ∈ names, list.lookUp.parentList = some parent)
    (attached : order.foldlM (Growth.attach plan row) growth = .ok later) :
    Aside later main names ∧ ∀ id, 0 < countIn id main.cells →
      later.forest.get id = growth.forest.get id := by
  induction order generalizing growth with
  | nil =>
      cases attached
      exact ⟨aside, fun _ _ => rfl⟩
  | cons list rest induction =>
      obtain ⟨name_in, parent, parent_in, parent_eq⟩ := within list List.mem_cons_self
      obtain ⟨node, node_eq, node_lt, node_apart⟩ := aside.nodes list.name name_in
      obtain ⟨parent_node, parent_node_eq, -, parent_apart⟩ := aside.nodes parent parent_in
      have parent_of : growth.parentOf list.lookUp = parent_node := by
        rw [Growth.parentOf, parent_eq, Option.bind_some, parent_node_eq, Option.getD_some]
      rw [List.foldlM_cons] at attached
      obtain ⟨middle, attached_list, attached_rest⟩ := Outcome.bind_eq_ok_iff.mp attached
      have attaches := Growth.attaches_of_attach aside.tidy node_eq attached_list
      rw [parent_of] at attaches
      obtain ⟨middle_aside, middle_same⟩ := aside.attaches node_lt node_apart parent_apart attaches
      obtain ⟨later_aside, later_same⟩ := induction middle_aside
        (fun other member => within other (List.mem_cons_of_mem list member)) attached_rest
      exact ⟨later_aside, fun id positive => (later_same id positive).trans (middle_same id positive)⟩

end StationGateway.Tree
