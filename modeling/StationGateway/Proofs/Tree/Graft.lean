import StationGateway.Proofs.Outcome
import StationGateway.Proofs.Tree.Attach
import StationGateway.Proofs.Tree.Layout

/-!
# Grafting rows

What one row adds below an object: its new objects, attached to each other from the innermost level
outwards, and at last to that object. -/

namespace StationGateway.Tree

open StationGateway.Order

/-! ## The grafted plant -/

section Graft

variable (showNull : Bool) (seed : TargetList → Plant)

/-- A plant with the new objects of some lists folded in. -/
def inlined (inlines : List TargetList) (plant : Plant) : Plant :=
  inlines.foldl (fun plant list => plant.attachInline showNull (targetOf list) (seed list)) plant

/-- The new element of a leaf. -/
def elementOf (leaf : Leaf) : Plant :=
  leaf.merges.foldl (fun element list => element.attachMerged showNull (targetOf list) (seed list))
    (inlined showNull seed leaf.inlines (seed leaf.list))

/-- A plant with the new objects of a row attached below it. -/
def graft (leaf : Option Leaf) : List TargetList → List Tier → List String → Plant → Plant
  | inlines, [], _, plant =>
      match leaf with
      | none => inlined showNull seed inlines plant
      | some leaf =>
          (inlined showNull seed inlines plant).attachElement showNull (targetOf leaf.list)
            (elementOf showNull seed leaf)
  | inlines, _ :: _, [], plant => inlined showNull seed inlines plant
  | inlines, tier :: rest, key :: keys, plant =>
      (inlined showNull seed inlines plant).attachKeyed tier.target key
        (graft leaf tier.inlines rest keys (seed tier.list))

/-- The cells of the new objects of some lists. -/
def seedCells (lists : List TargetList) : List (NodeId × Node) :=
  lists.flatMap fun list => (seed list).cells

/-- The objects that lists are filling once a row is attached: the outermost map resumes an entry
that is there. -/
def resumed (plant : Plant) (current : List (String × NodeId)) :
    List Tier → List String → List (String × NodeId)
  | tier :: _, key :: _ =>
      match plant.entryAt? tier.target key with
      | some existing => put tier.list.name existing.id current
      | none => current
  | _, _ => current

variable {showNull} {seed} {plant : Plant}

theorem countIn_seed_le {lists : List TargetList} {list : TargetList} (member : list ∈ lists)
    (id : NodeId) : countIn id (seed list).cells ≤ countIn id (seedCells seed lists) := by
  rw [seedCells, countIn_flatMap]
  exact List.single_le_sum (fun _ _ => Nat.zero_le _) _ (List.mem_map_of_mem member)

theorem seedCells_cons (list : TargetList) (lists : List TargetList) :
    seedCells seed (list :: lists) = (seed list).cells ++ seedCells seed lists :=
  rfl

theorem seedCells_append (lists others : List TargetList) :
    seedCells seed (lists ++ others) = seedCells seed lists ++ seedCells seed others :=
  List.flatMap_append

theorem countIn_seedCells_le {lists others : List TargetList} (fewer : others.Sublist lists)
    (id : NodeId) : countIn id (seedCells seed others) ≤ countIn id (seedCells seed lists) :=
  ((fewer.flatMap fun list => (seed list).cells).map Prod.fst).count_le id

theorem find?_limbs_attachInline {name target : String} (ne : name ≠ target) (twig : Plant) :
    find? name (plant.attachInline showNull target twig).limbs = find? name plant.limbs := by
  rw [Plant.attachInline]
  split
  · exact find?_erase_of_ne ne plant.limbs
  · rw [Plant.setLimb, Plant.limbs, find?_put, if_neg ne]

/-- Folding in objects leaves what is attached under other names. -/
theorem find?_limbs_inlined {name : String} {inlines : List TargetList}
    (beside : ∀ list ∈ inlines, name ≠ targetOf list) :
    find? name (inlined showNull seed inlines plant).limbs = find? name plant.limbs := by
  induction inlines generalizing plant with
  | nil => rfl
  | cons list rest induction =>
      rw [inlined, List.foldl_cons, ← inlined,
        induction fun other member => beside other (List.mem_cons_of_mem list member),
        find?_limbs_attachInline (beside list List.mem_cons_self)]

/-- Folding in objects leaves the entries of a map. -/
theorem entryAt?_inlined {target : Option String} {inlines : List TargetList}
    (beside : ∀ list ∈ inlines, target.isSome ∧ target ≠ some (targetOf list)) (key : String) :
    (inlined showNull seed inlines plant).entryAt? target key = plant.entryAt? target key := by
  cases target with
  | none =>
      cases inlines with
      | nil => rfl
      | cons list rest => exact absurd (beside list List.mem_cons_self).1 (by simp)
  | some target =>
      have kept : find? target (inlined showNull seed inlines plant).limbs = find? target plant.limbs :=
        find?_limbs_inlined fun list member same => (beside list member).2 (congrArg some same)
      rw [Plant.entryAt?, Plant.entryAt?, kept]

end Graft

/-! ## Following a plan -/

namespace Growth

variable {plan : Plan} {row : Row} {growth : Growth} {seed : TargetList → Plant} {plant : Plant}
  {parent : Option String}

/-- The lists are filling the given new objects. -/
def Seeded (growth : Growth) (seed : TargetList → Plant) (lists : List TargetList) : Prop :=
  ∀ list ∈ lists, growth.nodeOf? list.name = some (seed list).id ∧
    growth.forest.Has (seed list).cells

/-- The object that lists with the given parent attach to. -/
def parentId (growth : Growth) (parent : Option String) : NodeId :=
  (parent.bind growth.nodeOf?).getD Forest.root

/-- An object with its plant, and new objects apart from it. -/
structure Ready (growth : Growth) (seed : TargetList → Plant) (parent : Option String)
    (lists : List TargetList) (plant : Plant) : Prop where
  /-- Maps are ascending. -/
  tidy : ∀ id, (growth.forest.get id).Tidy
  /-- The plant is there. -/
  has : growth.forest.Has plant.cells
  /-- It stands at the parent. -/
  at_parent : growth.parentId parent = plant.id
  /-- The new objects are there. -/
  seeded : growth.Seeded seed lists
  /-- All of them are apart. -/
  apart : ∀ id, countIn id plant.cells + countIn id (seedCells seed lists) ≤ 1

theorem nodeOf?_of_current_eq {later : Growth} (current_eq : later.current = growth.current)
    (name : String) : later.nodeOf? name = growth.nodeOf? name := by
  rw [nodeOf?, nodeOf?, current_eq]

theorem parentId_of_current_eq {later : Growth} (current_eq : later.current = growth.current)
    (parent : Option String) : later.parentId parent = growth.parentId parent := by
  cases parent with
  | none => rfl
  | some name => exact congrArg (·.getD Forest.root) (nodeOf?_of_current_eq current_eq name)

/-- New objects apart from what has been regrown stay. -/
theorem Seeded.keeps {lists : List TargetList} (seeded : growth.Seeded seed lists) {later : Growth}
    (current_eq : later.current = growth.current) {before after : Plant}
    {extra : List (NodeId × Node)} (regrown : Regrown growth.forest later.forest before after extra)
    (apart : ∀ id, countIn id before.cells + countIn id extra + countIn id (seedCells seed lists) ≤ 1) :
    later.Seeded seed lists := by
  intro list member
  obtain ⟨node_eq, has⟩ := seeded list member
  refine ⟨(nodeOf?_of_current_eq current_eq list.name).trans node_eq,
    regrown.keeps has fun id positive => ?_⟩
  have seed_le := @countIn_seed_le seed lists list member id
  have apart := apart id
  omega

/-- An object is ready for fewer new objects too. -/
theorem Ready.mono {lists others : List TargetList} (ready : growth.Ready seed parent lists plant)
    (fewer : others.Sublist lists) : growth.Ready seed parent others plant where
  tidy := ready.tidy
  has := ready.has
  at_parent := ready.at_parent
  seeded := fun list member => ready.seeded list (fewer.subset member)
  apart := fun id => by
    have fewer_cells := @countIn_seedCells_le seed _ _ fewer id
    have apart := ready.apart id
    omega

/-- A new object is ready for new objects besides it. -/
theorem Ready.fresh {lists others : List TargetList} {list : TargetList}
    (ready : growth.Ready seed parent lists plant) (fewer : (list :: others).Sublist lists) :
    growth.Ready seed (some list.name) others (seed list) := by
  have both := ready.mono fewer
  obtain ⟨list_node, has_list⟩ := both.seeded list List.mem_cons_self
  refine ⟨both.tidy, has_list, ?_, fun other member => both.seeded other ?_, fun id => ?_⟩
  · rw [parentId, Option.bind_some, list_node, Option.getD_some]
  · exact List.mem_cons_of_mem list member
  · have apart := both.apart id
    rw [seedCells_cons, countIn_append] at apart
    omega

/-- An object stays ready when a plant apart from it is regrown. -/
theorem Ready.aside {lists : List TargetList} (ready : growth.Ready seed parent lists plant)
    {later : Growth} (current_eq : later.current = growth.current) {before after : Plant}
    {extra : List (NodeId × Node)} (regrown : Regrown growth.forest later.forest before after extra)
    (apart : ∀ id, countIn id before.cells + countIn id extra +
      (countIn id plant.cells + countIn id (seedCells seed lists)) ≤ 1) :
    later.Ready seed parent lists plant where
  tidy := regrown.tidy
  has := regrown.keeps ready.has fun id positive => by
    have apart := apart id
    omega
  at_parent := (parentId_of_current_eq current_eq parent).trans ready.at_parent
  seeded := ready.seeded.keeps current_eq regrown fun id => by
    have apart := apart id
    omega
  apart := ready.apart

/-- An object that is regrown is ready for new objects apart from those it took in. -/
theorem Ready.regrown {lists : List TargetList} (ready : growth.Ready seed parent lists plant)
    {later : Growth} (current_eq : later.current = growth.current) {after : Plant}
    {extra : List (NodeId × Node)} (regrown : Regrown growth.forest later.forest plant after extra)
    (apart : ∀ id, countIn id plant.cells + countIn id extra + countIn id (seedCells seed lists) ≤ 1) :
    later.Ready seed parent lists after where
  tidy := regrown.tidy
  has := regrown.has
  at_parent := by rw [parentId_of_current_eq current_eq, ready.at_parent, regrown.id]
  seeded := ready.seeded.keeps current_eq regrown apart
  apart := fun id => by
    have apart := apart id
    have count := regrown.count id
    omega

theorem parentOf_eq {list : TargetList} (parent_eq : list.lookUp.parentList = parent)
    (at_parent : growth.parentId parent = plant.id) : growth.parentOf list.lookUp = plant.id := by
  rw [parentOf, parent_eq]
  exact at_parent

theorem attach_inline {list : TargetList} (inline : IsInline parent list)
    {twig : Plant} (node_eq : growth.nodeOf? list.name = some twig.id)
    (at_parent : growth.parentId parent = plant.id) :
    attach plan row growth list =
      .ok (growth.attachInline plan.showNull twig.id plant.id (targetOf list)) := by
  obtain ⟨attachment_eq, parent_eq, has_target⟩ := inline
  obtain ⟨target, target_eq⟩ := Option.isSome_iff_exists.mp has_target
  have parent_id := parentOf_eq parent_eq at_parent
  simp only [attach, node_eq, parent_id, attachment_eq, target_eq, targetOf, Option.getD_some]

theorem attach_merge {list : TargetList} (merge : IsMerge parent list)
    {twig : Plant} (node_eq : growth.nodeOf? list.name = some twig.id)
    (at_parent : growth.parentId parent = plant.id) :
    attach plan row growth list =
      .ok (growth.attachMerged plan.showNull twig.id plant.id (targetOf list)) := by
  obtain ⟨attachment_eq, parent_eq, has_target⟩ := merge
  obtain ⟨target, target_eq⟩ := Option.isSome_iff_exists.mp has_target
  have parent_id := parentOf_eq parent_eq at_parent
  simp only [attach, node_eq, parent_id, attachment_eq, target_eq, targetOf, Option.getD_some]

/-- Folding in the new objects of some lists regrows a plant. -/
theorem attach_inlines {inlines : List TargetList}
    (all_inline : ∀ list ∈ inlines, IsInline parent list)
    (ready : growth.Ready seed parent inlines plant) :
    ∃ later, inlines.foldlM (attach plan row) growth = .ok later ∧
      Regrown growth.forest later.forest plant (inlined plan.showNull seed inlines plant)
        (seedCells seed inlines) ∧
      later.current = growth.current := by
  induction inlines generalizing growth plant with
  | nil => exact ⟨growth, rfl, .refl ready.tidy ready.has [], rfl⟩
  | cons list rest induction =>
      obtain ⟨node_eq, has_twig⟩ := ready.seeded list List.mem_cons_self
      have apart := ready.apart
      simp only [seedCells_cons, countIn_append] at apart
      obtain ⟨regrown, current_eq⟩ := regrown_attachInline ready.tidy ready.has has_twig
        (fun id => by have apart := apart id; omega) plan.showNull (targetOf list)
      have rest_ready := (ready.mono (List.sublist_cons_self list rest)).regrown current_eq regrown
        fun id => by
          have apart := apart id
          omega
      obtain ⟨later, folded, rest_regrown, rest_current⟩ := induction
        (fun other member => all_inline other (List.mem_cons_of_mem list member)) rest_ready
      refine ⟨later, ?_, regrown.trans rest_regrown, rest_current.trans current_eq⟩
      rw [List.foldlM_cons, attach_inline (all_inline list List.mem_cons_self) node_eq
        ready.at_parent]
      exact folded

/-- Taking fields from the new objects of some lists regrows a plant. -/
theorem attach_merges {merges : List TargetList}
    (all_merge : ∀ list ∈ merges, IsMerge parent list)
    (ready : growth.Ready seed parent merges plant) :
    ∃ later, merges.foldlM (attach plan row) growth = .ok later ∧
      Regrown growth.forest later.forest plant
        (merges.foldl (fun plant list => plant.attachMerged plan.showNull (targetOf list) (seed list)) plant)
          [] ∧
      later.current = growth.current := by
  induction merges generalizing growth plant with
  | nil => exact ⟨growth, rfl, .refl ready.tidy ready.has [], rfl⟩
  | cons list rest induction =>
      obtain ⟨node_eq, has_source⟩ := ready.seeded list List.mem_cons_self
      have apart := ready.apart
      simp only [seedCells_cons, countIn_append] at apart
      obtain ⟨regrown, current_eq⟩ := regrown_attachMerged ready.tidy ready.has has_source
        (fun id => by have apart := apart id; omega) plan.showNull (targetOf list)
      have rest_ready := (ready.mono (List.sublist_cons_self list rest)).regrown current_eq regrown
        fun id => by
          have apart := apart id
          rw [countIn_nil]
          omega
      obtain ⟨later, folded, rest_regrown, rest_current⟩ := induction
        (fun other member => all_merge other (List.mem_cons_of_mem list member)) rest_ready
      refine ⟨later, ?_, regrown.trans rest_regrown, rest_current.trans current_eq⟩
      rw [List.foldlM_cons, attach_merge (all_merge list List.mem_cons_self) node_eq
        ready.at_parent]
      exact folded

end Growth

/-! ## The order of attaching -/

/-- The lists of some levels in the order in which they attach. -/
def orderBelow (levels : List (List TargetList)) : List TargetList :=
  levels.reverse.flatMap Growth.attachOrder

theorem orderBelow_cons (level : List TargetList) (levels : List (List TargetList)) :
    orderBelow (level :: levels) = orderBelow levels ++ Growth.attachOrder level := by
  rw [orderBelow, List.reverse_cons, List.flatMap_append, List.flatMap_singleton]
  rfl

theorem isFolded_of_inline {parent : Option String} {list : TargetList} (inline : IsInline parent list) :
    Growth.isFolded list = true := by
  simp [Growth.isFolded, inline.1]

theorem isFolded_of_merge {parent : Option String} {list : TargetList} (merge : IsMerge parent list) :
    Growth.isFolded list = true := by
  simp [Growth.isFolded, merge.1]

/-- What is folded attaches before the one list that is not. -/
theorem attachOrder_append {folded more : List TargetList} {list : TargetList}
    (all_folded : ∀ other ∈ folded, Growth.isFolded other = true)
    (more_folded : ∀ other ∈ more, Growth.isFolded other = true)
    (not_folded : Growth.isFolded list = false) :
    Growth.attachOrder (folded ++ list :: more) = folded ++ (more ++ [list]) := by
  have folded_kept := List.filter_eq_self.mpr all_folded
  have more_kept := List.filter_eq_self.mpr more_folded
  have folded_gone : folded.filter (fun other => !Growth.isFolded other) = [] :=
    List.filter_eq_nil_iff.mpr fun other member => by simp [all_folded other member]
  have more_gone : more.filter (fun other => !Growth.isFolded other) = [] :=
    List.filter_eq_nil_iff.mpr fun other member => by simp [more_folded other member]
  rw [Growth.attachOrder, List.filter_append, List.filter_append, folded_kept, folded_gone,
    List.filter_cons_of_neg (by simp [not_folded]), List.filter_cons_of_pos (by simp [not_folded]),
    more_kept, more_gone, List.nil_append, List.append_assoc]

theorem attachOrder_folded {folded : List TargetList}
    (all_folded : ∀ other ∈ folded, Growth.isFolded other = true) :
    Growth.attachOrder folded = folded := by
  have kept := List.filter_eq_self.mpr all_folded
  have gone : folded.filter (fun other => !Growth.isFolded other) = [] :=
    List.filter_eq_nil_iff.mpr fun other member => by simp [all_folded other member]
  rw [Growth.attachOrder, kept, gone, List.append_nil]

/-- Levels without lists attach nothing. -/
theorem orderBelow_filter (levels : List (List TargetList)) :
    orderBelow (levels.filter fun level => !level.isEmpty) = orderBelow levels := by
  induction levels with
  | nil => rfl
  | cons level rest induction =>
      rw [orderBelow_cons, List.filter_cons]
      cases level with
      | nil => simpa [Growth.attachOrder] using induction
      | cons list others => simp [orderBelow_cons, induction]

namespace Growth

variable {plan : Plan} {row : Row} {growth : Growth} {seed : TargetList → Plant} {plant : Plant}
  {parent : Option String}

/-- What is folded into the parent of a leaf attaches between what is folded into its element and
what its element takes fields from. -/
theorem orderBelow_leafLevels {inlines : List TargetList} {leaf : Leaf}
    (all_inline : ∀ list ∈ inlines, IsInline parent list) (fits : leaf.Fits parent inlines) :
    orderBelow (leafLevels inlines (some leaf)) =
      leaf.inlines ++ (inlines ++ (leaf.merges ++ [leaf.list])) := by
  obtain ⟨list_kind, -, -, -, all_merge, leaf_inline, -⟩ := fits
  have inlines_folded : ∀ list ∈ inlines, isFolded list = true := fun list member =>
    isFolded_of_inline (all_inline list member)
  have merges_folded : ∀ list ∈ leaf.merges, isFolded list = true := fun list member =>
    isFolded_of_merge (all_merge list member)
  have leaf_folded : ∀ list ∈ leaf.inlines, isFolded list = true := fun list member =>
    isFolded_of_inline (leaf_inline list member)
  have not_folded : isFolded leaf.list = false := by simp [isFolded, list_kind]
  rw [leafLevels, orderBelow_cons, orderBelow_cons, attachOrder_folded leaf_folded,
    attachOrder_append inlines_folded merges_folded not_folded]
  rfl

/-- An element attaches to its parent after all that is folded into either of them. -/
theorem attach_element {inlines : List TargetList} {leaf : Leaf}
    (all_inline : ∀ list ∈ inlines, IsInline parent list) (fits : leaf.Fits parent inlines)
    (ready : growth.Ready seed parent (inlines ++ leaf.list :: (leaf.merges ++ leaf.inlines)) plant) :
    ∃ later,
      (leaf.inlines ++ (inlines ++ (leaf.merges ++ [leaf.list]))).foldlM (attach plan row) growth =
          .ok later ∧
        Regrown growth.forest later.forest plant (graft plan.showNull seed (some leaf) inlines [] [] plant)
          (seedCells seed (inlines ++ leaf.list :: (leaf.merges ++ leaf.inlines))) ∧
        later.current = growth.current := by
  obtain ⟨list_kind, list_parent, has_target, -, all_merge, leaf_inline, -⟩ := fits
  have cells_eq : ∀ id,
      countIn id (seedCells seed (inlines ++ leaf.list :: (leaf.merges ++ leaf.inlines))) =
      countIn id (seedCells seed inlines) + (countIn id (seed leaf.list).cells +
        (countIn id (seedCells seed leaf.merges) + countIn id (seedCells seed leaf.inlines))) := by
    intro id
    rw [seedCells_append, countIn_append, seedCells_cons, countIn_append, seedCells_append,
      countIn_append]
  have apart : ∀ id, countIn id plant.cells + (countIn id (seedCells seed inlines) +
      (countIn id (seed leaf.list).cells + (countIn id (seedCells seed leaf.merges) +
        countIn id (seedCells seed leaf.inlines)))) ≤ 1 := by
    intro id
    have apart := ready.apart id
    rwa [cells_eq] at apart
  have element_ready : growth.Ready seed (some leaf.list.name) (leaf.merges ++ leaf.inlines)
      (seed leaf.list) := ready.fresh (List.sublist_append_right inlines _)
  have plant_ready : growth.Ready seed parent inlines plant :=
    ready.mono (List.sublist_append_left inlines _)
  -- first the element takes in what is folded into it
  obtain ⟨first, first_eq, first_regrown, first_current⟩ := @attach_inlines plan row _ _ _ _ _
    leaf_inline (element_ready.mono (List.sublist_append_right leaf.merges leaf.inlines))
  have first_element := (element_ready.mono (List.sublist_append_left leaf.merges leaf.inlines)).regrown
    first_current first_regrown fun id => by have apart := apart id; omega
  have first_plant := plant_ready.aside first_current first_regrown
    fun id => by have apart := apart id; omega
  -- then the parent takes in what is folded into it
  obtain ⟨second, second_eq, second_regrown, second_current⟩ :=
    @attach_inlines plan row _ _ _ _ _ all_inline first_plant
  have second_element := first_element.aside second_current second_regrown fun id => by
    have apart := apart id
    have element_count := first_regrown.count id
    omega
  -- then the element takes the fields, and at last it becomes an element
  obtain ⟨third, third_eq, third_regrown, third_current⟩ :=
    @attach_merges plan row _ _ _ _ _ all_merge second_element
  have current_eq := third_current.trans (second_current.trans first_current)
  have third_apart : ∀ id, countIn id (elementOf plan.showNull seed leaf).cells +
      countIn id (inlined plan.showNull seed inlines plant).cells ≤ 1 := by
    intro id
    have apart := apart id
    have element_count := first_regrown.count id
    have plant_count := second_regrown.count id
    have merged_count := third_regrown.count id
    rw [countIn_nil] at merged_count
    rw [elementOf]
    omega
  have has_plant : third.forest.Has (inlined plan.showNull seed inlines plant).cells := by
    refine third_regrown.keeps second_regrown.has fun id positive => ?_
    have apart := apart id
    have element_count := first_regrown.count id
    have plant_count := second_regrown.count id
    rw [countIn_nil]
    omega
  obtain ⟨pushed, pushed_current⟩ := regrown_attachElement third_regrown.tidy has_plant
    third_regrown.has (fun id => by
      have third_apart := third_apart id
      rw [elementOf] at third_apart
      omega) plan.showNull (targetOf leaf.list)
  have attached : attach plan row third leaf.list =
      .ok (third.attachElement plan.showNull (elementOf plan.showNull seed leaf).id
        (inlined plan.showNull seed inlines plant).id (targetOf leaf.list)) := by
    have element_id : (elementOf plan.showNull seed leaf).id = (seed leaf.list).id :=
      third_regrown.id.trans first_regrown.id
    have parent_id := parentOf_eq list_parent
      ((parentId_of_current_eq current_eq parent).trans ready.at_parent)
    obtain ⟨target, target_eq⟩ := Option.isSome_iff_exists.mp has_target
    obtain ⟨list_node, -⟩ := ready.seeded leaf.list (by simp)
    have node_eq := (nodeOf?_of_current_eq current_eq leaf.list.name).trans list_node
    simp only [attach, node_eq, parent_id, list_kind, target_eq, targetOf, Option.getD_some,
      element_id, second_regrown.id]
  refine ⟨_, Outcome.foldlM_append_eq_ok first_eq (Outcome.foldlM_append_eq_ok second_eq
    (Outcome.foldlM_append_eq_ok third_eq (Outcome.foldlM_singleton_eq_ok attached))), ?_,
    pushed_current.trans current_eq⟩
  have with_element : Regrown second.forest _ _ _
      (inlined plan.showNull seed leaf.inlines (seed leaf.list)).cells :=
    pushed.after third_regrown (fun id => by rw [countIn_nil, Nat.add_zero]) fun id => by
      have merged_count := third_regrown.count id
      rwa [countIn_nil, Nat.add_zero] at merged_count
  refine (second_regrown.trans with_element).after first_regrown (fun id => ?_) fun id => ?_
  · rw [cells_eq]
    omega
  · have element_count := first_regrown.count id
    rw [cells_eq, countIn_append]
    omega

/-- Attaching the new objects of a leaf regrows the plant of its parent. -/
theorem attach_leaf {inlines : List TargetList} {leaf : Option Leaf}
    (all_inline : ∀ list ∈ inlines, IsInline parent list)
    (fits : ∀ found ∈ leaf, found.Fits parent inlines)
    (ready : growth.Ready seed parent (leafLevels inlines leaf).flatten plant) :
    ∃ later,
      (orderBelow (leafLevels inlines leaf)).foldlM (attach plan row) growth = .ok later ∧
        Regrown growth.forest later.forest plant (graft plan.showNull seed leaf inlines [] [] plant)
          (seedCells seed (leafLevels inlines leaf).flatten) ∧
        later.current = growth.current := by
  cases leaf with
  | none =>
      have order_eq : orderBelow (leafLevels inlines none) = inlines := by
        rw [leafLevels, orderBelow_cons, attachOrder_folded fun list member =>
          isFolded_of_inline (all_inline list member)]
        rfl
      have lists_eq : (leafLevels inlines none).flatten = inlines := by simp [leafLevels]
      rw [lists_eq] at ready ⊢
      rw [order_eq]
      exact attach_inlines all_inline ready
  | some leaf =>
      have lists_eq : (leafLevels inlines (some leaf)).flatten =
          inlines ++ (leaf.list :: (leaf.merges ++ leaf.inlines)) := by
        simp [leafLevels]
      rw [lists_eq] at ready ⊢
      rw [orderBelow_leafLevels all_inline (fits leaf rfl)]
      exact attach_element all_inline (fits leaf rfl) ready

theorem exists_of_keysOf_cons {column : String} {columns keys : List String}
    (keys_eq : keysOf row (column :: columns) = .ok keys) :
    ∃ key others, keys = key :: others ∧ keyOf row column = .ok key ∧
      keysOf row columns = .ok others := by
  rw [keysOf] at keys_eq
  obtain ⟨key, key_eq, rest_eq⟩ := Outcome.bind_eq_ok_iff.mp keys_eq
  obtain ⟨others, others_eq, done⟩ := Outcome.bind_eq_ok_iff.mp rest_eq
  exact ⟨key, others, (Except.ok.inj done).symm, key_eq, others_eq⟩

theorem resumed_of_no_limbs {plant : Plant} (no_limbs : plant.limbs = [])
    (current : List (String × NodeId)) (tiers : List Tier) (keys : List String) :
    resumed plant current tiers keys = current := by
  match tiers, keys with
  | [], _ => rfl
  | _ :: _, [] => rfl
  | tier :: rest, key :: keys =>
      have no_entry : plant.entryAt? tier.target key = none := by
        cases tier.target with
        | none => rw [Plant.entryAt?, no_limbs, find?]
        | some target => rw [Plant.entryAt?, no_limbs, find?]
      rw [resumed, no_entry]

/-- The lists of a map and of what is below it. -/
theorem flatten_levelsBelow_cons (leaf : Option Leaf) (inlines : List TargetList) (tier : Tier)
    (rest : List Tier) :
    (levelsBelow leaf inlines (tier :: rest)).flatten =
      inlines ++ (tier.list :: (levelsBelow leaf tier.inlines rest).flatten) := by
  rw [levelsBelow, List.flatten_cons, List.append_assoc, List.singleton_append]

/-- An entry attaches after what is below it and after what is folded into its parent. -/
theorem orderBelow_levelsBelow_cons {leaf : Option Leaf} {inlines : List TargetList} {tier : Tier}
    {rest : List Tier} (all_inline : ∀ list ∈ inlines, IsInline parent list)
    (not_folded : isFolded tier.list = false) :
    orderBelow (levelsBelow leaf inlines (tier :: rest)) =
      orderBelow (levelsBelow leaf tier.inlines rest) ++ (inlines ++ [tier.list]) := by
  rw [levelsBelow, orderBelow_cons, attachOrder_append
    (fun list member => isFolded_of_inline (all_inline list member))
    (fun _ member => absurd member List.not_mem_nil) not_folded]
  rfl

/-- The new entry of a row is ready for what belongs below it. -/
theorem Ready.entry {leaf : Option Leaf} {inlines : List TargetList} {tier : Tier} {rest : List Tier}
    (ready : growth.Ready seed parent (levelsBelow leaf inlines (tier :: rest)).flatten plant) :
    growth.Ready seed (some tier.list.name) (levelsBelow leaf tier.inlines rest).flatten
      (seed tier.list) := by
  rw [flatten_levelsBelow_cons] at ready
  exact ready.fresh (List.sublist_append_right inlines _)

/-- Attaching the new objects of a row regrows the plant below which they belong. -/
theorem attach_below {leaf : Option Leaf} {inlines : List TargetList}
    {tiers : List Tier} {keys : List String} (fits : FitsBelow leaf parent inlines tiers)
    (no_limbs : ∀ list, (seed list).limbs = [])
    (keys_eq : keysOf row (tiers.map Tier.column) = .ok keys)
    (ready : growth.Ready seed parent (levelsBelow leaf inlines tiers).flatten plant) :
    ∃ later,
      (orderBelow (levelsBelow leaf inlines tiers)).foldlM (attach plan row) growth = .ok later ∧
        Regrown growth.forest later.forest plant (graft plan.showNull seed leaf inlines tiers keys plant)
          (seedCells seed (levelsBelow leaf inlines tiers).flatten) ∧
        later.current = resumed plant growth.current tiers keys := by
  induction tiers generalizing growth plant parent inlines keys with
  | nil =>
      rw [levelsBelow, List.flatten_filter_not_isEmpty] at ready
      rw [levelsBelow, List.flatten_filter_not_isEmpty, orderBelow_filter]
      exact attach_leaf fits.1.1 fits.2 ready
  | cons tier rest induction =>
      obtain ⟨⟨all_inline, -⟩, ⟨list_kind, list_parent, keyed, beside⟩, rest_fits⟩ := fits
      obtain ⟨key, keys, rfl, key_eq, rest_keys⟩ :
          ∃ key others, keys = key :: others ∧ keyOf row tier.column = .ok key ∧
            keysOf row (rest.map Tier.column) = .ok others :=
        exists_of_keysOf_cons keys_eq
      have not_folded : isFolded tier.list = false := by simp [isFolded, list_kind]
      have entry_ready := ready.entry
      rw [flatten_levelsBelow_cons] at ready ⊢
      rw [orderBelow_levelsBelow_cons all_inline not_folded]
      have cells_eq : ∀ id, countIn id (seedCells seed
            (inlines ++ tier.list :: (levelsBelow leaf tier.inlines rest).flatten)) =
          countIn id (seedCells seed inlines) + (countIn id (seed tier.list).cells +
            countIn id (seedCells seed (levelsBelow leaf tier.inlines rest).flatten)) := by
        intro id
        rw [seedCells_append, countIn_append, seedCells_cons, countIn_append]
      have apart : ∀ id, countIn id plant.cells + (countIn id (seedCells seed inlines) +
          (countIn id (seed tier.list).cells +
            countIn id (seedCells seed (levelsBelow leaf tier.inlines rest).flatten))) ≤ 1 := by
        intro id
        have apart := ready.apart id
        rwa [cells_eq] at apart
      -- first the new entry takes in what is below it
      obtain ⟨first, first_eq, first_regrown, first_resumed⟩ :=
        induction rest_fits rest_keys entry_ready
      have first_current := first_resumed.trans (resumed_of_no_limbs (no_limbs tier.list) _ _ _)
      have first_plant := (ready.mono (List.sublist_append_left inlines _)).aside first_current
        first_regrown fun id => by have apart := apart id; omega
      -- then the parent takes in what is folded into it, and at last the new entry
      obtain ⟨second, second_eq, second_regrown, second_current⟩ :=
        @attach_inlines plan row _ _ _ _ _ all_inline first_plant
      have has_entry : second.forest.Has
          (graft plan.showNull seed leaf tier.inlines rest keys (seed tier.list)).cells := by
        refine second_regrown.keeps first_regrown.has fun id positive => ?_
        have apart := apart id
        have entry_count := first_regrown.count id
        omega
      obtain ⟨third, third_eq, third_regrown, third_current⟩ := regrown_attachKeyed
        second_regrown.tidy second_regrown.has has_entry (fun id => by
          have apart := apart id
          have entry_count := first_regrown.count id
          have plant_count := second_regrown.count id
          omega) keyed key_eq
      have current_eq := second_current.trans first_current
      have attached : attach plan row second tier.list = .ok third := by
        have parent_id := parentOf_eq list_parent
          ((parentId_of_current_eq current_eq parent).trans ready.at_parent)
        obtain ⟨list_node, -⟩ := ready.seeded tier.list (by simp)
        have node_eq := (nodeOf?_of_current_eq current_eq tier.list.name).trans list_node
        rw [first_regrown.id, second_regrown.id] at third_eq
        simp only [attach, node_eq, parent_id, list_kind]
        exact third_eq
      refine ⟨third, Outcome.foldlM_append_eq_ok first_eq (Outcome.foldlM_append_eq_ok second_eq
        (Outcome.foldlM_singleton_eq_ok attached)), ?_, ?_⟩
      · refine (second_regrown.trans third_regrown).after first_regrown (fun id => ?_) fun id => ?_
        · rw [cells_eq]
          omega
        · have entry_count := first_regrown.count id
          rw [cells_eq, countIn_append]
          omega
      · rw [third_current, current_eq, resumed]
        have entry_eq := @entryAt?_inlined plan.showNull seed plant tier.target inlines beside key
        rw [Tier.target] at entry_eq
        rw [entry_eq]
        rfl

end Growth

end StationGateway.Tree
