import Mathlib.Data.List.Nodup
import Mathlib.Data.List.Perm.Subperm
import StationGateway.Proofs.Tree.Places

/-!
# Plants

What stands at a node of a forest and below it, as a tree of its own that remembers the numbers of
its nodes. A plant that a forest has is untouched by changes elsewhere, and it is written as the
JSON value that the forest shows for its node. -/

namespace StationGateway.Tree

open StationGateway.Order

mutual

/-- An object with all that is below it. -/
inductive Plant where
  /-- The number of the object, its fields and what is attached to it. -/
  | node (id : NodeId) (fields : List (String × Json)) (limbs : List (String × Limb))

/-- What is attached to an object under one name. -/
inductive Limb where
  /-- One object. -/
  | object (plant : Plant)
  /-- Objects by key. -/
  | map (entries : List (String × Plant))
  /-- Objects in order. -/
  | list (items : List Plant)

end

namespace Plant

/-- The number of the object. -/
def id : Plant → NodeId
  | node id _ _ => id

/-- The fields of the object. -/
def fields : Plant → List (String × Json)
  | node _ fields _ => fields

/-- What is attached to the object. -/
def limbs : Plant → List (String × Limb)
  | node _ _ limbs => limbs

end Plant

/-- The numbers in place of the objects. -/
def Limb.child : Limb → Child
  | .object plant => .object plant.id
  | .map entries => .map (entries.map fun entry => (entry.1, entry.2.id))
  | .list items => .list (items.map Plant.id)

/-- What is attached, with numbers in place of objects. -/
def childrenOf (limbs : List (String × Limb)) : List (String × Child) :=
  limbs.map fun limb => (limb.1, limb.2.child)

/-- The object as a node of a forest. -/
def Plant.root (plant : Plant) : Node :=
  ⟨plant.fields, childrenOf plant.limbs⟩

/-! ## Cells -/

mutual

/-- The numbers of all objects of a plant with what a forest has there. -/
def Plant.cells : Plant → List (NodeId × Node)
  | .node id fields limbs => (id, ⟨fields, childrenOf limbs⟩) :: limbsCells limbs

/-- The cells of all that is attached to an object. -/
def limbsCells : List (String × Limb) → List (NodeId × Node)
  | [] => []
  | (_, limb) :: rest => limb.cells ++ limbsCells rest

/-- The cells of what is attached under one name. -/
def Limb.cells : Limb → List (NodeId × Node)
  | .object plant => plant.cells
  | .map entries => entriesCells entries
  | .list items => itemsCells items

/-- The cells of the entries of a map. -/
def entriesCells : List (String × Plant) → List (NodeId × Node)
  | [] => []
  | (_, plant) :: rest => plant.cells ++ entriesCells rest

/-- The cells of the elements of a list. -/
def itemsCells : List Plant → List (NodeId × Node)
  | [] => []
  | plant :: rest => plant.cells ++ itemsCells rest

end

/-- The number of times that a number occurs in cells. -/
def countIn (id : NodeId) (cells : List (NodeId × Node)) : Nat :=
  (cells.map (·.1)).count id

@[simp] theorem countIn_nil (id : NodeId) : countIn id [] = 0 := rfl

@[simp] theorem countIn_append (id : NodeId) (cells others : List (NodeId × Node)) :
    countIn id (cells ++ others) = countIn id cells + countIn id others := by
  rw [countIn, List.map_append, List.count_append]
  rfl

@[simp] theorem countIn_cons (id : NodeId) (cell : NodeId × Node) (cells : List (NodeId × Node)) :
    countIn id (cell :: cells) = [cell.1].count id + countIn id cells :=
  countIn_append id [cell] cells

theorem countIn_pos_iff {id : NodeId} {cells : List (NodeId × Node)} :
    0 < countIn id cells ↔ ∃ cell ∈ cells, cell.1 = id := by
  rw [countIn, List.count_pos_iff, List.mem_map]

theorem countIn_pos {cells : List (NodeId × Node)} {cell : NodeId × Node} (member : cell ∈ cells) :
    0 < countIn cell.1 cells :=
  countIn_pos_iff.mpr ⟨cell, member, rfl⟩

theorem Plant.cells_eq (plant : Plant) :
    plant.cells = (plant.id, plant.root) :: limbsCells plant.limbs := by
  cases plant
  rw [Plant.cells]
  rfl

theorem Plant.root_mem_cells (plant : Plant) : (plant.id, plant.root) ∈ plant.cells := by
  rw [plant.cells_eq]
  exact List.mem_cons_self

theorem Plant.countIn_id_pos (plant : Plant) : 0 < countIn plant.id plant.cells :=
  countIn_pos plant.root_mem_cells

theorem countIn_limbsCells (id : NodeId) (limbs : List (String × Limb)) :
    countIn id (limbsCells limbs) = total (fun limb => countIn id limb.cells) limbs := by
  induction limbs with
  | nil => rfl
  | cons limb rest induction => rw [limbsCells, countIn_append, total_cons, induction]

theorem countIn_entriesCells (id : NodeId) (entries : List (String × Plant)) :
    countIn id (entriesCells entries) = total (fun plant => countIn id plant.cells) entries := by
  induction entries with
  | nil => rfl
  | cons entry rest induction => rw [entriesCells, countIn_append, total_cons, induction]

theorem mem_limbsCells {cell : NodeId × Node} {limbs : List (String × Limb)} :
    cell ∈ limbsCells limbs ↔ ∃ limb ∈ limbs, cell ∈ limb.2.cells := by
  induction limbs with
  | nil => simp [limbsCells]
  | cons limb rest induction =>
      rw [limbsCells, List.mem_append, induction, List.exists_mem_cons_iff]

theorem mem_entriesCells {cell : NodeId × Node} {entries : List (String × Plant)} :
    cell ∈ entriesCells entries ↔ ∃ entry ∈ entries, cell ∈ entry.2.cells := by
  induction entries with
  | nil => simp [entriesCells]
  | cons entry rest induction =>
      rw [entriesCells, List.mem_append, induction, List.exists_mem_cons_iff]

theorem itemsCells_append (items others : List Plant) :
    itemsCells (items ++ others) = itemsCells items ++ itemsCells others := by
  induction items with
  | nil => rfl
  | cons item rest induction => rw [List.cons_append, itemsCells, itemsCells, induction, List.append_assoc]

/-! ## Parts -/

/-- The plants directly below a name. -/
def Limb.parts : Limb → List Plant
  | .object plant => [plant]
  | .map entries => entries.map (·.2)
  | .list items => items

theorem Limb.places_child (limb : Limb) : limb.child.places = limb.parts.map Plant.id := by
  cases limb with
  | object plant => rfl
  | map entries => simp [child, Child.places, parts]
  | list items => rfl

theorem Limb.cells_eq (limb : Limb) : limb.cells = limb.parts.flatMap Plant.cells := by
  cases limb with
  | object plant => simp [cells, parts]
  | map entries =>
      rw [cells, parts]
      induction entries with
      | nil => rfl
      | cons entry rest induction => rw [entriesCells, induction, List.map_cons, List.flatMap_cons]
  | list items =>
      rw [cells, parts]
      induction items with
      | nil => rfl
      | cons item rest induction => rw [itemsCells, induction, List.flatMap_cons]

namespace Plant

/-- The plants directly below an object. -/
def parts (plant : Plant) : List Plant :=
  plant.limbs.flatMap fun limb => limb.2.parts

theorem places_root (plant : Plant) : plant.root.places = plant.parts.map Plant.id := by
  rw [root, Node.places, childrenOf, parts, List.flatMap_map, List.map_flatMap]
  exact List.flatMap_congr fun limb _ => limb.2.places_child

theorem cells_eq_parts (plant : Plant) :
    plant.cells = (plant.id, plant.root) :: plant.parts.flatMap cells := by
  rw [cells_eq, parts]
  congr 1
  induction plant.limbs with
  | nil => rfl
  | cons limb rest induction =>
      rw [limbsCells, induction, limb.2.cells_eq, List.flatMap_cons, List.flatMap_append]

theorem mem_cells_of_part {plant part : Plant} (member : part ∈ plant.parts) {cell : NodeId × Node}
    (in_part : cell ∈ part.cells) : cell ∈ plant.cells := by
  rw [cells_eq_parts]
  exact List.mem_cons_of_mem _ (List.mem_flatMap.mpr ⟨part, member, in_part⟩)

/-- What holds of a plant if it holds of those directly below, holds of all plants. -/
theorem parts_induction {motive : Plant → Prop}
    (step : ∀ plant : Plant, (∀ part ∈ plant.parts, motive part) → motive plant) (plant : Plant) :
    motive plant := by
  induction size : plant.cells.length using Nat.strong_induction_on generalizing plant with
  | _ size induction =>
      refine step plant fun part member => induction part.cells.length ?_ part rfl
      have part_le : part.cells.length ≤ (plant.parts.map fun part => part.cells.length).sum :=
        List.single_le_sum (fun _ _ => Nat.zero_le _) _ (List.mem_map_of_mem member)
      rw [cells_eq_parts, List.length_cons, List.length_flatMap] at size
      omega

/-- Every object of a plant but the first one stands directly below an object of the plant. -/
theorem placed (plant : Plant) {cell : NodeId × Node} (member : cell ∈ plant.cells) :
    cell.1 = plant.id ∨ ∃ above ∈ plant.cells, cell.1 ∈ above.2.places := by
  induction plant using parts_induction with
  | step plant induction =>
      rw [cells_eq_parts] at member
      rcases List.mem_cons.mp member with rfl | in_parts
      · exact .inl rfl
      · obtain ⟨part, in_plant, in_part⟩ := List.mem_flatMap.mp in_parts
        rcases induction part in_plant in_part with is_first | ⟨above, in_above, below⟩
        · refine .inr ⟨_, plant.root_mem_cells, ?_⟩
          rw [is_first, places_root]
          exact List.mem_map_of_mem in_plant
        · exact .inr ⟨above, mem_cells_of_part in_plant in_above, below⟩

/-- What stands below an object of a plant is an object of the plant. -/
theorem closed (plant : Plant) {cell : NodeId × Node} (member : cell ∈ plant.cells) {place : NodeId}
    (below : place ∈ cell.2.places) : ∃ other ∈ plant.cells, other.1 = place := by
  induction plant using parts_induction with
  | step plant induction =>
      rw [cells_eq_parts] at member
      rcases List.mem_cons.mp member with rfl | in_parts
      · rw [places_root] at below
        obtain ⟨part, in_plant, rfl⟩ := List.mem_map.mp below
        exact ⟨(part.id, part.root), mem_cells_of_part in_plant part.root_mem_cells, rfl⟩
      · obtain ⟨part, in_plant, in_part⟩ := List.mem_flatMap.mp in_parts
        obtain ⟨other, in_other, same⟩ := induction part in_plant in_part
        exact ⟨other, mem_cells_of_part in_plant in_other, same⟩

end Plant

/-! ## Forests that have a plant -/

/-- Whether a forest has the given nodes at the given numbers. -/
def Forest.Has (forest : Forest) (cells : List (NodeId × Node)) : Prop :=
  ∀ cell ∈ cells, cell.1 < forest.next ∧ forest.get cell.1 = cell.2

namespace Forest.Has

variable {forest : Forest} {cells others : List (NodeId × Node)}

theorem mono (has : forest.Has cells) (within : ∀ cell ∈ others, cell ∈ cells) :
    forest.Has others :=
  fun cell member => has cell (within cell member)

theorem append (has : forest.Has cells) (has_others : forest.Has others) :
    forest.Has (cells ++ others) := by
  intro cell member
  rcases List.mem_append.mp member with in_cells | in_others
  · exact has cell in_cells
  · exact has_others cell in_others

/-- Cells stay while no number of theirs is touched. -/
theorem transfer (has : forest.Has cells) {later : Forest} (next_le : forest.next ≤ later.next)
    (same : ∀ id, 0 < countIn id cells → later.get id = forest.get id) : later.Has cells := by
  intro cell member
  obtain ⟨within, found⟩ := has cell member
  exact ⟨Nat.lt_of_lt_of_le within next_le, (same cell.1 (countIn_pos member)).trans found⟩

theorem root {plant : Plant} (has : forest.Has plant.cells) :
    plant.id < forest.next ∧ forest.get plant.id = plant.root :=
  has (plant.id, plant.root) plant.root_mem_cells

theorem limbs {plant : Plant} (has : forest.Has plant.cells) :
    forest.Has (limbsCells plant.limbs) := by
  rw [plant.cells_eq] at has
  exact fun cell member => has cell (List.mem_cons_of_mem _ member)

theorem limb {limbs : List (String × Limb)} (has : forest.Has (limbsCells limbs)) {name : String}
    {limb : Limb} (found : find? name limbs = some limb) : forest.Has limb.cells :=
  fun cell member => has cell (mem_limbsCells.mpr ⟨_, mem_of_find? found, member⟩)

theorem entry {entries : List (String × Plant)} (has : forest.Has (entriesCells entries))
    {key : String} {plant : Plant} (found : find? key entries = some plant) :
    forest.Has plant.cells :=
  fun cell member => has cell (mem_entriesCells.mpr ⟨_, mem_of_find? found, member⟩)

/-- A number that a forest has not given out is that of no cell. -/
theorem countIn_eq_zero (has : forest.Has cells) {id : NodeId} (le : forest.next ≤ id) :
    countIn id cells = 0 := by
  by_contra positive
  obtain ⟨cell, member, rfl⟩ := countIn_pos_iff.mp (Nat.pos_of_ne_zero positive)
  exact Nat.not_le.mpr (has cell member).1 le

/-- The numbers of distinct cells of a forest are fewer than those of the forest. -/
theorem length_le (has : forest.Has cells) (single : ∀ id, countIn id cells ≤ 1) :
    cells.length ≤ forest.next := by
  have nodup : (cells.map (·.1)).Nodup := List.nodup_iff_count_le_one.mpr single
  have within : cells.map (·.1) ⊆ List.range forest.next := by
    intro id member
    obtain ⟨cell, in_cells, rfl⟩ := List.mem_map.mp member
    exact List.mem_range.mpr (has cell in_cells).1
  have length_le := (nodup.subperm within).length_le
  rwa [List.length_map, List.length_range] at length_le

end Forest.Has

/-! ## The JSON value of a plant -/

mutual

/-- The JSON value of a plant. Children stand in for fields of the same name. -/
def Plant.json : Plant → Json
  | .node _ fields limbs => .object (putAll fields (limbsJson limbs))

/-- The JSON values of what is attached to an object. -/
def limbsJson : List (String × Limb) → List (String × Json)
  | [] => []
  | (name, limb) :: rest => (name, limb.json) :: limbsJson rest

/-- The JSON value of what is attached under one name. -/
def Limb.json : Limb → Json
  | .object plant => plant.json
  | .map entries => .object (entriesJson entries)
  | .list items => .array (itemsJson items)

/-- The JSON values of the entries of a map. -/
def entriesJson : List (String × Plant) → List (String × Json)
  | [] => []
  | (name, plant) :: rest => (name, plant.json) :: entriesJson rest

/-- The JSON values of the elements of a list. -/
def itemsJson : List Plant → List Json
  | [] => []
  | plant :: rest => plant.json :: itemsJson rest

end

theorem limbsJson_eq_map (limbs : List (String × Limb)) :
    limbsJson limbs = limbs.map fun limb => (limb.1, limb.2.json) := by
  induction limbs with
  | nil => rfl
  | cons limb rest induction => rw [limbsJson, induction, List.map_cons]

theorem entriesJson_eq_map (entries : List (String × Plant)) :
    entriesJson entries = entries.map fun entry => (entry.1, entry.2.json) := by
  induction entries with
  | nil => rfl
  | cons entry rest induction => rw [entriesJson, induction, List.map_cons]

theorem itemsJson_eq_map (items : List Plant) : itemsJson items = items.map Plant.json := by
  induction items with
  | nil => rfl
  | cons item rest induction => rw [itemsJson, induction, List.map_cons]

theorem Plant.json_eq (plant : Plant) :
    plant.json = .object (putAll plant.fields (limbsJson plant.limbs)) := by
  cases plant
  rw [Plant.json]
  rfl

/-! ## Showing plants -/

section Render

theorem renderEntries_eq_map (forest : Forest) (depth : Nat) (entries : List (String × NodeId)) :
    renderEntries forest depth entries =
      entries.map fun entry => (entry.1, renderNode forest depth entry.2) := by
  induction entries with
  | nil => rw [renderEntries, List.map_nil]
  | cons entry rest induction => rw [renderEntries, induction, List.map_cons]

theorem renderItems_eq_map (forest : Forest) (depth : Nat) (items : List NodeId) :
    renderItems forest depth items = items.map (renderNode forest depth) := by
  induction items with
  | nil => rw [renderItems, List.map_nil]
  | cons item rest induction => rw [renderItems, induction, List.map_cons]

/-- The JSON value of what is attached to an object. -/
def childJson (forest : Forest) (depth : Nat) : Child → Json
  | .object node => renderNode forest depth node
  | .map entries => .object (entries.map fun entry => (entry.1, renderNode forest depth entry.2))
  | .list items => .array (items.map (renderNode forest depth))

theorem renderChildren_eq_map (forest : Forest) (depth : Nat) (children : List (String × Child)) :
    renderChildren forest depth children =
      children.map fun child => (child.1, childJson forest depth child.2) := by
  induction children with
  | nil => rw [renderChildren, List.map_nil]
  | cons child rest induction =>
      obtain ⟨name, child⟩ := child
      cases child with
      | object node => rw [renderChildren, induction, List.map_cons, childJson]
      | map entries =>
          rw [renderChildren, induction, List.map_cons, childJson, renderEntries_eq_map]
      | list items => rw [renderChildren, induction, List.map_cons, childJson, renderItems_eq_map]

variable {forest : Forest}

mutual

/-- A forest shows a plant that it has as the JSON value of the plant. -/
theorem renderNode_of_has {depth : Nat} (plant : Plant) (has : forest.Has plant.cells)
    (enough : plant.cells.length ≤ depth) : renderNode forest depth plant.id = plant.json := by
  match plant with
  | .node id fields limbs =>
      rw [Plant.cells, List.length_cons] at enough
      obtain ⟨depth, rfl⟩ : ∃ less, depth = less + 1 := ⟨depth - 1, by omega⟩
      rw [renderNode, has.root.2, Plant.json]
      have rendered := renderChildren_of_has limbs has.limbs (Nat.le_of_succ_le_succ enough)
      simp only [Plant.root, Plant.fields, Plant.limbs, rendered]

theorem renderChildren_of_has {depth : Nat} (limbs : List (String × Limb))
    (has : forest.Has (limbsCells limbs)) (enough : (limbsCells limbs).length ≤ depth) :
    renderChildren forest depth (childrenOf limbs) = limbsJson limbs := by
  match limbs with
  | [] => rw [childrenOf, List.map_nil, renderChildren, limbsJson]
  | (name, limb) :: rest =>
      rw [limbsCells, List.length_append] at enough
      rw [limbsCells] at has
      have has_limb : forest.Has limb.cells :=
        has.mono fun cell member => List.mem_append_left _ member
      have has_rest : forest.Has (limbsCells rest) :=
        has.mono fun cell member => List.mem_append_right _ member
      have rendered := renderChildren_of_has rest has_rest (by omega : _ ≤ depth)
      have enough_limb : limb.cells.length ≤ depth := by omega
      rw [childrenOf] at rendered
      rw [childrenOf, List.map_cons, limbsJson]
      match limb with
      | .object plant =>
          rw [Limb.child, renderChildren, rendered, Limb.json,
            renderNode_of_has plant has_limb enough_limb]
      | .map entries =>
          rw [Limb.child, renderChildren, rendered, Limb.json,
            renderEntries_of_has entries has_limb enough_limb]
      | .list items =>
          rw [Limb.child, renderChildren, rendered, Limb.json,
            renderItems_of_has items has_limb enough_limb]

theorem renderEntries_of_has {depth : Nat} (entries : List (String × Plant))
    (has : forest.Has (entriesCells entries)) (enough : (entriesCells entries).length ≤ depth) :
    renderEntries forest depth (entries.map fun entry => (entry.1, entry.2.id)) =
      entriesJson entries := by
  match entries with
  | [] => rw [List.map_nil, renderEntries, entriesJson]
  | (name, plant) :: rest =>
      rw [entriesCells, List.length_append] at enough
      rw [entriesCells] at has
      have has_plant : forest.Has plant.cells :=
        has.mono fun cell member => List.mem_append_left _ member
      have has_rest : forest.Has (entriesCells rest) :=
        has.mono fun cell member => List.mem_append_right _ member
      rw [List.map_cons, renderEntries, entriesJson, renderNode_of_has plant has_plant (by omega),
        renderEntries_of_has rest has_rest (by omega)]

theorem renderItems_of_has {depth : Nat} (items : List Plant)
    (has : forest.Has (itemsCells items)) (enough : (itemsCells items).length ≤ depth) :
    renderItems forest depth (items.map Plant.id) = itemsJson items := by
  match items with
  | [] => rw [List.map_nil, renderItems, itemsJson]
  | plant :: rest =>
      rw [itemsCells, List.length_append] at enough
      rw [itemsCells] at has
      have has_plant : forest.Has plant.cells :=
        has.mono fun cell member => List.mem_append_left _ member
      have has_rest : forest.Has (itemsCells rest) :=
        has.mono fun cell member => List.mem_append_right _ member
      rw [List.map_cons, renderItems, itemsJson, renderNode_of_has plant has_plant (by omega),
        renderItems_of_has rest has_rest (by omega)]

end

/-- A forest that has a plant at its root shows that plant. -/
theorem Forest.render_of_has {plant : Plant} (has : forest.Has plant.cells)
    (single : ∀ id, countIn id plant.cells ≤ 1) (at_root : plant.id = Forest.root) :
    forest.render = plant.json := by
  have length_le := has.length_le single
  rw [Forest.render, ← at_root]
  exact renderNode_of_has plant has (Nat.le_succ_of_le length_le)

end Render

end StationGateway.Tree
