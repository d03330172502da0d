import Mathlib
import StationGateway.Proofs.Tree.Plant

/-!
# What a node reaches

Where no object is shared, every node that is not below itself has a plant: all that it reaches, with
every object at one place. Objects that no node reaches together have plants that are apart. -/

namespace StationGateway.Tree

open Relation

namespace Forest

variable {forest : Forest}

/-- Whether a node stands directly below another one. -/
def Parent (forest : Forest) (above below : NodeId) : Prop :=
  below ∈ (forest.get above).places

/-- Whether a node stands somewhere below another one. -/
def Above (forest : Forest) : NodeId → NodeId → Prop :=
  TransGen forest.Parent

/-- Whether a node is another one or stands somewhere below it. -/
def Reaches (forest : Forest) : NodeId → NodeId → Prop :=
  ReflTransGen forest.Parent

/-- A forest with ascending maps whose objects are not shared: what has a place is an object, and it
has no second place. -/
structure Unshared (forest : Forest) : Prop where
  /-- All maps are ascending. -/
  tidy : ∀ id, (forest.get id).Tidy
  /-- No node has two places. -/
  single : ∀ id, forest.places.count id ≤ 1
  /-- What has a place is an object. -/
  within : ∀ id ∈ forest.places, id < forest.next

/-- A node without a place is not below itself. -/
theorem not_above_self {id : NodeId} (no_place : id ∉ forest.places) : ¬forest.Above id id := by
  intro cycle
  obtain ⟨last, -, edge⟩ := TransGen.tail'_iff.mp cycle
  exact no_place (mem_places_of_mem_get edge)

/-- What is closed under going down holds of all that a node reaches. -/
theorem Reaches.keeps (property : NodeId → Prop) {start id : NodeId}
    (reaches : forest.Reaches start id)
    (step : ∀ above below, property above → forest.Parent above below → property below)
    (holds : property start) : property id := by
  induction reaches with
  | refl => exact holds
  | tail _ edge induction => exact step _ _ induction edge

/-! ## Parents -/

namespace Unshared

variable {start above below : NodeId}

theorem parent_unique (unshared : forest.Unshared) {other : NodeId} (first : forest.Parent above below)
    (second : forest.Parent other below) : above = other := by
  by_contra ne
  have two := forest.count_get_add_le ne below
  have single := unshared.single below
  have one := List.count_pos_iff.mpr first
  have another := List.count_pos_iff.mpr second
  omega

theorem nodup_places (unshared : forest.Unshared) (id : NodeId) : (forest.get id).places.Nodup :=
  List.nodup_iff_count_le_one.mpr fun place =>
    Nat.le_trans (forest.count_get_le id place) (unshared.single place)

/-- What reaches a node reaches its parent, unless it is the node itself. -/
theorem reaches_parent (unshared : forest.Unshared) (reaches : forest.Reaches start below)
    (ne : start ≠ below) (edge : forest.Parent above below) : forest.Reaches start above := by
  obtain ⟨last, to_last, last_edge⟩ := (ReflTransGen.cases_tail reaches).resolve_left ne.symm
  obtain rfl := unshared.parent_unique last_edge edge
  exact to_last

/-- Of two nodes that reach a third one, one reaches the other. -/
theorem reaches_total (unshared : forest.Unshared) {other : NodeId} (first : forest.Reaches start below)
    (second : forest.Reaches other below) :
    forest.Reaches start other ∨ forest.Reaches other start := by
  -- going up, there is only one way
  have unique : Relator.RightUnique (Function.swap forest.Parent) :=
    fun _ _ _ edge other_edge => unshared.parent_unique edge other_edge
  have upwards := ReflTransGen.total_of_right_unique unique (reflTransGen_swap.mpr first)
    (reflTransGen_swap.mpr second)
  exact upwards.symm.imp reflTransGen_swap.mp reflTransGen_swap.mp

/-- A node that reaches a cycle stands on it. -/
theorem above_of_cycle (unshared : forest.Unshared) {id : NodeId} (reaches : forest.Reaches start id)
    (cycle : forest.Above id id) : forest.Above start start := by
  induction reaches with
  | refl => exact cycle
  | tail _ edge induction =>
      -- the cycle comes back to the node through the parent from which it is reached
      obtain ⟨last, to_last, last_edge⟩ := TransGen.tail'_iff.mp cycle
      obtain rfl := unshared.parent_unique last_edge edge
      exact induction (TransGen.head' edge to_last)

theorem wellFounded_below (unshared : forest.Unshared) (no_cycle : ¬forest.Above start start) :
    WellFounded fun below above : Fin forest.next =>
      forest.Reaches start above ∧ forest.Above above below := by
  have : IsTrans (Fin forest.next) fun below above =>
      forest.Reaches start above ∧ forest.Above above below :=
    ⟨fun _ _ _ lower upper => ⟨upper.1, upper.2.trans lower.2⟩⟩
  have : Std.Irrefl fun below above : Fin forest.next =>
      forest.Reaches start above ∧ forest.Above above below :=
    ⟨fun _ cycle => no_cycle (unshared.above_of_cycle cycle.1 cycle.2)⟩
  exact Finite.wellFounded_of_trans_of_irrefl _

end Unshared

end Forest

/-! ## The plant of a node -/

/-- What is attached under a name, with a plant for every number. -/
def Child.planted (plantOf : NodeId → Plant) : Child → Limb
  | .object node => .object (plantOf node)
  | .map entries => .map (entries.map fun entry => (entry.1, plantOf entry.2))
  | .list items => .list (items.map plantOf)

/-- The plant of an object, with a plant for every number below it. -/
def Node.planted (plantOf : NodeId → Plant) (id : NodeId) (node : Node) : Plant :=
  .node id node.fields (node.children.map fun child => (child.1, child.2.planted plantOf))

theorem Child.parts_planted (plantOf : NodeId → Plant) (child : Child) :
    (child.planted plantOf).parts = child.places.map plantOf := by
  cases child with
  | object node => rfl
  | map entries => simp [planted, Limb.parts, places]
  | list items => rfl

theorem Child.child_planted {plantOf : NodeId → Plant} {child : Child}
    (named : ∀ place ∈ child.places, (plantOf place).id = place) :
    (child.planted plantOf).child = child := by
  cases child with
  | object node => rw [planted, Limb.child, named node (List.mem_singleton_self node)]
  | map entries =>
      rw [planted, Limb.child, List.map_map]
      congr 1
      refine (List.map_congr_left fun entry member => ?_).trans (List.map_id entries)
      exact Prod.ext rfl (named entry.2 (List.mem_map_of_mem member))
  | list items =>
      rw [planted, Limb.child, List.map_map]
      congr 1
      exact (List.map_congr_left fun item member => named item member).trans (List.map_id items)

theorem Node.parts_planted (plantOf : NodeId → Plant) (id : NodeId) (node : Node) :
    (node.planted plantOf id).parts = node.places.map plantOf := by
  rw [planted, Plant.parts, Plant.limbs, places, List.flatMap_map, List.map_flatMap]
  exact List.flatMap_congr fun child _ => child.2.parts_planted plantOf

theorem Node.root_planted {plantOf : NodeId → Plant} {node : Node}
    (named : ∀ place ∈ node.places, (plantOf place).id = place) (id : NodeId) :
    (node.planted plantOf id).root = node := by
  have children_eq : childrenOf (node.planted plantOf id).limbs = node.children := by
    rw [planted, Plant.limbs, childrenOf, List.map_map]
    refine (List.map_congr_left fun child member => ?_).trans (List.map_id node.children)
    refine Prod.ext rfl (Child.child_planted fun place below => named place ?_)
    exact List.mem_flatMap.mpr ⟨child, member, below⟩
  rw [Plant.root, children_eq]
  rfl

namespace Forest

variable {forest : Forest}

/-- What is in a plant is reached from its first node. -/
theorem Has.reaches {plant : Plant} (has : forest.Has plant.cells) {cell : NodeId × Node}
    (member : cell ∈ plant.cells) : forest.Reaches plant.id cell.1 := by
  induction plant using Plant.parts_induction with
  | step plant induction =>
      have root_eq := has.root.2
      rw [Plant.cells_eq_parts] at member
      rcases List.mem_cons.mp member with rfl | in_parts
      · exact .refl
      · obtain ⟨part, in_plant, in_part⟩ := List.mem_flatMap.mp in_parts
        have edge : forest.Parent plant.id part.id := by
          rw [Parent, root_eq, Plant.places_root]
          exact List.mem_map_of_mem in_plant
        exact .head edge
          (induction part in_plant (has.mono fun _ => Plant.mem_cells_of_part in_plant) in_part)

/-- A plant is what its first node reaches. -/
theorem Has.reached_iff {plant : Plant} (has : forest.Has plant.cells) {id : NodeId} :
    0 < countIn id plant.cells ↔ forest.Reaches plant.id id := by
  constructor
  · intro positive
    obtain ⟨cell, member, rfl⟩ := countIn_pos_iff.mp positive
    exact has.reaches member
  · intro reaches
    refine reaches.keeps (fun id => 0 < countIn id plant.cells) ?_ plant.countIn_id_pos
    intro above below in_plant edge
    obtain ⟨cell, member, rfl⟩ := countIn_pos_iff.mp in_plant
    rw [Parent, (has cell member).2] at edge
    exact countIn_pos_iff.mpr (plant.closed member edge)

/-- A plant that stands in a forest, with every object at one place. -/
structure Grows (forest : Forest) (plant : Plant) : Prop where
  /-- The plant stands in the forest. -/
  has : forest.Has plant.cells
  /-- No number occurs twice. -/
  single : ∀ id, countIn id plant.cells ≤ 1

/-- Plants of objects that reach nothing together are apart. -/
theorem Grows.apart {own other : Plant} (own_grows : forest.Grows own) (other_grows : forest.Grows other)
    (apart : ∀ id, forest.Reaches own.id id → ¬forest.Reaches other.id id) (id : NodeId) :
    countIn id own.cells + countIn id other.cells ≤ 1 := by
  have own_single := own_grows.single id
  have other_single := other_grows.single id
  by_contra both
  exact apart id (own_grows.has.reached_iff.mp (by omega)) (other_grows.has.reached_iff.mp (by omega))

namespace Unshared

variable {id : NodeId} {plantOf : NodeId → Plant}

/-- Children of one object reach nothing together. -/
theorem eq_of_reaches_child (unshared : forest.Unshared) (no_cycle : ¬forest.Above id id)
    {first second shared : NodeId} (first_edge : forest.Parent id first)
    (second_edge : forest.Parent id second) (from_first : forest.Reaches first shared)
    (from_second : forest.Reaches second shared) : first = second := by
  by_contra ne
  rcases unshared.reaches_total from_first from_second with reaches | reaches
  · exact no_cycle (.head' first_edge (unshared.reaches_parent reaches ne second_edge))
  · exact no_cycle (.head' second_edge (unshared.reaches_parent reaches (Ne.symm ne) first_edge))

theorem grows_planted (unshared : forest.Unshared) (id_lt : id < forest.next)
    (no_cycle : ¬forest.Above id id)
    (named : ∀ place ∈ (forest.get id).places, (plantOf place).id = place)
    (grows : ∀ place ∈ (forest.get id).places, forest.Grows (plantOf place)) :
    forest.Grows ((forest.get id).planted plantOf id) := by
  have cells_eq : ((forest.get id).planted plantOf id).cells =
      (id, forest.get id) :: (forest.get id).places.flatMap fun place => (plantOf place).cells := by
    rw [Plant.cells_eq_parts, Node.root_planted named, Node.parts_planted, List.flatMap_map]
    rfl
  have reaches : ∀ place ∈ (forest.get id).places, ∀ other,
      other ∈ (plantOf place).cells.map (·.1) → forest.Reaches place other := by
    intro place below other member
    have reaches := (grows place below).has.reached_iff.mp (List.count_pos_iff.mpr member)
    rwa [named place below] at reaches
  refine ⟨fun cell member => ?_, List.nodup_iff_count_le_one.mp ?_⟩
  · rw [cells_eq] at member
    rcases List.mem_cons.mp member with rfl | in_parts
    · exact ⟨id_lt, rfl⟩
    · obtain ⟨place, below, in_part⟩ := List.mem_flatMap.mp in_parts
      exact (grows place below).has cell in_part
  · rw [cells_eq, List.map_cons, List.map_flatMap, List.nodup_cons, List.nodup_flatMap]
    refine ⟨fun again => ?_, fun place below => ?_, ?_⟩
    · obtain ⟨place, below, in_part⟩ := List.mem_flatMap.mp again
      exact no_cycle (.head' below (reaches place below id in_part))
    · exact List.nodup_iff_count_le_one.mpr (grows place below).single
    · refine (unshared.nodup_places id).pairwise_of_forall_ne ?_
      intro first first_below second second_below ne other in_first in_second
      exact ne (unshared.eq_of_reaches_child no_cycle first_below second_below
        (reaches first first_below other in_first) (reaches second second_below other in_second))

/-- An object that is not below itself has a plant. -/
theorem exists_plant (unshared : forest.Unshared) {start : NodeId} (start_lt : start < forest.next)
    (no_cycle : ¬forest.Above start start) : ∃ plant : Plant, plant.id = start ∧ forest.Grows plant := by
  suffices grown : ∀ id : Fin forest.next, forest.Reaches start id →
      ∃ plant : Plant, plant.id = id ∧ forest.Grows plant from
    grown ⟨start, start_lt⟩ ReflTransGen.refl
  intro id
  induction id using (unshared.wellFounded_below no_cycle).induction with
  | _ id induction =>
      intro reaches
      have below : ∀ place ∈ (forest.get id).places, ∃ plant : Plant,
          plant.id = place ∧ forest.Grows plant := fun place edge =>
        induction ⟨place, unshared.within place (mem_places_of_mem_get edge)⟩
          ⟨reaches, TransGen.single edge⟩ (ReflTransGen.tail reaches edge)
      have : Nonempty Plant := ⟨.node start [] []⟩
      choose! plantOf grows using below
      refine ⟨(forest.get id).planted plantOf id, rfl, ?_⟩
      exact unshared.grows_planted id.isLt
        (fun cycle => no_cycle (unshared.above_of_cycle reaches cycle))
        (fun place edge => (grows place edge).1) fun place edge => (grows place edge).2

end Unshared

end Forest

end StationGateway.Tree
