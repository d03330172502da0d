import Mathlib.Data.List.Count
import StationGateway.Proofs.Order.Ascending
import StationGateway.Tree.Forest

/-!
# Places in a forest

A place is an occurrence of a node below another one. However a forest is changed, its maps stay
ascending and no node gets a second place, so a node that is reached from the root is reached from
nowhere else. -/

namespace StationGateway.Tree

open StationGateway.Order

/-! ## Looking up nodes -/

namespace Forest

variable {forest : Forest}

theorem get_eq_getElem? (forest : Forest) (id : NodeId) :
    forest.get id = forest.nodes[id]?.getD .empty := by
  rw [get, Array.getD_eq_getD_getElem?]

theorem get_of_next_le {id : NodeId} (beyond : forest.next ≤ id) : forest.get id = .empty := by
  rw [get_eq_getElem?, Array.getElem?_eq_none beyond]
  rfl

@[simp] theorem next_update (forest : Forest) (id : NodeId) (change : Node → Node) :
    (forest.update id change).next = forest.next :=
  Array.size_modify

@[simp] theorem next_push (forest : Forest) (node : Node) :
    (forest.push node).next = forest.next + 1 :=
  Array.size_push node

theorem get_update_self {id : NodeId} (within : id < forest.next) (change : Node → Node) :
    (forest.update id change).get id = change (forest.get id) := by
  have found : forest.nodes[id]? = some forest.nodes[id] := Array.getElem?_eq_getElem within
  rw [get_eq_getElem?, get_eq_getElem?, update, Array.getElem?_modify, if_pos rfl, found]
  rfl

theorem get_update_of_ne {id other : NodeId} (ne : other ≠ id) (change : Node → Node) :
    (forest.update id change).get other = forest.get other := by
  rw [get_eq_getElem?, get_eq_getElem?, update, Array.getElem?_modify, if_neg ne.symm]

theorem get_push_self (forest : Forest) (node : Node) :
    (forest.push node).get forest.next = node := by
  rw [get_eq_getElem?, push, next, Array.getElem?_push_size]
  rfl

theorem get_push_of_ne {id : NodeId} (ne : id ≠ forest.next) (node : Node) :
    (forest.push node).get id = forest.get id := by
  rw [next] at ne
  rw [get_eq_getElem?, get_eq_getElem?, push, Array.getElem?_push, if_neg ne]

/-- A change that leaves something true of the node of a number leaves it true of all nodes. -/
theorem forall_get_update {property : NodeId → Node → Prop}
    (holds : ∀ id, property id (forest.get id)) {id : NodeId} {change : Node → Node}
    (kept : property id (change (forest.get id))) (other : NodeId) :
    property other ((forest.update id change).get other) := by
  by_cases same : other = id
  · subst same
    by_cases within : other < forest.next
    · rw [get_update_self within]
      exact kept
    · have beyond : forest.next ≤ other := Nat.not_lt.mp within
      have empty := holds other
      rw [get_of_next_le beyond] at empty
      rw [get_of_next_le (by rwa [next_update])]
      exact empty
  · rw [get_update_of_ne same]
    exact holds other

end Forest

/-! ## Tidy nodes -/

/-- An object whose fields, children and maps of children are ascending. -/
structure Node.Tidy (node : Node) : Prop where
  /-- The fields are ascending. -/
  fields : Ascending node.fields
  /-- The children are ascending. -/
  children : Ascending node.children
  /-- Every map of children is ascending. -/
  entries : ∀ name entries, (name, .map entries) ∈ node.children → Ascending entries

/-- Whether a child, if it is a map, is ascending. -/
def Child.Tidy (child : Child) : Prop :=
  ∀ entries, child = .map entries → Ascending entries

namespace Node

variable {node : Node}

theorem tidy_empty : Node.empty.Tidy where
  fields := ascending_nil
  children := ascending_nil
  entries := by simp [Node.empty]

theorem Tidy.child (tidy : node.Tidy) {name : String} {child : Child}
    (found : find? name node.children = some child) : child.Tidy := by
  rintro entries rfl
  exact tidy.entries name entries (mem_of_find? found)

theorem Tidy.setChild (tidy : node.Tidy) (name : String) {child : Child} (child_tidy : child.Tidy) :
    (node.setChild name child).Tidy where
  fields := tidy.fields
  children := tidy.children.put name child
  entries := by
    intro other entries member
    rcases mem_put member with same | in_node
    · exact child_tidy entries (congrArg Prod.snd same).symm
    · exact tidy.entries other entries in_node

theorem Tidy.setField (tidy : node.Tidy) (name : String) (value : Json) :
    (node.setField name value).Tidy where
  fields := tidy.fields.put name value
  children := tidy.children
  entries := tidy.entries

theorem Tidy.dropChild (tidy : node.Tidy) (name : String) : (node.dropChild name).Tidy where
  fields := tidy.fields
  children := tidy.children.erase name
  entries := fun other entries member => tidy.entries other entries (mem_of_mem_erase member)

end Node

theorem Child.tidy_object (id : NodeId) : (Child.object id).Tidy := by
  rintro entries ⟨⟩

theorem Child.tidy_list (items : List NodeId) : (Child.list items).Tidy := by
  rintro entries ⟨⟩

theorem Child.tidy_map {entries : List (String × NodeId)} (ascending : Ascending entries) :
    (Child.map entries).Tidy := by
  rintro _ ⟨⟩
  exact ascending

theorem Node.Tidy.pushItem {node : Node} (tidy : node.Tidy) (name : String) (item : NodeId) :
    (node.pushItem name item).Tidy := by
  rw [Node.pushItem]
  split
  · exact tidy.setChild name (Child.tidy_list _)
  · exact tidy.setChild name (Child.tidy_list _)
  · exact tidy

/-! ## Places -/

/-- The nodes directly below a name. -/
def Child.places : Child → List NodeId
  | .object node => [node]
  | .map entries => entries.map (·.2)
  | .list items => items

/-- The nodes directly below an object. -/
def Node.places (node : Node) : List NodeId :=
  node.children.flatMap fun child => child.2.places

/-- The places of a forest: every node as often as it stands below another one. -/
def Forest.places (forest : Forest) : List NodeId :=
  forest.nodes.toList.flatMap Node.places

theorem Node.count_places (node : Node) (id : NodeId) :
    node.places.count id = total (fun child => child.places.count id) node.children := by
  rw [places, List.count_flatMap]
  rfl

theorem Child.count_map (entries : List (String × NodeId)) (id : NodeId) :
    (Child.map entries).places.count id = total (fun node => [node].count id) entries := by
  induction entries with
  | nil => rfl
  | cons entry rest induction =>
      have split_first : (Child.map (entry :: rest)).places = [entry.2] ++ (Child.map rest).places := rfl
      rw [split_first, List.count_append, induction, total_cons]

/-- Setting a child adds at most the places of that child. -/
theorem Node.count_places_setChild {node : Node} (tidy : node.Tidy) (name : String) (child : Child)
    (id : NodeId) :
    (node.setChild name child).places.count id +
        ((find? name node.children).map fun old => old.places.count id).getD 0 =
      node.places.count id + child.places.count id := by
  rw [count_places, count_places]
  exact total_put tidy.children _ name child

theorem Node.count_places_dropChild_le (node : Node) (name : String) (id : NodeId) :
    (node.dropChild name).places.count id ≤ node.places.count id := by
  rw [count_places, count_places]
  exact total_erase_le _ name node.children

theorem Node.count_places_pushItem_le {node : Node} (tidy : node.Tidy) (name : String) (item : NodeId)
    (id : NodeId) :
    (node.pushItem name item).places.count id ≤ node.places.count id + [item].count id := by
  rw [pushItem]
  split
  next absent =>
    have counted := count_places_setChild tidy name (.list [item]) id
    simp only [absent, Option.map_none, Option.getD_none, Child.places] at counted
    omega
  next items found =>
    have counted := count_places_setChild tidy name (.list (items ++ [item])) id
    simp only [found, Option.map_some, Option.getD_some, Child.places, List.count_append] at counted
    omega
  next => omega

namespace Forest

variable {forest : Forest}

theorem count_modify (id : NodeId) (change : Node → Node) (place : NodeId) {nodes : List Node}
    (within : id < nodes.length) :
    ((nodes.modify id change).flatMap Node.places).count place + nodes[id].places.count place =
      (nodes.flatMap Node.places).count place + (change nodes[id]).places.count place := by
  induction nodes generalizing id with
  | nil => exact absurd within (Nat.not_lt_zero id)
  | cons first rest induction =>
      cases id with
      | zero =>
          simp only [List.modify_zero_cons, List.flatMap_cons, List.count_append,
            List.getElem_cons_zero]
          omega
      | succ id =>
          have rest_eq := induction id (Nat.lt_of_succ_lt_succ within)
          simp only [List.modify_succ_cons, List.flatMap_cons, List.count_append,
            List.getElem_cons_succ]
          omega

/-- Changing a node changes the places of the forest by what it changes of that node. -/
theorem count_places_update {id : NodeId} (within : id < forest.next) (change : Node → Node)
    (place : NodeId) :
    (forest.update id change).places.count place + (forest.get id).places.count place =
      forest.places.count place + (change (forest.get id)).places.count place := by
  have found : forest.get id = forest.nodes.toList[id] := by
    rw [get_eq_getElem?, Array.getElem?_eq_getElem within]
    rfl
  rw [found, places, update, Array.toList_modify]
  exact count_modify id change place within

theorem update_of_next_le {id : NodeId} (beyond : forest.next ≤ id) (change : Node → Node) :
    forest.update id change = forest := by
  rw [update]
  congr
  refine Array.ext_getElem? fun other => ?_
  rw [Array.getElem?_modify]
  split
  next same =>
    rw [← same, Array.getElem?_eq_none beyond]
    rfl
  next => rfl

/-- A change that adds at most some places to a node adds at most these to the forest. -/
theorem count_places_update_le {id : NodeId} {change : Node → Node} {place extra : NodeId}
    (bound : (change (forest.get id)).places.count place ≤
      (forest.get id).places.count place + extra) :
    (forest.update id change).places.count place ≤ forest.places.count place + extra := by
  by_cases within : id < forest.next
  · have counted := count_places_update within change place
    omega
  · rw [update_of_next_le (Nat.not_lt.mp within)]
    exact Nat.le_add_right _ _

@[simp] theorem places_push (forest : Forest) (node : Node) :
    (forest.push node).places = forest.places ++ node.places := by
  rw [places, push, Array.toList_push, List.flatMap_append]
  simp [places]

theorem count_get_le (forest : Forest) (id place : NodeId) :
    (forest.get id).places.count place ≤ forest.places.count place := by
  by_cases within : id < forest.next
  · have counted := count_places_update within (fun _ => .empty) place
    have nothing : Node.empty.places.count place = 0 := rfl
    omega
  · rw [get_of_next_le (Nat.not_lt.mp within)]
    exact Nat.zero_le _

/-- A node that stands below two objects has two places. -/
theorem count_get_add_le (forest : Forest) {id other : NodeId} (ne : id ≠ other) (place : NodeId) :
    (forest.get id).places.count place + (forest.get other).places.count place ≤
      forest.places.count place := by
  by_cases within : id < forest.next
  · have counted := count_places_update within (fun _ => .empty) place
    have nothing : Node.empty.places.count place = 0 := rfl
    have other_le := count_get_le (forest.update id fun _ => .empty) other place
    rw [get_update_of_ne ne.symm] at other_le
    omega
  · rw [get_of_next_le (Nat.not_lt.mp within)]
    have other_le := count_get_le forest other place
    have nothing : Node.empty.places.count place = 0 := rfl
    omega

end Forest

/-- A forest with ascending maps, in which every node but the root has at most one place, and the
root has none. -/
structure Forest.Sound (forest : Forest) : Prop where
  /-- All maps are ascending. -/
  tidy : ∀ id, (forest.get id).Tidy
  /-- No node has two places. -/
  single : ∀ id, forest.places.count id ≤ 1
  /-- What has a place is a node other than the root. -/
  within : ∀ id ∈ forest.places, id ≠ root ∧ id < forest.next

namespace Forest

theorem sound_start : Forest.start.Sound where
  tidy := by
    intro id
    match id with
    | 0 => exact Node.tidy_empty
    | id + 1 =>
        rw [get_of_next_le (show start.next ≤ id + 1 from Nat.le_add_left 1 id)]
        exact Node.tidy_empty
  single := fun id => Nat.zero_le 1
  within := by
    intro id member
    cases member

/-- What stands below a node has a place in the forest. -/
theorem mem_places_of_mem_get {forest : Forest} {id place : NodeId}
    (member : place ∈ (forest.get id).places) : place ∈ forest.places := by
  rw [← List.count_pos_iff] at member ⊢
  exact Nat.lt_of_lt_of_le member (count_get_le forest id place)

end Forest

end StationGateway.Tree
