import StationGateway.Proofs.Tree.Selected
import StationGateway.Proofs.Tree.Steady

/-!
# Which list an object is of

Every object of a forest is of one list, the one that it was made for, and the root is of none. What
hangs below an object and under which name is then laid down by the lists, and no step of a row
changes that: attaching puts an object of a list where that list belongs, and what absorbs another
object is of the same list. So a tree shows nothing but what its lists and rows have. -/

namespace StationGateway.Tree

open StationGateway.Order

/-- The list that each object is of, by number. -/
abbrev Owners := List (Option String)

/-- Whether an object is of a list. -/
def Owners.Has (owners : Owners) (list : TargetList) (node : NodeId) : Prop :=
  owners[node]? = some (some list.name)

/-- Whether two objects are of the same list. -/
def Owners.Same (owners : Owners) (pair : NodeId × NodeId) : Prop :=
  ∃ owner, owners[pair.1]? = some owner ∧ owners[pair.2]? = some owner

/-- Lists of which each has a place of its own: its parent is one of them, and what hangs below an
object under some name is of one list only. -/
structure Material.Clear (material : Material) : Prop where
  /-- Parents are lists of the tree. -/
  parents : ∀ list ∈ material.lists, ∀ parent ∈ list.lookUp.parentList,
    ∃ other ∈ material.lists, other.name = parent
  /-- Two lists do not hang in one place. -/
  apart : ∀ list ∈ material.lists, ∀ other ∈ material.lists, list.lookUp.attachment ≠ .merge →
    other.lookUp.attachment ≠ .merge → list.lookUp.parentList = other.lookUp.parentList →
    list.lookUp.parentTarget = other.lookUp.parentTarget ∨ list.lookUp.parentTarget = none ∨
      other.lookUp.parentTarget = none → list = other

section Forests

variable {material : Material} {owners : Owners} {owner : Option String} {name : String}

/-- Two lists below objects of one owner are one if they hang under the same name or among its
entries. -/
theorem Material.Clear.eq_of_hangs (clear : material.Clear) {list other : TargetList}
    {attachment other_attachment : Attachment} {target other_target : Option String}
    (hangs : material.Hangs list attachment owner target)
    (other_hangs : material.Hangs other other_attachment owner other_target)
    (not_merge : attachment ≠ .merge) (other_not_merge : other_attachment ≠ .merge)
    (near : target = other_target ∨ target = none ∨ other_target = none) : list = other := by
  refine clear.apart list hangs.within other other_hangs.within ?_ ?_ ?_ ?_
  · exact hangs.attachment ▸ not_merge
  · exact other_hangs.attachment ▸ other_not_merge
  · exact hangs.owner.trans other_hangs.owner.symm
  · rw [hangs.target, other_hangs.target]
    exact near

/-! ## What hangs below an object -/

/-- Whether a child hangs below objects of an owner under a name as the lists have it. -/
inductive ChildOf (material : Material) (owners : Owners) (owner : Option String) (name : String) :
    Child → Prop
  | inline {list : TargetList} {node : NodeId}
      (hangs : material.Hangs list .inline owner (some name)) (has : owners.Has list node) :
      ChildOf material owners owner name (.object node)
  | entry {list : TargetList} {node : NodeId} (hangs : material.Hangs list .map owner none)
      (is_key : material.IsKey list name) (has : owners.Has list node) :
      ChildOf material owners owner name (.object node)
  | map {list : TargetList} {entries : List (String × NodeId)}
      (hangs : material.Hangs list .map owner (some name))
      (keys : ∀ entry ∈ entries, material.IsKey list entry.1)
      (has : ∀ entry ∈ entries, owners.Has list entry.2) :
      ChildOf material owners owner name (.map entries)
  | list {list : TargetList} {items : List NodeId}
      (hangs : material.Hangs list .list owner (some name))
      (has : ∀ item ∈ items, owners.Has list item) : ChildOf material owners owner name (.list items)

/-- The list that an object below another one is of. -/
theorem ChildOf.exists_list {node : NodeId}
    (child_of : ChildOf material owners owner name (.object node)) :
    ∃ list attachment target, material.Hangs list attachment owner target ∧ attachment ≠ .merge ∧
      (target = some name ∨ target = none) ∧ owners.Has list node := by
  cases child_of with
  | inline hangs has => exact ⟨_, _, _, hangs, by decide, .inl rfl, has⟩
  | entry hangs is_key has => exact ⟨_, _, _, hangs, by decide, .inr rfl, has⟩

theorem ChildOf.same (clear : material.Clear) {node other : NodeId}
    (child_of : ChildOf material owners owner name (.object node))
    (other_of : ChildOf material owners owner name (.object other)) : owners.Same (other, node) := by
  obtain ⟨list, _, target, hangs, not_merge, under, has⟩ := child_of.exists_list
  obtain ⟨other_list, _, other_target, other_hangs, other_not_merge, other_under, other_has⟩ :=
    other_of.exists_list
  have near : target = other_target ∨ target = none ∨ other_target = none := by
    rcases under with rfl | rfl
    · rcases other_under with rfl | rfl
      · exact .inl rfl
      · exact .inr (.inr rfl)
    · exact .inr (.inl rfl)
  obtain rfl := clear.eq_of_hangs hangs other_hangs not_merge other_not_merge near
  exact ⟨some list.name, other_has, has⟩

theorem unionEntries_of {list : TargetList} {own other : List (String × NodeId)}
    (own_of : ∀ entry ∈ own, material.IsKey list entry.1 ∧ owners.Has list entry.2)
    (other_of : ∀ entry ∈ other, material.IsKey list entry.1 ∧ owners.Has list entry.2) :
    (∀ entry ∈ (unionEntries own other).1,
        material.IsKey list entry.1 ∧ owners.Has list entry.2) ∧
      ∀ pair ∈ (unionEntries own other).2, owners.Same pair := by
  rw [unionEntries]
  refine List.foldlRecOn (motive := fun state : List (String × NodeId) × List (NodeId × NodeId) =>
    (∀ entry ∈ state.1, material.IsKey list entry.1 ∧ owners.Has list entry.2) ∧
      ∀ pair ∈ state.2, owners.Same pair) other _ ⟨own_of, fun _ member => absurd member List.not_mem_nil⟩ ?_
  rintro ⟨entries, pairs⟩ ⟨entries_of, pairs_same⟩ ⟨key, node⟩ in_other
  dsimp only
  cases found : find? key entries with
  | none =>
      refine ⟨fun entry member => ?_, pairs_same⟩
      rcases mem_put member with rfl | in_entries
      · exact other_of (key, node) in_other
      · exact entries_of entry in_entries
  | some existing =>
      refine ⟨entries_of, fun pair member => ?_⟩
      rcases List.mem_append.mp member with before | is_new
      · exact pairs_same pair before
      · obtain rfl := List.mem_singleton.mp is_new
        exact ⟨some list.name, (other_of (key, node) in_other).2,
          (entries_of (key, existing) (mem_of_find? found)).2⟩

theorem ChildOf.union (clear : material.Clear) {own other : Child}
    (own_of : ChildOf material owners owner name own)
    (other_of : ChildOf material owners owner name other) :
    ChildOf material owners owner name (unionChild own other).1 ∧
      ∀ pair ∈ (unionChild own other).2, owners.Same pair := by
  cases own with
  | object node =>
      cases other with
      | object other_node =>
          refine ⟨own_of, fun pair member => ?_⟩
          obtain rfl := List.mem_singleton.mp member
          exact own_of.same clear other_of
      | map others => exact ⟨own_of, fun _ member => absurd member List.not_mem_nil⟩
      | list others => exact ⟨own_of, fun _ member => absurd member List.not_mem_nil⟩
  | map entries =>
      cases other with
      | object other_node => exact ⟨own_of, fun _ member => absurd member List.not_mem_nil⟩
      | list others => exact ⟨own_of, fun _ member => absurd member List.not_mem_nil⟩
      | map others =>
          cases own_of with
          | map hangs keys has =>
              cases other_of with
              | map other_hangs other_keys other_has =>
                  obtain rfl := clear.eq_of_hangs hangs other_hangs (by decide) (by decide) (.inl rfl)
                  obtain ⟨united_of, pairs_same⟩ := unionEntries_of
                    (fun entry member => ⟨keys entry member, has entry member⟩)
                    (fun entry member => ⟨other_keys entry member, other_has entry member⟩)
                  exact ⟨.map hangs (fun entry member => (united_of entry member).1)
                    fun entry member => (united_of entry member).2, pairs_same⟩
  | list items =>
      cases other with
      | object other_node => exact ⟨own_of, fun _ member => absurd member List.not_mem_nil⟩
      | map others => exact ⟨own_of, fun _ member => absurd member List.not_mem_nil⟩
      | list others =>
          cases own_of with
          | list hangs has =>
              cases other_of with
              | list other_hangs other_has =>
                  obtain rfl := clear.eq_of_hangs hangs other_hangs (by decide) (by decide) (.inl rfl)
                  refine ⟨.list hangs fun item member => ?_, fun _ member => absurd member List.not_mem_nil⟩
                  exact (List.mem_append.mp member).elim (has item) (other_has item)

/-! ## Objects -/

/-- Whether an object is one of an owner: it has fields that such an object may have, and what hangs
below it is what belongs there. -/
structure Node.IsOf (material : Material) (owners : Owners) (owner : Option String) (node : Node) :
    Prop where
  /-- Its fields. -/
  fields : ∀ field ∈ node.fields, material.HasField owner field.1 field.2
  /-- What hangs below it. -/
  children : ∀ child ∈ node.children, ChildOf material owners owner child.1 child.2

namespace Node

variable {node other : Node}

theorem isOf_empty (material : Material) (owners : Owners) (owner : Option String) :
    Node.empty.IsOf material owners owner :=
  ⟨fun _ member => absurd member List.not_mem_nil, fun _ member => absurd member List.not_mem_nil⟩

theorem IsOf.setField (is_of : node.IsOf material owners owner) {value : Json}
    (has : material.HasField owner name value) :
    (node.setField name value).IsOf material owners owner where
  fields := by
    intro field member
    rcases mem_put member with rfl | in_node
    · exact has
    · exact is_of.fields field in_node
  children := is_of.children

theorem IsOf.setChild (is_of : node.IsOf material owners owner) {child : Child}
    (child_of : ChildOf material owners owner name child) :
    (node.setChild name child).IsOf material owners owner where
  fields := is_of.fields
  children := by
    intro other member
    rcases mem_put member with rfl | in_node
    · exact child_of
    · exact is_of.children other in_node

theorem IsOf.dropChild (is_of : node.IsOf material owners owner) (name : String) :
    (node.dropChild name).IsOf material owners owner where
  fields := is_of.fields
  children := fun child member => is_of.children child (mem_of_mem_erase member)

theorem IsOf.pushItem (clear : material.Clear) (is_of : node.IsOf material owners owner)
    {list : TargetList} (hangs : material.Hangs list .list owner (some name)) {item : NodeId}
    (has : owners.Has list item) : (node.pushItem name item).IsOf material owners owner := by
  rw [Node.pushItem]
  split
  next =>
    refine is_of.setChild (.list hangs fun other member => ?_)
    exact List.mem_singleton.mp member ▸ has
  next items found =>
    cases is_of.children _ (mem_of_find? found) with
    | list other_hangs items_of =>
        obtain rfl := clear.eq_of_hangs hangs other_hangs (by decide) (by decide) (.inl rfl)
        refine is_of.setChild (.list hangs fun other member => ?_)
        rcases List.mem_append.mp member with before | is_new
        · exact items_of other before
        · exact List.mem_singleton.mp is_new ▸ has
  next => exact is_of

theorem unionChildren_of (clear : material.Clear) {own others : List (String × Child)}
    (own_of : ∀ child ∈ own, ChildOf material owners owner child.1 child.2)
    (others_of : ∀ child ∈ others, ChildOf material owners owner child.1 child.2) :
    (∀ child ∈ (unionChildren own others).1, ChildOf material owners owner child.1 child.2) ∧
      ∀ pair ∈ (unionChildren own others).2, owners.Same pair := by
  rw [unionChildren]
  refine List.foldlRecOn (motive := fun state : List (String × Child) × List (NodeId × NodeId) =>
    (∀ child ∈ state.1, ChildOf material owners owner child.1 child.2) ∧
      ∀ pair ∈ state.2, owners.Same pair) others _ ⟨own_of, fun _ member => absurd member List.not_mem_nil⟩ ?_
  rintro ⟨children, pairs⟩ ⟨children_of, pairs_same⟩ ⟨name, child⟩ in_others
  dsimp only
  cases found : find? name children with
  | none =>
      refine ⟨fun other member => ?_, pairs_same⟩
      rcases mem_put member with rfl | in_children
      · exact others_of (name, child) in_others
      · exact children_of other in_children
  | some existing =>
      obtain ⟨united_of, more_same⟩ := (children_of _ (mem_of_find? found)).union clear
        (others_of (name, child) in_others)
      refine ⟨fun other member => ?_, fun pair member => ?_⟩
      · rcases mem_put member with rfl | in_children
        · exact united_of
        · exact children_of other in_children
      · exact (List.mem_append.mp member).elim (pairs_same pair) (more_same pair)

theorem IsOf.union (clear : material.Clear) (is_of : node.IsOf material owners owner)
    (other_is_of : other.IsOf material owners owner) : (node.union other).IsOf material owners owner where
  fields := by
    rw [Node.union, unionFields]
    refine List.foldlRecOn (motive := fun fields : List (String × Json) =>
      ∀ field ∈ fields, material.HasField owner field.1 field.2) other.fields _ is_of.fields ?_
    rintro fields fields_of ⟨name, value⟩ in_other field member
    dsimp only at member
    split_ifs at member with present
    · exact fields_of field member
    · rcases mem_put member with rfl | in_fields
      · exact other_is_of.fields (name, value) in_other
      · exact fields_of field in_fields
  children := (unionChildren_of clear is_of.children other_is_of.children).1

end Node

/-! ## Forests -/

/-- Whether every object of a forest is one of its owner. -/
structure Forest.Owned (material : Material) (owners : Owners) (forest : Forest) : Prop where
  /-- Every object has an owner. -/
  length : owners.length = forest.next
  /-- The root is of no list. -/
  root : owners[Forest.root]? = some none
  /-- Objects are what their owner says. -/
  nodes : ∀ id owner, owners[id]? = some owner → (forest.get id).IsOf material owners owner

namespace Forest

variable {forest : Forest}

theorem Owned.update (owned : forest.Owned material owners) {id : NodeId} {change : Node → Node}
    (changed : ∀ owner, owners[id]? = some owner → (forest.get id).IsOf material owners owner →
      (change (forest.get id)).IsOf material owners owner) :
    (forest.update id change).Owned material owners where
  length := by rw [next_update, owned.length]
  root := owned.root
  nodes := @forall_get_update _
    (fun id node => ∀ owner, owners[id]? = some owner → node.IsOf material owners owner) owned.nodes _ _
    fun owner owner_eq => changed owner owner_eq (owned.nodes id owner owner_eq)

theorem Owned.move (clear : material.Clear) (owned : forest.Owned material owners)
    {source target : NodeId} (same : owners.Same (source, target)) :
    (forest.move source target).Owned material owners ∧
      ∀ pair ∈ forest.pending source target, owners.Same pair := by
  obtain ⟨owner, source_owner, target_owner⟩ := same
  have source_of := owned.nodes source owner source_owner
  have target_of := owned.nodes target owner target_owner
  have emptied : (forest.update source fun _ => .empty).Owned material owners :=
    owned.update fun _ _ _ => Node.isOf_empty _ _ _
  refine ⟨?_, (Node.unionChildren_of clear target_of.children source_of.children).2⟩
  rw [move_eq]
  refine emptied.update fun other other_eq _ => ?_
  obtain rfl : owner = other := Option.some.inj (target_owner.symm.trans other_eq)
  exact target_of.union clear source_of

theorem Owned.absorb (clear : material.Clear) (owned : forest.Owned material owners)
    {source target : NodeId} (same : owners.Same (source, target)) :
    (forest.absorb source target).Owned material owners :=
  absorbWithin_induction_pair
    (fun _ _ _ later_owned later_same _ => later_owned.move clear later_same) _ _ _ _ owned same

end Forest

end Forests

end StationGateway.Tree
