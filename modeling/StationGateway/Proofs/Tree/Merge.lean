import Mathlib
import StationGateway.Proofs.Order.Union
import StationGateway.Proofs.Tree.Plant

/-!
# Merging plants

The deep merge of two plants: fields and objects of the first stay, and what only the second has is
added. The cells of a merge are those that the two plants do not share, and those of the merges of
what they share. -/

namespace StationGateway.Tree

open StationGateway.Order

mutual

/-- A plant with all of another one that it lacks. -/
def Plant.merge (own : Plant) : Plant → Plant
  | .node _ fields limbs => .node own.id (unionFields own.fields fields) (mergeLimbs own.limbs limbs)
termination_by structural other => other

/-- What is attached to one object with what is attached to another. -/
def mergeLimbs (own : List (String × Limb)) : List (String × Limb) → List (String × Limb)
  | [] => own
  | (name, limb) :: rest =>
      match find? name own with
      | none => mergeLimbs (put name limb own) rest
      | some existing => mergeLimbs (put name (existing.merge limb) own) rest
termination_by structural other => other

/-- What is attached under a name with what another object has there, if it is of the same kind. -/
def Limb.merge (own : Limb) : Limb → Limb
  | .map others =>
      match own with
      | .map entries => .map (mergeEntries entries others)
      | _ => own
  | .list others =>
      match own with
      | .list items => .list (items ++ others)
      | _ => own
  | .object other =>
      match own with
      | .object plant => .object (plant.merge other)
      | _ => own
termination_by structural other => other

/-- The entries of one map with those of another. -/
def mergeEntries (own : List (String × Plant)) : List (String × Plant) → List (String × Plant)
  | [] => own
  | (name, plant) :: rest =>
      match find? name own with
      | none => mergeEntries (put name plant own) rest
      | some existing => mergeEntries (put name (existing.merge plant) own) rest
termination_by structural other => other

end

theorem mergeLimbs_eq_unionWith (own more : List (String × Limb)) :
    mergeLimbs own more = unionWith Limb.merge own more := by
  induction more generalizing own with
  | nil => rfl
  | cons limb rest induction =>
      rw [mergeLimbs, unionWith_cons]
      cases find? limb.1 own with
      | none => exact induction _
      | some existing => exact induction _

theorem mergeEntries_eq_unionWith (own more : List (String × Plant)) :
    mergeEntries own more = unionWith Plant.merge own more := by
  induction more generalizing own with
  | nil => rfl
  | cons entry rest induction =>
      rw [mergeEntries, unionWith_cons]
      cases find? entry.1 own with
      | none => exact induction _
      | some existing => exact induction _

namespace Plant

theorem merge_eq (own other : Plant) :
    own.merge other =
      .node own.id (unionFields own.fields other.fields) (unionWith Limb.merge own.limbs other.limbs) := by
  cases other
  rw [merge, mergeLimbs_eq_unionWith]
  rfl

@[simp] theorem id_merge (own other : Plant) : (own.merge other).id = own.id := by
  rw [merge_eq, id]

theorem fields_merge (own other : Plant) :
    (own.merge other).fields = unionFields own.fields other.fields := by
  rw [merge_eq, fields]

theorem limbs_merge (own other : Plant) :
    (own.merge other).limbs = unionWith Limb.merge own.limbs other.limbs := by
  rw [merge_eq, limbs]

end Plant

/-! ## Tidy plants -/

theorem ascending_limbs {plant : Plant} (tidy : plant.root.Tidy) : Ascending plant.limbs :=
  ascending_of_keys_eq tidy.children (by simp [Plant.root, childrenOf, Function.comp_def])

theorem find?_childrenOf (name : String) (limbs : List (String × Limb)) :
    find? name (childrenOf limbs) = (find? name limbs).map Limb.child :=
  find?_map Limb.child name limbs

theorem ascending_entries {plant : Plant} (tidy : plant.root.Tidy) {name : String}
    {entries : List (String × Plant)} (found : find? name plant.limbs = some (.map entries)) :
    Ascending entries := by
  have found_child : find? name plant.root.children = some (Limb.map entries).child := by
    rw [Plant.root, find?_childrenOf, found]
    rfl
  have ids_ascending := tidy.child found_child _ rfl
  exact ascending_of_keys_eq ids_ascending (by simp [Function.comp_def])

/-- Whether a limb, if it is a map, is ascending. -/
def Limb.Tidy (limb : Limb) : Prop :=
  ∀ entries, limb = .map entries → Ascending entries

theorem tidy_limb {plant : Plant} (tidy : plant.root.Tidy) {name : String} {limb : Limb}
    (found : find? name plant.limbs = some limb) : limb.Tidy := by
  rintro entries rfl
  exact ascending_entries tidy found

/-! ## What two plants share -/

/-- The objects that are to be merged because they stand under one name, those of the second limb
first. -/
def Limb.pairs (own : Limb) : Limb → List (Plant × Plant)
  | .map others =>
      match own with
      | .map entries => shared entries others
      | _ => []
  | .object other =>
      match own with
      | .object plant => [(other, plant)]
      | _ => []
  | .list _ => []

/-- The cells of a merge of limbs that no merge of objects changes. -/
def Limb.kept (own : Limb) : Limb → List (NodeId × Node)
  | .map others =>
      match own with
      | .map entries => entriesCells (without entries others) ++ entriesCells (without others entries)
      | _ => own.cells
  | .list others =>
      match own with
      | .list items => itemsCells items ++ itemsCells others
      | _ => own.cells
  | .object _ =>
      match own with
      | .object _ => []
      | _ => own.cells

namespace Plant

/-- The objects below two plants that are to be merged, those of the second plant first. -/
def pairs (own other : Plant) : List (Plant × Plant) :=
  (shared own.limbs other.limbs).flatMap fun pair => pair.2.pairs pair.1

/-- The cells below a merge of plants that no merge of objects below changes. -/
def kept (own other : Plant) : List (NodeId × Node) :=
  (limbsCells (without own.limbs other.limbs) ++ limbsCells (without other.limbs own.limbs)) ++
    (shared own.limbs other.limbs).flatMap fun pair => pair.2.kept pair.1

end Plant

/-- The number of times that a number occurs in two plants. -/
def countPair (id : NodeId) (pair : Plant × Plant) : Nat :=
  countIn id pair.1.cells + countIn id pair.2.cells

theorem Limb.countIn_kept_add (id : NodeId) {own other : Limb} (own_tidy : own.Tidy)
    (other_tidy : other.Tidy) :
    countIn id (own.kept other) + ((own.pairs other).map (countPair id)).sum ≤
      countIn id own.cells + countIn id other.cells := by
  cases other with
  | map others =>
      cases own with
      | map entries =>
          have weighed := total_add_total (own_tidy entries rfl) (other_tidy others rfl)
            (fun plant => countIn id plant.cells)
          simp only [kept, pairs, cells, countIn_append, countIn_entriesCells]
          rw [Nat.add_comm]
          exact Nat.le_of_eq weighed
      | object plant => simp [kept, pairs]
      | list items => simp [kept, pairs]
  | object other =>
      cases own with
      | map entries => simp [kept, pairs]
      | object plant =>
          simp only [kept, pairs, cells, countPair, countIn_nil, List.map_cons, List.map_nil,
            List.sum_cons, List.sum_nil]
          omega
      | list items => simp [kept, pairs]
  | list others =>
      cases own with
      | map entries => simp [kept, pairs]
      | object plant => simp [kept, pairs]
      | list items => simp [kept, pairs, cells]

theorem countIn_flatMap {γ : Type} (id : NodeId) (items : List γ)
    (cells : γ → List (NodeId × Node)) :
    countIn id (items.flatMap cells) = (items.map fun item => countIn id (cells item)).sum := by
  induction items with
  | nil => rfl
  | cons item rest induction =>
      rw [List.flatMap_cons, countIn_append, induction, List.map_cons, List.sum_cons]

theorem sum_flatMap {γ δ : Type} (items : List γ) (parts : γ → List δ) (weight : δ → Nat) :
    ((items.flatMap parts).map weight).sum = (items.map fun item => ((parts item).map weight).sum).sum := by
  induction items with
  | nil => rfl
  | cons item rest induction =>
      rw [List.flatMap_cons, List.map_append, List.sum_append, induction, List.map_cons, List.sum_cons]

theorem sum_map_add_le {γ : Type} {items : List γ} {first second : γ → Nat} {less : Nat} {item : γ}
    (member : item ∈ items) (le : ∀ other ∈ items, first other ≤ second other)
    (add_le : first item + less ≤ second item) :
    (items.map first).sum + less ≤ (items.map second).sum := by
  induction items with
  | nil => cases member
  | cons other rest induction =>
      rw [List.map_cons, List.map_cons, List.sum_cons, List.sum_cons]
      rcases List.mem_cons.mp member with rfl | in_rest
      · have rest_le : (rest.map first).sum ≤ (rest.map second).sum :=
          List.sum_le_sum fun other member => le other (List.mem_cons_of_mem item member)
        omega
      · have other_le := le other List.mem_cons_self
        have rest_le := induction in_rest fun more member => le more (List.mem_cons_of_mem other member)
        omega

theorem tidy_of_mem_shared {own other : Plant} (own_tidy : own.root.Tidy)
    (other_tidy : other.root.Tidy) {pair : Limb × Limb} (member : pair ∈ shared own.limbs other.limbs) :
    pair.2.Tidy ∧ pair.1.Tidy := by
  obtain ⟨name, in_other, found⟩ := mem_shared.mp member
  exact ⟨tidy_limb own_tidy found,
    tidy_limb other_tidy (find?_of_mem (ascending_limbs other_tidy) in_other)⟩

/-- No number occurs more often in the parts of a merge than in the two plants. -/
theorem Plant.countIn_kept_add (id : NodeId) {own other : Plant} (own_tidy : own.root.Tidy)
    (other_tidy : other.root.Tidy) :
    countIn id (own.kept other) + ((own.pairs other).map (countPair id)).sum ≤
      countIn id (limbsCells own.limbs) + countIn id (limbsCells other.limbs) := by
  have weighed := total_add_total (ascending_limbs own_tidy) (ascending_limbs other_tidy)
    (fun limb => countIn id limb.cells)
  have shared_le : ((shared own.limbs other.limbs).map fun pair =>
        countIn id (pair.2.kept pair.1) + ((pair.2.pairs pair.1).map (countPair id)).sum).sum ≤
      ((shared own.limbs other.limbs).map fun pair =>
        countIn id pair.1.cells + countIn id pair.2.cells).sum := by
    refine List.sum_le_sum fun pair member => ?_
    obtain ⟨own_limb_tidy, other_limb_tidy⟩ := tidy_of_mem_shared own_tidy other_tidy member
    rw [Nat.add_comm (countIn id pair.1.cells)]
    exact Limb.countIn_kept_add id own_limb_tidy other_limb_tidy
  rw [List.sum_map_add] at shared_le
  rw [kept, pairs, countIn_append, countIn_append, countIn_flatMap, sum_flatMap, countIn_limbsCells,
    countIn_limbsCells, countIn_limbsCells, countIn_limbsCells]
  omega

/-! ## The cells of a merge -/

theorem Limb.mem_cells_merge {own other : Limb} (own_tidy : own.Tidy) (other_tidy : other.Tidy)
    {cell : NodeId × Node} (member : cell ∈ (own.merge other).cells) :
    cell ∈ own.kept other ∨ ∃ pair ∈ own.pairs other, cell ∈ (pair.2.merge pair.1).cells := by
  cases other with
  | map others =>
      cases own with
      | map entries =>
          rw [merge, cells, mergeEntries_eq_unionWith, mem_entriesCells] at member
          obtain ⟨entry, in_union, in_entry⟩ := member
          rcases mem_unionWith (own_tidy entries rfl) (other_tidy others rfl) in_union with
            in_own | in_other | ⟨pair, in_shared, merged⟩
          · exact .inl (List.mem_append_left _ (mem_entriesCells.mpr ⟨entry, in_own, in_entry⟩))
          · exact .inl (List.mem_append_right _ (mem_entriesCells.mpr ⟨entry, in_other, in_entry⟩))
          · exact .inr ⟨pair, in_shared, merged ▸ in_entry⟩
      | object plant => exact .inl member
      | list items => exact .inl member
  | object other =>
      cases own with
      | map entries => exact .inl member
      | object plant => exact .inr ⟨(other, plant), List.mem_singleton_self _, member⟩
      | list items => exact .inl member
  | list others =>
      cases own with
      | map entries => exact .inl member
      | object plant => exact .inl member
      | list items =>
          rw [merge, cells, itemsCells_append] at member
          exact .inl member

/-- The cells below a merge are those that are kept and those of the merges of what is shared. -/
theorem Plant.mem_limbsCells_merge {own other : Plant} (own_tidy : own.root.Tidy)
    (other_tidy : other.root.Tidy) {cell : NodeId × Node}
    (member : cell ∈ limbsCells (own.merge other).limbs) :
    cell ∈ own.kept other ∨ ∃ pair ∈ own.pairs other, cell ∈ (pair.2.merge pair.1).cells := by
  rw [limbs_merge, mem_limbsCells] at member
  obtain ⟨limb, in_union, in_limb⟩ := member
  rcases mem_unionWith (ascending_limbs own_tidy) (ascending_limbs other_tidy) in_union with
    in_own | in_other | ⟨pair, in_shared, merged⟩
  · refine .inl (List.mem_append_left _ (List.mem_append_left _ ?_))
    exact mem_limbsCells.mpr ⟨limb, in_own, in_limb⟩
  · refine .inl (List.mem_append_left _ (List.mem_append_right _ ?_))
    exact mem_limbsCells.mpr ⟨limb, in_other, in_limb⟩
  · obtain ⟨own_limb_tidy, other_limb_tidy⟩ := tidy_of_mem_shared own_tidy other_tidy in_shared
    rw [merged] at in_limb
    rcases Limb.mem_cells_merge own_limb_tidy other_limb_tidy in_limb with in_kept | ⟨inner, in_pairs, in_merge⟩
    · exact .inl (List.mem_append_right _ (List.mem_flatMap.mpr ⟨pair, in_shared, in_kept⟩))
    · exact .inr ⟨inner, List.mem_flatMap.mpr ⟨pair, in_shared, in_pairs⟩, in_merge⟩

theorem Limb.countIn_merge (id : NodeId) {own other : Limb} (own_tidy : own.Tidy)
    (other_tidy : other.Tidy) :
    countIn id (own.merge other).cells =
      countIn id (own.kept other) +
        ((own.pairs other).map fun pair => countIn id (pair.2.merge pair.1).cells).sum := by
  cases other with
  | map others =>
      cases own with
      | map entries =>
          rw [merge, cells, mergeEntries_eq_unionWith, countIn_entriesCells,
            total_unionWith (own_tidy entries rfl) (other_tidy others rfl)]
          simp only [kept, pairs, countIn_append, countIn_entriesCells]
      | object plant => rfl
      | list items => rfl
  | object other =>
      cases own with
      | map entries => rfl
      | object plant => simp [merge, kept, pairs, cells]
      | list items => rfl
  | list others =>
      cases own with
      | map entries => rfl
      | object plant => rfl
      | list items => simp [merge, kept, pairs, cells, itemsCells_append]

/-- The cells below a merge are those that are kept and those of the merges of what is shared. -/
theorem Plant.countIn_limbsCells_merge (id : NodeId) {own other : Plant} (own_tidy : own.root.Tidy)
    (other_tidy : other.root.Tidy) :
    countIn id (limbsCells (own.merge other).limbs) =
      countIn id (own.kept other) +
        ((own.pairs other).map fun pair => countIn id (pair.2.merge pair.1).cells).sum := by
  have shared_eq : ((shared own.limbs other.limbs).map fun pair =>
        countIn id (pair.2.merge pair.1).cells) =
      (shared own.limbs other.limbs).map fun pair =>
        countIn id (pair.2.kept pair.1) +
          ((pair.2.pairs pair.1).map fun inner => countIn id (inner.2.merge inner.1).cells).sum := by
    refine List.map_congr_left fun pair member => ?_
    obtain ⟨own_limb_tidy, other_limb_tidy⟩ := tidy_of_mem_shared own_tidy other_tidy member
    exact Limb.countIn_merge id own_limb_tidy other_limb_tidy
  rw [limbs_merge, countIn_limbsCells,
    total_unionWith (ascending_limbs own_tidy) (ascending_limbs other_tidy), shared_eq,
    List.sum_map_add, kept, pairs, countIn_append, countIn_append, countIn_flatMap, sum_flatMap,
    countIn_limbsCells, countIn_limbsCells]
  omega

/-! ## Where the parts of a merge come from -/

theorem mem_limbsCells_of_mem_shared {own other : Plant} {pair : Limb × Limb}
    (member : pair ∈ shared own.limbs other.limbs) {cell : NodeId × Node} :
    (cell ∈ pair.1.cells → cell ∈ limbsCells other.limbs) ∧
      (cell ∈ pair.2.cells → cell ∈ limbsCells own.limbs) := by
  obtain ⟨name, in_other, found⟩ := mem_shared.mp member
  exact ⟨fun in_first => mem_limbsCells.mpr ⟨_, in_other, in_first⟩,
    fun in_second => mem_limbsCells.mpr ⟨_, mem_of_find? found, in_second⟩⟩

theorem mem_entriesCells_of_mem_shared {entries others : List (String × Plant)}
    {pair : Plant × Plant} (member : pair ∈ shared entries others) {cell : NodeId × Node} :
    (cell ∈ pair.1.cells → cell ∈ entriesCells others) ∧
      (cell ∈ pair.2.cells → cell ∈ entriesCells entries) := by
  obtain ⟨key, in_others, found⟩ := mem_shared.mp member
  exact ⟨fun in_first => mem_entriesCells.mpr ⟨_, in_others, in_first⟩,
    fun in_second => mem_entriesCells.mpr ⟨_, mem_of_find? found, in_second⟩⟩

theorem mem_entriesCells_of_without {entries others : List (String × Plant)} {cell : NodeId × Node}
    (member : cell ∈ entriesCells (without entries others)) : cell ∈ entriesCells entries := by
  obtain ⟨entry, in_without, in_entry⟩ := mem_entriesCells.mp member
  exact mem_entriesCells.mpr ⟨entry, (List.mem_filter.mp in_without).1, in_entry⟩

theorem mem_limbsCells_of_without {limbs others : List (String × Limb)} {cell : NodeId × Node}
    (member : cell ∈ limbsCells (without limbs others)) : cell ∈ limbsCells limbs := by
  obtain ⟨limb, in_without, in_limb⟩ := mem_limbsCells.mp member
  exact mem_limbsCells.mpr ⟨limb, (List.mem_filter.mp in_without).1, in_limb⟩

theorem Limb.mem_of_mem_kept {own other : Limb} {cell : NodeId × Node}
    (member : cell ∈ own.kept other) : cell ∈ own.cells ∨ cell ∈ other.cells := by
  cases other with
  | map others =>
      cases own with
      | map entries =>
          exact (List.mem_append.mp member).imp mem_entriesCells_of_without mem_entriesCells_of_without
      | object plant => exact .inl member
      | list items => exact .inl member
  | object other =>
      cases own with
      | map entries => exact .inl member
      | object plant => cases member
      | list items => exact .inl member
  | list others =>
      cases own with
      | map entries => exact .inl member
      | object plant => exact .inl member
      | list items => exact List.mem_append.mp member

theorem Limb.cells_of_mem_pairs {own other : Limb} {pair : Plant × Plant}
    (member : pair ∈ own.pairs other) {cell : NodeId × Node} :
    (cell ∈ pair.1.cells → cell ∈ other.cells) ∧ (cell ∈ pair.2.cells → cell ∈ own.cells) := by
  cases other with
  | map others =>
      cases own with
      | map entries => exact mem_entriesCells_of_mem_shared member
      | object plant => cases member
      | list items => cases member
  | object other =>
      cases own with
      | map entries => cases member
      | object plant =>
          obtain rfl := List.mem_singleton.mp member
          exact ⟨id, id⟩
      | list items => cases member
  | list others => cases member

namespace Plant

/-- What is kept belongs to one of the two plants. -/
theorem mem_of_mem_kept {own other : Plant} {cell : NodeId × Node}
    (member : cell ∈ own.kept other) :
    cell ∈ limbsCells own.limbs ∨ cell ∈ limbsCells other.limbs := by
  rcases List.mem_append.mp member with in_alone | in_shared
  · exact (List.mem_append.mp in_alone).imp mem_limbsCells_of_without mem_limbsCells_of_without
  · obtain ⟨pair, in_pairs, in_kept⟩ := List.mem_flatMap.mp in_shared
    have from_plants := @mem_limbsCells_of_mem_shared own other pair in_pairs cell
    exact (Limb.mem_of_mem_kept in_kept).imp from_plants.2 from_plants.1

/-- What is shared belongs to the two plants. -/
theorem cells_of_mem_pairs {own other : Plant} {pair : Plant × Plant}
    (member : pair ∈ own.pairs other) {cell : NodeId × Node} :
    (cell ∈ pair.1.cells → cell ∈ limbsCells other.limbs) ∧
      (cell ∈ pair.2.cells → cell ∈ limbsCells own.limbs) := by
  obtain ⟨limbs, in_shared, in_pairs⟩ := List.mem_flatMap.mp member
  have from_plants := @mem_limbsCells_of_mem_shared own other limbs in_shared cell
  have from_limbs := @Limb.cells_of_mem_pairs limbs.2 limbs.1 pair in_pairs cell
  exact ⟨from_plants.1 ∘ from_limbs.1, from_plants.2 ∘ from_limbs.2⟩

/-- Whether all maps of a plant are ascending. -/
def Tidy (plant : Plant) : Prop :=
  ∀ cell ∈ plant.cells, cell.2.Tidy

theorem Tidy.root {plant : Plant} (tidy : plant.Tidy) : plant.root.Tidy :=
  tidy (plant.id, plant.root) plant.root_mem_cells

theorem Tidy.of_mem_pairs {own other : Plant} (own_tidy : own.Tidy) (other_tidy : other.Tidy)
    {pair : Plant × Plant} (member : pair ∈ own.pairs other) : pair.2.Tidy ∧ pair.1.Tidy := by
  rw [Tidy, cells_eq] at own_tidy other_tidy
  exact ⟨fun cell in_second =>
      own_tidy cell (List.mem_cons_of_mem _ ((cells_of_mem_pairs member).2 in_second)),
    fun cell in_first =>
      other_tidy cell (List.mem_cons_of_mem _ ((cells_of_mem_pairs member).1 in_first))⟩

theorem countPair_le_of_mem {own other : Plant} (own_tidy : own.Tidy) (other_tidy : other.Tidy)
    {pair : Plant × Plant} (member : pair ∈ own.pairs other) (id : NodeId) :
    countPair id pair ≤ countIn id (limbsCells own.limbs) + countIn id (limbsCells other.limbs) := by
  have parts_le := countIn_kept_add id own_tidy.root other_tidy.root
  have le_sum : countPair id pair ≤ ((own.pairs other).map (countPair id)).sum :=
    List.single_le_sum (fun _ _ => Nat.zero_le _) _ (List.mem_map_of_mem member)
  omega

/-- What the parts of two plants have together is apart if the plants are. -/
theorem single_of_mem_pairs {own other : Plant} (own_tidy : own.Tidy) (other_tidy : other.Tidy)
    (single : ∀ id, countIn id own.cells + countIn id other.cells ≤ 1) {pair : Plant × Plant}
    (member : pair ∈ own.pairs other) (id : NodeId) :
    countIn id pair.2.cells + countIn id pair.1.cells ≤ 1 := by
  have pair_le := countPair_le_of_mem own_tidy other_tidy member id
  have single := single id
  rw [own.cells_eq, other.cells_eq, countIn_cons, countIn_cons] at single
  rw [countPair] at pair_le
  omega

/-- What the second plant shares is smaller than that plant. -/
theorem length_lt_of_mem_pairs {own other : Plant} (own_tidy : own.Tidy) (other_tidy : other.Tidy)
    (single : ∀ id, countIn id own.cells + countIn id other.cells ≤ 1) {pair : Plant × Plant}
    (member : pair ∈ own.pairs other) : pair.1.cells.length < other.cells.length := by
  have nodup : (pair.1.cells.map (·.1)).Nodup := by
    exact List.nodup_iff_count_le_one.mpr fun id => Nat.le_trans (Nat.le_add_left _ _)
      (single_of_mem_pairs own_tidy other_tidy single member id)
  have within : pair.1.cells.map (·.1) ⊆ (limbsCells other.limbs).map (·.1) :=
    List.map_subset _ fun cell in_first => (cells_of_mem_pairs member).1 in_first
  have length_le := (nodup.subperm within).length_le
  rw [List.length_map, List.length_map] at length_le
  rw [other.cells_eq, List.length_cons]
  exact Nat.lt_succ_of_le length_le

/-- A merge has as little of a number as the merges of its parts, and the first object of the second
plant is left out. -/
theorem countIn_merge_add_of_pairs (id : NodeId) {own other : Plant} (own_tidy : own.Tidy)
    (other_tidy : other.Tidy) {less : Nat}
    (pairs_le : ((own.pairs other).map fun pair => countIn id (pair.2.merge pair.1).cells).sum + less ≤
      ((own.pairs other).map (countPair id)).sum) :
    countIn id (own.merge other).cells + less + [other.id].count id ≤
      countIn id own.cells + countIn id other.cells := by
  have parts_le := countIn_kept_add id own_tidy.root other_tidy.root
  rw [cells_eq (own.merge other), own.cells_eq, other.cells_eq, countIn_cons, countIn_cons,
    countIn_cons, countIn_limbsCells_merge id own_tidy.root other_tidy.root, id_merge]
  dsimp only
  omega

/-- No number occurs more often in a merge than in the two plants, the first object of the second
one left out. -/
theorem countIn_merge_add (id : NodeId) {own other : Plant} (own_tidy : own.Tidy)
    (other_tidy : other.Tidy) (single : ∀ id, countIn id own.cells + countIn id other.cells ≤ 1) :
    countIn id (own.merge other).cells + [other.id].count id ≤
      countIn id own.cells + countIn id other.cells := by
  induction size : other.cells.length using Nat.strong_induction_on generalizing own other with
  | _ size induction =>
      have pairs_le : ((own.pairs other).map fun pair => countIn id (pair.2.merge pair.1).cells).sum ≤
          ((own.pairs other).map (countPair id)).sum := by
        refine List.sum_le_sum fun pair member => ?_
        obtain ⟨second_tidy, first_tidy⟩ := own_tidy.of_mem_pairs other_tidy member
        have smaller := length_lt_of_mem_pairs own_tidy other_tidy single member
        rw [countPair, Nat.add_comm]
        exact Nat.le_of_add_right_le (induction pair.1.cells.length (by omega) second_tidy first_tidy
          (single_of_mem_pairs own_tidy other_tidy single member) rfl)
      exact @countIn_merge_add_of_pairs id own other own_tidy other_tidy 0 pairs_le

theorem countIn_merge_le (id : NodeId) {own other : Plant} (own_tidy : own.Tidy)
    (other_tidy : other.Tidy) (single : ∀ id, countIn id own.cells + countIn id other.cells ≤ 1) :
    countIn id (own.merge other).cells ≤ countIn id own.cells + countIn id other.cells :=
  Nat.le_of_add_right_le (countIn_merge_add id own_tidy other_tidy single)

/-- If a merge of two parts leaves numbers out, so does the merge of the plants. -/
theorem countIn_merge_add_of_mem_pairs (id : NodeId) {own other : Plant} (own_tidy : own.Tidy)
    (other_tidy : other.Tidy) (single : ∀ id, countIn id own.cells + countIn id other.cells ≤ 1)
    {pair : Plant × Plant} (member : pair ∈ own.pairs other) {less : Nat}
    (merge_add : countIn id (pair.2.merge pair.1).cells + less ≤
      countIn id pair.2.cells + countIn id pair.1.cells) :
    countIn id (own.merge other).cells + less ≤ countIn id own.cells + countIn id other.cells := by
  have pairs_le : ((own.pairs other).map fun pair => countIn id (pair.2.merge pair.1).cells).sum +
      less ≤ ((own.pairs other).map (countPair id)).sum := by
    refine sum_map_add_le member (fun part in_pairs => ?_) ?_
    · obtain ⟨second_tidy, first_tidy⟩ := own_tidy.of_mem_pairs other_tidy in_pairs
      rw [countPair, Nat.add_comm]
      exact countIn_merge_le id second_tidy first_tidy
        (single_of_mem_pairs own_tidy other_tidy single in_pairs)
    · rwa [countPair, Nat.add_comm (countIn id pair.1.cells)]
  exact Nat.le_of_add_right_le (countIn_merge_add_of_pairs id own_tidy other_tidy pairs_le)

end Plant

end StationGateway.Tree
