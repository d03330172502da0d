import StationGateway.Proofs.Tree.Graft

/-!
# New objects

Every row gives a new object to each of the lists below those that it goes on filling, and then
attaches these objects one after the other. Whatever a row does, no object gets a second place. -/

namespace StationGateway.Tree

open StationGateway.Order

/-! ## The objects of a row -/

theorem ascending_addCell {draft : Draft} (ascending : Ascending draft.fields) (column : ListColumn)
    (cell : Json) : Ascending (draft.addCell column cell).fields := by
  rw [Draft.addCell]
  split
  · exact ascending.put _ _
  · exact ascending.put _ _

theorem ascending_objectOf (showNull : Bool) (columns : List ListColumn) (row : Row) :
    Ascending (objectOf showNull columns row).fields := by
  rw [objectOf]
  refine List.foldlRecOn (motive := fun draft : Draft => Ascending draft.fields) columns _
    ascending_nil fun draft ascending column _ => ?_
  dsimp only
  split
  · exact ascending
  · exact ascending_addCell ascending column _

/-- The fields of the new object of a row for a list. -/
def fieldsOf (plan : Plan) (row : Row) (list : TargetList) : List (String × Json) :=
  (objectOf plan.showNull ((find? list.name plan.columns).getD []) row).fields

/-- A growth whose lists are filling new objects of a row, as another one does except for these. -/
structure Renewed (plan : Plan) (row : Row) (growth later : Growth) (seed : TargetList → Plant)
    (lists : List TargetList) : Prop where
  /-- New objects have the fields of the row. -/
  fields : ∀ list, (seed list).fields = fieldsOf plan row list
  /-- Nothing is attached to new objects. -/
  no_limbs : ∀ list, (seed list).limbs = []
  /-- The lists are filling the new objects. -/
  seeded : later.Seeded seed lists
  /-- New objects have new numbers. -/
  fresh : ∀ list ∈ lists, growth.forest.next ≤ (seed list).id
  /-- New objects differ. -/
  nodup : (lists.map fun list => (seed list).id).Nodup
  /-- Objects are added. -/
  next_le : growth.forest.next ≤ later.forest.next
  /-- Other objects are as before. -/
  kept : ∀ id < growth.forest.next, later.forest.get id = growth.forest.get id
  /-- Other lists go on filling their objects. -/
  others : ∀ name, (∀ list ∈ lists, list.name ≠ name) → later.nodeOf? name = growth.nodeOf? name
  /-- Maps stay ascending. -/
  tidy : (∀ id, (growth.forest.get id).Tidy) → ∀ id, (later.forest.get id).Tidy
  /-- New objects do not stand below others. -/
  places : later.forest.places = growth.forest.places

theorem tidy_push {forest : Forest} (tidy : ∀ id, (forest.get id).Tidy) {node : Node}
    (node_tidy : node.Tidy) (id : NodeId) : ((forest.push node).get id).Tidy := by
  by_cases is_new : id = forest.next
  · rw [is_new, Forest.get_push_self]
    exact node_tidy
  · rw [Forest.get_push_of_ne is_new]
    exact tidy id

section Step

variable (plan : Plan) (row : Row)

/-- New objects of some lists with that of one more list. -/
def reseed (id : NodeId) (list : TargetList) (seed : TargetList → Plant) (other : TargetList) : Plant :=
  if other.name = list.name then .node id (fieldsOf plan row other) [] else seed other

variable {plan row} {growth later : Growth} {seed : TargetList → Plant} {list : TargetList}

theorem reseed_self (id : NodeId) :
    reseed plan row id list seed list = .node id (fieldsOf plan row list) [] :=
  if_pos rfl

theorem reseed_of_ne {other : TargetList} (ne : other.name ≠ list.name) (id : NodeId) :
    reseed plan row id list seed other = seed other :=
  if_neg ne

theorem nodeOf?_renew (name : String) :
    (Growth.renew plan row growth list).nodeOf? name =
      if name = list.name then some growth.forest.next else growth.nodeOf? name :=
  find?_put name list.name growth.forest.next growth.current

theorem next_renew : (Growth.renew plan row growth list).forest.next = growth.forest.next + 1 :=
  Forest.next_push _ _

/-- A list is given a new object before the others. -/
theorem Renewed.cons {rest : List TargetList}
    (renewed : Renewed plan row (Growth.renew plan row growth list) later seed rest)
    (name_ne : ∀ other ∈ rest, other.name ≠ list.name) :
    Renewed plan row growth later (reseed plan row growth.forest.next list seed) (list :: rest) where
  fields := by
    intro other
    rw [reseed]
    split
    · rfl
    · exact renewed.fields other
  no_limbs := by
    intro other
    rw [reseed]
    split
    · rfl
    · exact renewed.no_limbs other
  seeded := by
    intro other member
    rcases List.mem_cons.mp member with rfl | in_rest
    · have node_eq := renewed.others other.name name_ne
      rw [nodeOf?_renew, if_pos rfl] at node_eq
      have self_kept := renewed.kept growth.forest.next (next_renew ▸ Nat.lt_succ_self _)
      have self_eq : (Growth.renew plan row growth other).forest.get growth.forest.next =
          ⟨fieldsOf plan row other, []⟩ :=
        Forest.get_push_self growth.forest ⟨fieldsOf plan row other, []⟩
      rw [reseed_self]
      refine ⟨node_eq, fun cell member => ?_⟩
      rw [Plant.cells, limbsCells, List.mem_singleton] at member
      subst member
      exact ⟨Nat.lt_of_lt_of_le (next_renew ▸ Nat.lt_succ_self _) renewed.next_le,
        self_kept.trans self_eq⟩
    · rw [reseed_of_ne (name_ne other in_rest)]
      exact renewed.seeded other in_rest
  fresh := by
    intro other member
    rcases List.mem_cons.mp member with rfl | in_rest
    · rw [reseed_self]
      exact Nat.le_refl _
    · rw [reseed_of_ne (name_ne other in_rest)]
      have fresh := renewed.fresh other in_rest
      rw [next_renew] at fresh
      exact Nat.le_of_succ_le fresh
  nodup := by
    have rest_eq : (rest.map fun other => (reseed plan row growth.forest.next list seed other).id) =
        rest.map fun other => (seed other).id :=
      List.map_congr_left fun other member => by rw [reseed_of_ne (name_ne other member)]
    rw [List.map_cons, rest_eq, reseed_self, List.nodup_cons]
    refine ⟨fun member => ?_, renewed.nodup⟩
    obtain ⟨other, in_rest, same⟩ := List.mem_map.mp member
    have fresh := renewed.fresh other in_rest
    rw [same, next_renew] at fresh
    exact absurd fresh (Nat.not_succ_le_self _)
  next_le := by
    have next_le := renewed.next_le
    rw [next_renew] at next_le
    exact Nat.le_of_succ_le next_le
  kept := by
    intro id lt
    have kept := renewed.kept id (next_renew ▸ Nat.lt_succ_of_lt lt)
    exact kept.trans (Forest.get_push_of_ne (Nat.ne_of_lt lt) _)
  others := by
    intro name absent
    have others := renewed.others name fun other member =>
      absent other (List.mem_cons_of_mem list member)
    have is_other : name ≠ list.name := (absent list List.mem_cons_self).symm
    rw [nodeOf?_renew, if_neg is_other] at others
    exact others
  tidy := by
    intro tidy
    have node_tidy : (⟨fieldsOf plan row list, []⟩ : Node).Tidy :=
      ⟨ascending_objectOf _ _ row, ascending_nil, fun _ _ member => absurd member List.not_mem_nil⟩
    exact renewed.tidy (tidy_push tidy node_tidy)
  places := by
    refine renewed.places.trans ((Forest.places_push growth.forest _).trans ?_)
    exact List.append_nil _

end Step

/-- Lists of different names can be given new objects. -/
theorem exists_renewed (plan : Plan) (row : Row) (growth : Growth) {lists : List TargetList}
    (names : (lists.map (·.name)).Nodup) :
    ∃ seed, Renewed plan row growth (lists.foldl (Growth.renew plan row) growth) seed lists := by
  induction lists generalizing growth with
  | nil =>
      refine ⟨fun list => .node 0 (fieldsOf plan row list) [], fun _ => rfl, fun _ => rfl, ?_, ?_,
        List.nodup_nil, Nat.le_refl _, fun _ _ => rfl, fun _ _ => rfl, id, rfl⟩
      · exact fun _ member => absurd member List.not_mem_nil
      · exact fun _ member => absurd member List.not_mem_nil
  | cons list rest induction =>
      obtain ⟨name_new, rest_names⟩ := List.nodup_cons.mp names
      obtain ⟨seed, renewed⟩ := induction (Growth.renew plan row growth list) rest_names
      exact ⟨_, renewed.cons fun other member same =>
        name_new (List.mem_map.mpr ⟨other, member, same⟩)⟩

namespace Renewed

variable {plan : Plan} {row : Row} {growth later : Growth} {seed : TargetList → Plant}
  {lists : List TargetList}

/-- New objects are counted once. -/
theorem countIn_eq (renewed : Renewed plan row growth later seed lists) (others : List TargetList)
    (id : NodeId) :
    countIn id (seedCells seed others) = (others.map fun list => (seed list).id).count id := by
  induction others with
  | nil => rfl
  | cons list rest induction =>
      rw [seedCells_cons, countIn_append, induction, (seed list).cells_eq, countIn_cons,
        renewed.no_limbs, limbsCells, countIn_nil, Nat.add_zero, List.map_cons]
      exact (List.count_append : ([(seed list).id] ++ _).count id = _).symm

theorem countIn_le_one (renewed : Renewed plan row growth later seed lists) (id : NodeId) :
    countIn id (seedCells seed lists) ≤ 1 := by
  rw [renewed.countIn_eq]
  exact List.nodup_iff_count_le_one.mp renewed.nodup id

theorem countIn_eq_zero (renewed : Renewed plan row growth later seed lists) {id : NodeId}
    (lt : id < growth.forest.next) : countIn id (seedCells seed lists) = 0 := by
  rw [renewed.countIn_eq, List.count_eq_zero]
  intro member
  obtain ⟨list, in_lists, rfl⟩ := List.mem_map.mp member
  exact absurd (renewed.fresh list in_lists) (Nat.not_le.mpr lt)

/-- What was there before stays. -/
theorem has (renewed : Renewed plan row growth later seed lists) {cells : List (NodeId × Node)}
    (has : growth.forest.Has cells) : later.forest.Has cells := by
  intro cell member
  obtain ⟨lt, found⟩ := has cell member
  exact ⟨Nat.lt_of_lt_of_le lt renewed.next_le, (renewed.kept cell.1 lt).trans found⟩

end Renewed

end StationGateway.Tree
