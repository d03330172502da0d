import StationGateway.Proofs.Tree.Merge
import StationGateway.Proofs.Tree.Reach

/-!
# Absorbing objects

Moving all that belongs to one object into another one merges the plants that stand there, empties
nothing outside of them, and gives no node a second place. It comes to an end with nothing left to
move. -/

namespace StationGateway.Tree

open StationGateway.Order

/-! ## Unions of children -/

theorem unionEntries_eq {own other : List (String × NodeId)} (own_ascending : Ascending own)
    (other_ascending : Ascending other) :
    unionEntries own other = (unionWith (fun old _ => old) own other, shared own other) := by
  rw [unionEntries]
  -- pairs that have been found before stay in front
  suffices from_pairs : ∀ pairs, other.foldl _ (own, pairs) =
      (unionWith (fun old _ => old) own other, pairs ++ shared own other) from from_pairs []
  intro pairs
  induction other generalizing own pairs with
  | nil => simp [shared]
  | cons entry rest induction =>
      obtain ⟨above, rest_ascending⟩ := List.pairwise_cons.mp other_ascending
      have absent : ∀ other ∈ rest, other.1 ≠ entry.1 :=
        fun other member => (above other member).ne'
      rw [List.foldl_cons, unionWith_cons]
      cases found : find? entry.1 own with
      | none =>
          have step := induction (own_ascending.put entry.1 entry.2) rest_ascending pairs
          rw [shared_put absent] at step
          simpa [found, shared] using step
      | some existing =>
          have step := induction own_ascending rest_ascending (pairs ++ [(entry.2, existing)])
          simpa [found, shared, put_of_find? own_ascending found] using step

theorem unionChildren_eq {own other : List (String × Child)} (other_ascending : Ascending other) :
    unionChildren own other =
      (unionWith (fun old new => (unionChild old new).1) own other,
        (shared own other).flatMap fun pair => (unionChild pair.2 pair.1).2) := by
  rw [unionChildren]
  -- pairs that have been found before stay in front
  suffices from_pairs : ∀ pairs, other.foldl _ (own, pairs) =
      (unionWith (fun old new => (unionChild old new).1) own other,
        pairs ++ (shared own other).flatMap fun pair => (unionChild pair.2 pair.1).2) from from_pairs []
  intro pairs
  induction other generalizing own pairs with
  | nil => simp [shared]
  | cons entry rest induction =>
      obtain ⟨above, rest_ascending⟩ := List.pairwise_cons.mp other_ascending
      have absent : ∀ other ∈ rest, other.1 ≠ entry.1 :=
        fun other member => (above other member).ne'
      have step := fun value => @induction (put entry.1 value own) rest_ascending
      simp only [shared_put absent] at step
      rw [List.foldl_cons, unionWith_cons]
      cases found : find? entry.1 own with
      | none =>
          have step := step entry.2 pairs
          simpa [found, shared] using step
      | some existing =>
          have step := step (unionChild existing entry.2).1 (pairs ++ (unionChild existing entry.2).2)
          simpa [found, shared] using step

/-- The numbers of two plants that are to be merged. -/
def pairIds (pair : Plant × Plant) : NodeId × NodeId :=
  (pair.1.id, pair.2.id)

theorem unionChild_child {own other : Limb} (own_tidy : own.Tidy) (other_tidy : other.Tidy) :
    unionChild own.child other.child = ((own.merge other).child, (own.pairs other).map pairIds) := by
  cases other with
  | map others =>
      cases own with
      | map entries =>
          have own_ascending := (own_tidy entries rfl).map Plant.id
          have other_ascending := (other_tidy others rfl).map Plant.id
          have merged : (unionWith Plant.merge entries others).map (fun entry => (entry.1, entry.2.id)) =
              unionWith (fun old _ => old) (entries.map fun entry => (entry.1, entry.2.id))
                (others.map fun entry => (entry.1, entry.2.id)) :=
            map_unionWith Plant.id (other_tidy others rfl) fun pair _ => pair.2.id_merge pair.1
          simp only [Limb.child, unionChild, Limb.merge, Limb.pairs, mergeEntries_eq_unionWith,
            unionEntries_eq own_ascending other_ascending, shared_map, merged]
          rfl
      | object plant => rfl
      | list items => rfl
  | object other =>
      cases own with
      | map entries => rfl
      | object plant => simp [Limb.child, unionChild, Limb.merge, Limb.pairs, pairIds]
      | list items => rfl
  | list others =>
      cases own with
      | map entries => rfl
      | object plant => rfl
      | list items => simp [Limb.child, unionChild, Limb.merge, Limb.pairs]

/-- The union of the children of two plants: those of the merged plant, and what is left to do. -/
theorem unionChildren_root {own other : Plant} (own_tidy : own.root.Tidy)
    (other_tidy : other.root.Tidy) :
    unionChildren own.root.children other.root.children =
      (childrenOf (own.merge other).limbs, (own.pairs other).map pairIds) := by
  have limb_eq : ∀ pair ∈ shared own.limbs other.limbs, unionChild pair.2.child pair.1.child =
      ((pair.2.merge pair.1).child, (pair.2.pairs pair.1).map pairIds) := by
    intro pair member
    obtain ⟨own_limb_tidy, other_limb_tidy⟩ := tidy_of_mem_shared own_tidy other_tidy member
    exact unionChild_child own_limb_tidy other_limb_tidy
  have merged : (unionWith Limb.merge own.limbs other.limbs).map (fun limb => (limb.1, limb.2.child)) =
      unionWith (fun old new => (unionChild old new).1) (childrenOf own.limbs)
        (childrenOf other.limbs) :=
    map_unionWith Limb.child (ascending_limbs other_tidy)
      fun pair member => (congrArg Prod.fst (limb_eq pair member)).symm
  rw [unionChildren_eq other_tidy.children, Plant.limbs_merge]
  refine Prod.ext merged.symm ?_
  change (shared (childrenOf own.limbs) (childrenOf other.limbs)).flatMap _ = _
  rw [childrenOf, childrenOf, shared_map, Plant.pairs, List.flatMap_map, List.map_flatMap]
  refine List.flatMap_congr fun pair member => ?_
  exact congrArg Prod.snd (limb_eq pair member)

/-! ## One move -/

namespace Forest

/-- What is left to do when the children of one object have been moved to another. -/
def pending (forest : Forest) (source target : NodeId) : List (NodeId × NodeId) :=
  (unionChildren (forest.get target).children (forest.get source).children).2

/-- The forest with the fields and children of one object moved to another. -/
def move (forest : Forest) (source target : NodeId) : Forest :=
  (forest.update source fun _ => .empty).update target fun _ =>
    ⟨unionFields (forest.get target).fields (forest.get source).fields,
      (unionChildren (forest.get target).children (forest.get source).children).1⟩

@[simp] theorem next_move (forest : Forest) (source target : NodeId) :
    (forest.move source target).next = forest.next := by
  rw [move, next_update, next_update]

theorem get_move_of_ne {forest : Forest} {source target id : NodeId} (not_target : id ≠ target)
    (not_source : id ≠ source) : (forest.move source target).get id = forest.get id := by
  rw [move, get_update_of_ne not_target, get_update_of_ne not_source]

end Forest

mutual

/-- A forest after all that belongs to one object has been moved into another one, down to where
nothing is left to do. -/
inductive Absorbs : Forest → NodeId → NodeId → Forest → Prop where
  /-- An object has what belongs to it. -/
  | same (forest : Forest) (id : NodeId) : Absorbs forest id id forest
  /-- What is left to do after a move is done. -/
  | move {forest later : Forest} {source target : NodeId} (ne : source ≠ target)
      (rest : AbsorbsAll (forest.move source target) (forest.pending source target) later) :
      Absorbs forest source target later

/-- A forest after the first object of each pair has been moved into the second one, in order. -/
inductive AbsorbsAll : Forest → List (NodeId × NodeId) → Forest → Prop where
  /-- There is no pair. -/
  | nil (forest : Forest) : AbsorbsAll forest [] forest
  /-- The first pair comes before the others. -/
  | cons {forest between later : Forest} {pair : NodeId × NodeId} {rest : List (NodeId × NodeId)}
      (first : Absorbs forest pair.1 pair.2 between) (others : AbsorbsAll between rest later) :
      AbsorbsAll forest (pair :: rest) later

end

theorem absorbWithin_succ {source target : NodeId} (ne : source ≠ target) (budget : Nat)
    (forest : Forest) :
    absorbWithin (budget + 1) forest source target =
      absorbPairs budget (forest.move source target) (forest.pending source target) := by
  rw [absorbWithin, if_neg ne]
  simp only [Forest.get_update_of_ne ne.symm]
  rfl

/-- What every move of a good pair of objects keeps, and leaves good pairs to move, absorbing keeps.
-/
theorem absorbWithin_induction_pair {property : Forest → Prop} {good : NodeId × NodeId → Prop}
    (move : ∀ forest source target, property forest → good (source, target) → source ≠ target →
      property (forest.move source target) ∧ ∀ pair ∈ forest.pending source target, good pair)
    (budget : Nat) (forest : Forest) (source target : NodeId) (holds : property forest)
    (is_good : good (source, target)) : property (absorbWithin budget forest source target) := by
  induction budget generalizing forest source target with
  | zero =>
      rw [absorbWithin]
      exact holds
  | succ budget induction =>
      by_cases ne : source = target
      · rw [absorbWithin, if_pos ne]
        exact holds
      · obtain ⟨moved, pairs_good⟩ := move forest source target holds is_good ne
        rw [absorbWithin_succ ne]
        generalize forest.move source target = later at moved
        generalize forest.pending source target = pairs at pairs_good
        induction pairs generalizing later with
        | nil =>
            rw [absorbPairs]
            exact moved
        | cons pair rest inner =>
            rw [absorbPairs]
            exact inner _ (induction later pair.1 pair.2 moved (pairs_good pair List.mem_cons_self))
              fun other member => pairs_good other (List.mem_cons_of_mem pair member)

/-- What every move of good objects keeps, and leaves good objects to move, absorbing keeps. -/
theorem absorbWithin_induction {property : Forest → Prop} {good : NodeId → Prop}
    (move : ∀ forest source target, property forest → good source → good target →
      source ≠ target → property (forest.move source target) ∧
        ∀ pair ∈ forest.pending source target, good pair.1 ∧ good pair.2)
    (budget : Nat) (forest : Forest) (source target : NodeId) (holds : property forest)
    (source_good : good source) (target_good : good target) :
    property (absorbWithin budget forest source target) :=
  @absorbWithin_induction_pair property (fun pair => good pair.1 ∧ good pair.2)
    (fun forest source target holds both => move forest source target holds both.1 both.2)
    budget forest source target holds ⟨source_good, target_good⟩

@[simp] theorem next_absorb (forest : Forest) (source target : NodeId) :
    (forest.absorb source target).next = forest.next := by
  refine @absorbWithin_induction (fun later => later.next = forest.next) (fun _ => True) ?_ _ _ _ _
    rfl trivial trivial
  intro later source target same _ _ _
  exact ⟨(Forest.next_move later source target).trans same, fun _ _ => ⟨trivial, trivial⟩⟩

/-! ## Unions of nodes -/

theorem ascending_unionFields {own : List (String × Json)} (ascending : Ascending own)
    (other : List (String × Json)) : Ascending (unionFields own other) := by
  rw [unionFields]
  induction other generalizing own with
  | nil => exact ascending
  | cons entry rest induction =>
      obtain ⟨name, value⟩ := entry
      rw [List.foldl_cons]
      refine induction ?_
      by_cases present : hasKey name own = true
      · simpa only [present, if_true] using ascending
      · simpa [present] using ascending.put name value

theorem find?_unionFields (name : String) (own other : List (String × Json)) :
    find? name (unionFields own other) = (find? name own).or (find? name other) := by
  rw [unionFields]
  induction other generalizing own with
  | nil => exact Option.or_none.symm
  | cons entry rest induction =>
      obtain ⟨first, value⟩ := entry
      rw [List.foldl_cons, induction, find?]
      dsimp only
      by_cases present : hasKey first own = true
      · obtain ⟨old, old_eq⟩ := Option.isSome_iff_exists.mp present
        rw [if_pos present]
        split_ifs with is_first
        · rw [is_first, old_eq, Option.some_or, Option.some_or]
        · rfl
      · rw [if_neg present, find?_put]
        split_ifs with is_first
        · have absent : find? first own = none := by simpa [hasKey] using present
          rw [is_first, absent, Option.some_or, Option.none_or]
        · rfl

theorem tidy_unionChild {own other : Child} (own_tidy : own.Tidy) (other_tidy : other.Tidy) :
    (unionChild own other).1.Tidy := by
  cases own with
  | map entries =>
      cases other with
      | map others =>
          rw [unionChild, unionEntries_eq (own_tidy entries rfl) (other_tidy others rfl)]
          exact Child.tidy_map ((own_tidy entries rfl).unionWith _ _)
      | object node => exact own_tidy
      | list items => exact own_tidy
  | object node =>
      cases other with
      | map others => exact own_tidy
      | object node => exact own_tidy
      | list items => exact own_tidy
  | list items =>
      cases other with
      | map others => exact own_tidy
      | object node => exact own_tidy
      | list items => exact Child.tidy_list _

theorem count_unionChild_le {own other : Child} (own_tidy : own.Tidy) (other_tidy : other.Tidy)
    (id : NodeId) :
    (unionChild own other).1.places.count id ≤ own.places.count id + other.places.count id := by
  cases own with
  | map entries =>
      cases other with
      | map others =>
          rw [unionChild, unionEntries_eq (own_tidy entries rfl) (other_tidy others rfl)]
          have union_eq := @total_unionWith _ (fun old _ => old) _ _ (own_tidy entries rfl)
            (other_tidy others rfl) (fun node => [node].count id)
          have own_eq := total_own (own_tidy entries rfl) (other_tidy others rfl)
            (fun node => [node].count id)
          have other_eq := total_more (fun node => [node].count id) entries others
          simp only [Child.count_map]
          omega
      | object node => exact Nat.le_add_right _ _
      | list items => exact Nat.le_add_right _ _
  | object node =>
      cases other with
      | map others => exact Nat.le_add_right _ _
      | object node => exact Nat.le_add_right _ _
      | list items => exact Nat.le_add_right _ _
  | list items =>
      cases other with
      | map others => exact Nat.le_add_right _ _
      | object node => exact Nat.le_add_right _ _
      | list items => exact Nat.le_of_eq List.count_append

theorem places_of_mem_unionChild {own other : Child} (own_tidy : own.Tidy) (other_tidy : other.Tidy)
    {pair : NodeId × NodeId} (member : pair ∈ (unionChild own other).2) :
    pair.1 ∈ other.places ∧ pair.2 ∈ own.places := by
  cases own with
  | map entries =>
      cases other with
      | map others =>
          rw [unionChild, unionEntries_eq (own_tidy entries rfl) (other_tidy others rfl)] at member
          obtain ⟨key, in_others, found⟩ := mem_shared.mp member
          exact ⟨List.mem_map.mpr ⟨_, in_others, rfl⟩,
            List.mem_map.mpr ⟨_, mem_of_find? found, rfl⟩⟩
      | object node => cases member
      | list items => cases member
  | object node =>
      cases other with
      | map others => cases member
      | object node =>
          obtain rfl := List.mem_singleton.mp member
          exact ⟨List.mem_singleton_self _, List.mem_singleton_self _⟩
      | list items => cases member
  | list items =>
      cases other with
      | map others => cases member
      | object node => cases member
      | list items => cases member

namespace Node

/-- An object with the fields and children of another one. -/
def union (own other : Node) : Node :=
  ⟨unionFields own.fields other.fields, (unionChildren own.children other.children).1⟩

variable {own other : Node}

theorem tidy_of_mem_shared (own_tidy : own.Tidy) (other_tidy : other.Tidy) {pair : Child × Child}
    (member : pair ∈ shared own.children other.children) : pair.2.Tidy ∧ pair.1.Tidy := by
  obtain ⟨name, in_other, found⟩ := mem_shared.mp member
  exact ⟨own_tidy.child found, other_tidy.child (find?_of_mem other_tidy.children in_other)⟩

theorem Tidy.union (own_tidy : own.Tidy) (other_tidy : other.Tidy) : (own.union other).Tidy where
  fields := ascending_unionFields own_tidy.fields other.fields
  children := by
    simp only [Node.union, unionChildren_eq other_tidy.children]
    exact own_tidy.children.unionWith _ _
  entries := by
    simp only [Node.union, unionChildren_eq other_tidy.children]
    intro name entries member
    rcases mem_unionWith own_tidy.children other_tidy.children member with
      in_own | in_other | ⟨pair, in_shared, combined⟩
    · exact own_tidy.entries name entries (List.mem_filter.mp in_own).1
    · exact other_tidy.entries name entries (List.mem_filter.mp in_other).1
    · obtain ⟨own_child_tidy, other_child_tidy⟩ := tidy_of_mem_shared own_tidy other_tidy in_shared
      exact tidy_unionChild own_child_tidy other_child_tidy entries combined.symm

theorem count_places_union_le (own_tidy : own.Tidy) (other_tidy : other.Tidy) (id : NodeId) :
    (own.union other).places.count id ≤ own.places.count id + other.places.count id := by
  have weighed := total_add_total own_tidy.children other_tidy.children
    (fun child => child.places.count id)
  have combined_le : ((shared own.children other.children).map fun pair =>
        (unionChild pair.2 pair.1).1.places.count id).sum ≤
      ((shared own.children other.children).map fun pair =>
        pair.1.places.count id + pair.2.places.count id).sum := by
    refine List.sum_le_sum fun pair member => ?_
    obtain ⟨own_child_tidy, other_child_tidy⟩ := tidy_of_mem_shared own_tidy other_tidy member
    rw [Nat.add_comm (pair.1.places.count id)]
    exact count_unionChild_le own_child_tidy other_child_tidy id
  rw [Node.union, unionChildren_eq other_tidy.children, count_places, count_places, count_places,
    total_unionWith own_tidy.children other_tidy.children]
  omega

theorem mem_places_of_union (own_tidy : own.Tidy) (other_tidy : other.Tidy) {id : NodeId}
    (member : id ∈ (own.union other).places) : id ∈ own.places ∨ id ∈ other.places := by
  have counted := count_places_union_le own_tidy other_tidy id
  rw [← List.count_pos_iff] at member
  rw [← List.count_pos_iff, ← List.count_pos_iff]
  omega

end Node

theorem Forest.move_eq (forest : Forest) (source target : NodeId) :
    forest.move source target = (forest.update source fun _ => .empty).update target fun _ =>
      (forest.get target).union (forest.get source) :=
  rfl

/-- What holds of all nodes, of an empty source and of the united target, holds after the move. -/
theorem Forest.forall_get_move {forest : Forest} {property : NodeId → Node → Prop}
    (holds : ∀ id, property id (forest.get id)) {source target : NodeId}
    (empty : property source .empty)
    (united : property target ((forest.get target).union (forest.get source))) (id : NodeId) :
    property id ((forest.move source target).get id) :=
  Forest.forall_get_update (Forest.forall_get_update holds empty) united id

theorem Forest.places_of_mem_pending {forest : Forest} (tidy : ∀ id, (forest.get id).Tidy)
    {source target : NodeId} {pair : NodeId × NodeId} (member : pair ∈ forest.pending source target) :
    pair.1 ∈ (forest.get source).places ∧ pair.2 ∈ (forest.get target).places := by
  rw [Forest.pending, unionChildren_eq (tidy source).children] at member
  obtain ⟨children, in_shared, in_pairs⟩ := List.mem_flatMap.mp member
  obtain ⟨own_tidy, other_tidy⟩ := Node.tidy_of_mem_shared (tidy target) (tidy source) in_shared
  obtain ⟨first, second⟩ := places_of_mem_unionChild own_tidy other_tidy in_pairs
  obtain ⟨name, in_source, found⟩ := mem_shared.mp in_shared
  exact ⟨List.mem_flatMap.mpr ⟨_, in_source, first⟩,
    List.mem_flatMap.mpr ⟨_, mem_of_find? found, second⟩⟩

theorem Forest.tidy_move {forest : Forest} (tidy : ∀ id, (forest.get id).Tidy)
    (source target id : NodeId) : ((forest.move source target).get id).Tidy := by
  exact Forest.forall_get_move tidy Node.tidy_empty ((tidy target).union (tidy source)) id

/-- What a move leads to from an object, that object or the source led to before. -/
theorem Forest.parent_move {forest : Forest} (tidy : ∀ id, (forest.get id).Tidy)
    {source target above below : NodeId} (edge : (forest.move source target).Parent above below) :
    forest.Parent above below ∨ above = target ∧ forest.Parent source below := by
  refine @Forest.forall_get_move forest (fun id node => ∀ place ∈ node.places,
      forest.Parent id place ∨ id = target ∧ forest.Parent source place)
    (fun _ _ member => .inl member) source target (fun _ member => absurd member List.not_mem_nil)
    (fun place member => ?_) above below edge
  exact (Node.mem_places_of_union (tidy target) (tidy source) member).imp id fun below => ⟨rfl, below⟩

/-- A path after a move has been there before, or it enters what was below the source. -/
theorem Forest.above_move {forest : Forest} (tidy : ∀ id, (forest.get id).Tidy)
    {source target above below : NodeId} (path : (forest.move source target).Above above below) :
    forest.Above above below ∨ forest.Reaches above target ∧ forest.Above source below := by
  induction path with
  | single edge =>
      rcases Forest.parent_move tidy edge with before | ⟨rfl, below_source⟩
      · exact .inl (.single before)
      · exact .inr ⟨.refl, .single below_source⟩
  | tail _ edge induction =>
      rcases Forest.parent_move tidy edge with before | ⟨rfl, below_source⟩
      · exact induction.imp (·.tail before) fun entered => ⟨entered.1, entered.2.tail before⟩
      · exact .inr ⟨induction.elim Relation.TransGen.to_reflTransGen (·.1), .single below_source⟩

/-- A move makes no cycle if the source does not reach the target. -/
theorem Forest.above_of_move {forest : Forest} (tidy : ∀ id, (forest.get id).Tidy)
    {source target id : NodeId} (apart : ¬forest.Reaches source target)
    (cycle : (forest.move source target).Above id id) : forest.Above id id := by
  refine (Forest.above_move tidy cycle).resolve_right fun entered => apart ?_
  exact entered.2.to_reflTransGen.trans entered.1

theorem Forest.count_places_move_le {forest : Forest} (tidy : ∀ id, (forest.get id).Tidy)
    {source target : NodeId} (ne : source ≠ target) (id : NodeId) :
    (forest.move source target).places.count id ≤ forest.places.count id := by
  have union_le := Node.count_places_union_le (tidy target) (tidy source) id
  have emptied_le : (forest.update source fun _ => .empty).places.count id +
      (forest.get source).places.count id ≤ forest.places.count id := by
    by_cases within : source < forest.next
    · exact Nat.le_of_eq (Forest.count_places_update within _ id)
    · have beyond : forest.next ≤ source := Nat.not_lt.mp within
      rw [Forest.update_of_next_le beyond, Forest.get_of_next_le beyond]
      exact Nat.le_refl _
  have moved_le : (forest.move source target).places.count id ≤
      (forest.update source fun _ => .empty).places.count id +
        (forest.get source).places.count id := by
    refine Forest.count_places_update_le ?_
    rwa [Forest.get_update_of_ne ne.symm]
  omega

/-- Absorbing keeps maps ascending and gives no node a further place. -/
theorem Forest.absorb_tidy {forest : Forest} (tidy : ∀ id, (forest.get id).Tidy)
    (source target : NodeId) :
    (∀ id, ((forest.absorb source target).get id).Tidy) ∧
      ∀ id, (forest.absorb source target).places.count id ≤ forest.places.count id := by
  refine @absorbWithin_induction
    (fun later => (∀ id, (later.get id).Tidy) ∧
      ∀ id, later.places.count id ≤ forest.places.count id)
    (fun _ => True) ?_ _ _ _ _ ⟨tidy, fun _ => Nat.le_refl _⟩ trivial trivial
  rintro later source target ⟨later_tidy, count_le⟩ _ _ ne
  refine ⟨⟨tidy_move later_tidy source target, fun id => ?_⟩, fun _ _ => ⟨trivial, trivial⟩⟩
  exact Nat.le_trans (count_places_move_le later_tidy ne id) (count_le id)

/-- Absorbing nodes outside a part of a forest into which no node outside leads leaves that part as it
is, and so does everything later. -/
theorem Forest.absorb_frame {forest : Forest} (tidy : ∀ id, (forest.get id).Tidy)
    {live : NodeId → Prop}
    (closed : ∀ id, ¬live id → ∀ place ∈ (forest.get id).places, ¬live place)
    {source target : NodeId} (source_dead : ¬live source) (target_dead : ¬live target) :
    (∀ id, live id → (forest.absorb source target).get id = forest.get id) ∧
      ∀ id, ¬live id → ∀ place ∈ ((forest.absorb source target).get id).places, ¬live place := by
  refine (@absorbWithin_induction
    (fun later => (∀ id, (later.get id).Tidy) ∧ (∀ id, live id → later.get id = forest.get id) ∧
      ∀ id, ¬live id → ∀ place ∈ (later.get id).places, ¬live place)
    (fun id => ¬live id) ?_ _ _ _ _ ⟨tidy, fun _ _ => rfl, closed⟩ source_dead target_dead).2
  rintro later source target ⟨later_tidy, same, later_closed⟩ source_dead target_dead ne
  refine ⟨⟨tidy_move later_tidy source target, fun id id_live => ?_, fun id id_dead => ?_⟩,
    fun pair member => ?_⟩
  · have not_source : id ≠ source := fun same_id => source_dead (same_id ▸ id_live)
    have not_target : id ≠ target := fun same_id => target_dead (same_id ▸ id_live)
    exact (get_move_of_ne not_target not_source).trans (same id id_live)
  · refine @forall_get_move _ (fun id node => ¬live id → ∀ place ∈ node.places, ¬live place)
      later_closed _ _ (fun _ place member => absurd member List.not_mem_nil)
      (fun _ place member => ?_) id id_dead
    rcases Node.mem_places_of_union (later_tidy target) (later_tidy source) member with
      in_target | in_source
    · exact later_closed target target_dead place in_target
    · exact later_closed source source_dead place in_source
  · obtain ⟨first, second⟩ := places_of_mem_pending later_tidy member
    exact ⟨later_closed source source_dead _ first, later_closed target target_dead _ second⟩

/-! ## Plants that are absorbed -/

section Plants

variable {forest between later : Forest} {own other : Plant}

theorem Forest.Has.tidy {plant : Plant} (has : forest.Has plant.cells)
    (tidy : ∀ id, (forest.get id).Tidy) : plant.Tidy :=
  fun cell member => (has cell member).2 ▸ tidy cell.1

/-- A move gives the target the root of the merged plant. -/
theorem get_move_target (has_own : forest.Has own.cells)
    (has_other : forest.Has other.cells) (tidy : ∀ id, (forest.get id).Tidy) :
    (forest.move other.id own.id).get own.id = (own.merge other).root ∧
      forest.pending other.id own.id = (own.pairs other).map pairIds := by
  have union_eq := unionChildren_root (has_own.tidy tidy).root (has_other.tidy tidy).root
  refine ⟨?_, ?_⟩
  · rw [Forest.move_eq, Forest.get_update_self (by simpa using has_own.root.1), Node.union,
      has_own.root.2, has_other.root.2, union_eq, Plant.merge_eq]
    rfl
  · rw [Forest.pending, has_own.root.2, has_other.root.2, union_eq]

/-- Absorbing merges the plants of two objects and touches nothing else. -/
structure Absorbed (forest later : Forest) (own other : Plant) : Prop where
  /-- The merged plant stands where the first one stood. -/
  has : later.Has (own.merge other).cells
  /-- Other objects are as before. -/
  same : ∀ id, countIn id own.cells + countIn id other.cells = 0 → later.get id = forest.get id
  /-- Maps stay ascending. -/
  tidy : ∀ id, (later.get id).Tidy
  /-- No object is added. -/
  next : later.next = forest.next
  /-- Nothing belongs to the second object any more. -/
  emptied : later.get other.id = .empty
  /-- No object gets below itself. -/
  no_cycle : ∀ id, later.Above id id → forest.Above id id
  /-- Nothing is left to do. -/
  run : Absorbs forest other.id own.id later

/-- Absorbing the first plants of pairs merges each pair and touches nothing else. -/
structure AbsorbedAll (forest later : Forest) (pairs : List (Plant × Plant)) : Prop where
  /-- Merged plants stand where the second ones stood. -/
  has : ∀ pair ∈ pairs, later.Has (pair.2.merge pair.1).cells
  /-- Other objects are as before. -/
  same : ∀ id, (pairs.map (countPair id)).sum = 0 → later.get id = forest.get id
  /-- Maps stay ascending. -/
  tidy : ∀ id, (later.get id).Tidy
  /-- No object is added. -/
  next : later.next = forest.next
  /-- No object gets below itself. -/
  no_cycle : ∀ id, later.Above id id → forest.Above id id
  /-- Nothing is left to do. -/
  run : AbsorbsAll forest (pairs.map pairIds) later

theorem absorbedAll_nil (tidy : ∀ id, (forest.get id).Tidy) : AbsorbedAll forest forest [] where
  has := by simp
  same := fun _ _ => rfl
  tidy := tidy
  next := rfl
  no_cycle := fun _ cycle => cycle
  run := .nil forest

/-- What is apart from two plants stays where it is when they are absorbed. -/
theorem Absorbed.has_of_apart (absorbed : Absorbed forest later own other)
    {cells : List (NodeId × Node)} (has : forest.Has cells)
    (apart : ∀ id, 0 < countIn id cells → countIn id own.cells + countIn id other.cells = 0) :
    later.Has cells :=
  has.transfer (Nat.le_of_eq absorbed.next.symm) fun id positive => absorbed.same id (apart id positive)

/-- Pairs of plants are absorbed one after the other, as none of them is touched by another pair. -/
theorem Absorbed.cons {pair : Plant × Plant} {rest : List (Plant × Plant)}
    (first : Absorbed forest between pair.2 pair.1) (others : AbsorbedAll between later rest)
    (first_tidy : pair.1.Tidy) (second_tidy : pair.2.Tidy)
    (single : ∀ id, countPair id pair + (rest.map (countPair id)).sum ≤ 1) :
    AbsorbedAll forest later (pair :: rest) where
  has := by
    have pair_single : ∀ id, countIn id pair.2.cells + countIn id pair.1.cells ≤ 1 := by
      intro id
      have single := single id
      rw [countPair] at single
      omega
    intro other member
    rcases List.mem_cons.mp member with rfl | in_rest
    · refine first.has.transfer (Nat.le_of_eq others.next.symm) fun id positive => others.same id ?_
      have merge_le := Plant.countIn_merge_le id second_tidy first_tidy pair_single
      have single := single id
      rw [countPair] at single
      omega
    · exact others.has other in_rest
  same := by
    intro id nothing
    rw [List.map_cons, List.sum_cons, countPair] at nothing
    rw [others.same id (by omega), first.same id (by omega)]
  tidy := others.tidy
  next := others.next.trans first.next
  no_cycle := fun id cycle => first.no_cycle id (others.no_cycle id cycle)
  run := .cons first.run others.run

theorem id_ne_of_single (single : ∀ id, countIn id own.cells + countIn id other.cells ≤ 1) :
    other.id ≠ own.id := by
  intro same
  have own_pos := own.countIn_id_pos
  have other_pos := other.countIn_id_pos
  have single := single own.id
  rw [same] at other_pos
  omega

section Move

variable (tidy : ∀ id, (forest.get id).Tidy) (has_own : forest.Has own.cells)
  (has_other : forest.Has other.cells)
  (single : ∀ id, countIn id own.cells + countIn id other.cells ≤ 1)

include tidy has_own has_other single

/-- The first objects of two plants and the parts of their merge are apart. -/
theorem single_parts (id : NodeId) :
    [own.id].count id + [other.id].count id +
      (countIn id (own.kept other) + ((own.pairs other).map (countPair id)).sum) ≤ 1 := by
  have parts_le := Plant.countIn_kept_add id (has_own.tidy tidy).root (has_other.tidy tidy).root
  have single := single id
  rw [own.cells_eq, other.cells_eq, countIn_cons, countIn_cons] at single
  dsimp only at single
  omega

/-- A move leaves the parts of the merge as they are. -/
theorem get_move_of_part {id : NodeId}
    (part : 0 < countIn id (own.kept other) + ((own.pairs other).map (countPair id)).sum) :
    (forest.move other.id own.id).get id = forest.get id := by
  have parts_le := single_parts tidy has_own has_other single id
  refine Forest.get_move_of_ne ?_ ?_
  · rintro rfl
    rw [List.count_singleton_self] at parts_le
    omega
  · rintro rfl
    rw [List.count_singleton_self] at parts_le
    omega

/-- After a move, the plants that are to be merged stand where they stood. -/
theorem has_pairs_move {pair : Plant × Plant} (member : pair ∈ own.pairs other) :
    (forest.move other.id own.id).Has pair.1.cells ∧
      (forest.move other.id own.id).Has pair.2.cells := by
  have pair_le : ∀ id, countPair id pair ≤ ((own.pairs other).map (countPair id)).sum := fun id =>
    List.single_le_sum (fun _ _ => Nat.zero_le _) _ (List.mem_map_of_mem member)
  have same : ∀ id, 0 < countPair id pair →
      (forest.move other.id own.id).get id = forest.get id := fun id positive =>
    get_move_of_part tidy has_own has_other single
      (Nat.lt_of_lt_of_le positive (Nat.le_trans (pair_le id) (Nat.le_add_left _ _)))
  refine ⟨(has_other.limbs.mono fun cell => (Plant.cells_of_mem_pairs member).1).transfer
      (Nat.le_of_eq (Forest.next_move forest _ _).symm) fun id positive => same id ?_,
    (has_own.limbs.mono fun cell => (Plant.cells_of_mem_pairs member).2).transfer
      (Nat.le_of_eq (Forest.next_move forest _ _).symm) fun id positive => same id ?_⟩
  · exact Nat.lt_of_lt_of_le positive (Nat.le_add_right _ _)
  · exact Nat.lt_of_lt_of_le positive (Nat.le_add_left _ _)

/-- A plant is absorbed by a move and by absorbing what is left to do. -/
theorem absorbed_of_move (rest : AbsorbedAll (forest.move other.id own.id) later (own.pairs other)) :
    Absorbed forest later own other := by
  have own_tidy := has_own.tidy tidy
  have other_tidy := has_other.tidy tidy
  obtain ⟨target_eq, pending_eq⟩ := get_move_target has_own has_other tidy
  have parts_single := single_parts tidy has_own has_other single
  have not_below : ¬forest.Reaches other.id own.id := by
    intro reaches
    have in_other := has_other.reached_iff.mpr reaches
    have in_own := own.countIn_id_pos
    have single := single own.id
    omega
  have ne := id_ne_of_single single
  have next_eq : later.next = forest.next := rest.next.trans (Forest.next_move _ _ _)
  refine ⟨fun cell member => ?_, fun id nothing => ?_, rest.tidy, next_eq, ?_,
    fun id cycle => Forest.above_of_move tidy not_below (rest.no_cycle id cycle),
    .move ne (pending_eq ▸ rest.run)⟩
  · rw [Plant.cells_eq, Plant.id_merge] at member
    rcases List.mem_cons.mp member with rfl | in_limbs
    · have root_single := parts_single own.id
      rw [List.count_singleton_self] at root_single
      rw [next_eq, rest.same own.id (by omega), target_eq]
      exact ⟨has_own.root.1, rfl⟩
    · rcases Plant.mem_limbsCells_merge own_tidy.root other_tidy.root in_limbs with
        in_kept | ⟨pair, in_pairs, in_merge⟩
      · have positive := countIn_pos in_kept
        have cell_single := parts_single cell.1
        have cell_has : cell.1 < forest.next ∧ forest.get cell.1 = cell.2 :=
          (Plant.mem_of_mem_kept in_kept).elim (has_own.limbs cell) (has_other.limbs cell)
        rwa [next_eq, rest.same cell.1 (by omega),
          get_move_of_part tidy has_own has_other single (by omega)]
      · exact rest.has pair in_pairs cell in_merge
  · have parts_le := Plant.countIn_kept_add id own_tidy.root other_tidy.root
    rw [own.cells_eq, other.cells_eq, countIn_cons, countIn_cons] at nothing
    rw [rest.same id (by omega)]
    refine Forest.get_move_of_ne ?_ ?_
    · rintro rfl
      rw [List.count_singleton_self] at nothing
      omega
    · rintro rfl
      simp only [List.count_singleton_self] at nothing
      omega
  · have source_single := parts_single other.id
    rw [List.count_singleton_self] at source_single
    rw [rest.same other.id (by omega), Forest.move_eq, Forest.get_update_of_ne ne,
      Forest.get_update_self has_other.root.1]

end Move

/-- If a budget is enough for each of some pairs, it is enough for all of them. -/
theorem absorbedAll_absorbPairs {budget : Nat}
    (absorbed : ∀ {forest : Forest} {own other : Plant}, (∀ id, (forest.get id).Tidy) →
      forest.Has own.cells → forest.Has other.cells →
      (∀ id, countIn id own.cells + countIn id other.cells ≤ 1) → other.cells.length ≤ budget →
      Absorbed forest (absorbWithin budget forest other.id own.id) own other)
    (pairs : List (Plant × Plant)) (tidy : ∀ id, (forest.get id).Tidy)
    (has : ∀ pair ∈ pairs, forest.Has pair.1.cells ∧ forest.Has pair.2.cells)
    (single : ∀ id, (pairs.map (countPair id)).sum ≤ 1)
    (enough : ∀ pair ∈ pairs, pair.1.cells.length ≤ budget) :
    AbsorbedAll forest (absorbPairs budget forest (pairs.map pairIds)) pairs := by
  induction pairs generalizing forest with
  | nil =>
      rw [List.map_nil, absorbPairs]
      exact absorbedAll_nil tidy
  | cons pair rest induction =>
      rw [List.map_cons, pairIds, absorbPairs]
      simp only [List.map_cons, List.sum_cons] at single
      obtain ⟨has_first, has_second⟩ := has pair List.mem_cons_self
      have pair_single : ∀ id, countIn id pair.2.cells + countIn id pair.1.cells ≤ 1 := by
        intro id
        have single := single id
        rw [countPair] at single
        omega
      have first := absorbed tidy has_second has_first pair_single (enough pair List.mem_cons_self)
      have apart : ∀ other ∈ rest, ∀ id, 0 < countPair id other →
          countIn id pair.2.cells + countIn id pair.1.cells = 0 := by
        intro other member id positive
        have other_le : countPair id other ≤ (rest.map (countPair id)).sum :=
          List.single_le_sum (fun _ _ => Nat.zero_le _) _ (List.mem_map_of_mem member)
        have single := single id
        rw [countPair] at single
        omega
      have has_rest : ∀ other ∈ rest,
          (absorbWithin budget forest pair.1.id pair.2.id).Has other.1.cells ∧
            (absorbWithin budget forest pair.1.id pair.2.id).Has other.2.cells := by
        intro other member
        obtain ⟨other_first, other_second⟩ := has other (List.mem_cons_of_mem pair member)
        exact ⟨first.has_of_apart other_first fun id positive => apart other member id
            (Nat.lt_of_lt_of_le positive (Nat.le_add_right _ _)),
          first.has_of_apart other_second fun id positive => apart other member id
            (Nat.lt_of_lt_of_le positive (Nat.le_add_left _ _))⟩
      have others := induction first.tidy has_rest
        (fun id => Nat.le_trans (Nat.le_add_left _ _) (single id))
        fun other member => enough other (List.mem_cons_of_mem pair member)
      exact first.cons others (has_first.tidy tidy) (has_second.tidy tidy) single

/-- Moving all of one plant into another one merges them. -/
theorem absorbed_absorbWithin (budget : Nat) (tidy : ∀ id, (forest.get id).Tidy)
    (has_own : forest.Has own.cells) (has_other : forest.Has other.cells)
    (single : ∀ id, countIn id own.cells + countIn id other.cells ≤ 1)
    (enough : other.cells.length ≤ budget) :
    Absorbed forest (absorbWithin budget forest other.id own.id) own other := by
  induction budget generalizing forest own other with
  | zero =>
      rw [other.cells_eq] at enough
      exact absurd enough (Nat.not_succ_le_zero _)
  | succ budget induction =>
      have shorter := fun pair member =>
        @Plant.length_lt_of_mem_pairs own other (has_own.tidy tidy) (has_other.tidy tidy) single pair
          member
      rw [absorbWithin_succ (id_ne_of_single single), (get_move_target has_own has_other tidy).2]
      refine absorbed_of_move tidy has_own has_other single
        (absorbedAll_absorbPairs induction _ (Forest.tidy_move tidy other.id own.id)
          (fun pair member => has_pairs_move tidy has_own has_other single member) (fun id => ?_)
          fun pair member => ?_)
      · have parts_single := single_parts tidy has_own has_other single id
        omega
      · have shorter := shorter pair member
        omega

/-- Absorbing one plant of a forest into another one merges them. -/
theorem absorbed_absorb (tidy : ∀ id, (forest.get id).Tidy)
    (has_own : forest.Has own.cells) (has_other : forest.Has other.cells)
    (single : ∀ id, countIn id own.cells + countIn id other.cells ≤ 1) :
    Absorbed forest (forest.absorb other.id own.id) own other := by
  have other_single : ∀ id, countIn id other.cells ≤ 1 := fun id =>
    Nat.le_trans (Nat.le_add_left _ _) (single id)
  exact absorbed_absorbWithin (forest.next + 1) tidy has_own has_other single
    (Nat.le_succ_of_le (has_other.length_le other_single))

end Plants

end StationGateway.Tree
