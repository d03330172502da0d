import StationGateway.Proofs.Tree.Path

/-!
# What a row adds

A row goes on filling the objects on the first part of its path and grafts its new objects below the
last of them. So it adds the objects on the rest of the path that are not there yet, and one element
at its end. -/

namespace StationGateway.Tree

open StationGateway.Order

section Extend

variable (showNull : Bool) (seed : TargetList → Plant)

/-- A plant with the new objects of a row, of which it goes on filling those on the first part of the
path of keys. -/
def extend (leaf : Option Leaf) :
    Nat → List TargetList → List Tier → List String → Plant → Plant
  | 0, inlines, tiers, keys, plant => graft showNull seed leaf inlines tiers keys plant
  | kept + 1, _, tier :: rest, key :: keys, plant =>
      match plant.entryAt? tier.target key with
      | some existing =>
          plant.putEntry tier.target key (extend leaf kept tier.inlines rest keys existing)
      | none => plant
  | _ + 1, _, _, _, plant => plant

/-- The new entry of a row below the outermost of some maps. -/
def branchOf (leaf : Option Leaf) (tier : Tier) (rest : List Tier) (keys : List String) : Plant :=
  graft showNull seed leaf tier.inlines rest keys (seed tier.list)

/-- The new element of a row, unless it is bare. -/
def newElements (leaf : Leaf) : List Plant :=
  if (elementOf showNull seed leaf).isBare && !showNull then [] else [elementOf showNull seed leaf]

variable {showNull} {seed} {leaf : Option Leaf} {inlines : List TargetList} {tier : Tier} {tiers : List Tier}
  {keys : List String} {plant : Plant} {parent : Option String}

/-! ## Grafting at an object -/

@[simp] theorem id_inlined (inlines : List TargetList) (plant : Plant) :
    (inlined showNull seed inlines plant).id = plant.id := by
  induction inlines generalizing plant with
  | nil => rfl
  | cons list rest induction =>
      rw [inlined, List.foldl_cons, ← inlined, induction, Plant.attachInline]
      split
      · rfl
      · rfl

@[simp] theorem id_attachElement (target : String) (plant item : Plant) :
    (plant.attachElement showNull target item).id = plant.id := by
  rw [Plant.attachElement]
  split
  · rfl
  · split
    · rfl
    · rfl
    · rfl

@[simp] theorem id_graft (leaf : Option Leaf) (inlines : List TargetList) (tiers : List Tier)
    (keys : List String) (plant : Plant) :
    (graft showNull seed leaf inlines tiers keys plant).id = plant.id := by
  match tiers, keys with
  | [], _ =>
      cases leaf with
      | none => exact id_inlined inlines plant
      | some leaf => exact (id_attachElement _ _ _).trans (id_inlined inlines plant)
  | _ :: _, [] => exact id_inlined inlines plant
  | tier :: rest, key :: keys =>
      rw [graft, Plant.attachKeyed, Plant.id_putEntry, id_inlined]

/-- Attaching something to an object leaves its own fields. -/
@[simp] theorem fields_inlined (inlines : List TargetList) (plant : Plant) :
    (inlined showNull seed inlines plant).fields = plant.fields := by
  induction inlines generalizing plant with
  | nil => rfl
  | cons list rest induction =>
      rw [inlined, List.foldl_cons, ← inlined, induction, Plant.attachInline]
      split
      · rfl
      · rfl

@[simp] theorem fields_attachElement (target : String) (plant item : Plant) :
    (plant.attachElement showNull target item).fields = plant.fields := by
  rw [Plant.attachElement]
  split
  · rfl
  · split
    · rfl
    · rfl
    · rfl

@[simp] theorem fields_graft (leaf : Option Leaf) (inlines : List TargetList) (tiers : List Tier)
    (keys : List String) (plant : Plant) :
    (graft showNull seed leaf inlines tiers keys plant).fields = plant.fields := by
  match tiers, keys with
  | [], _ =>
      cases leaf with
      | none => exact fields_inlined inlines plant
      | some leaf => exact (fields_attachElement _ _ _).trans (fields_inlined inlines plant)
  | _ :: _, [] => exact fields_inlined inlines plant
  | tier :: rest, key :: keys =>
      rw [graft, Plant.attachKeyed, Plant.fields_putEntry, fields_inlined]

@[simp] theorem fields_extend (leaf : Option Leaf) (kept : Nat) (inlines : List TargetList)
    (tiers : List Tier) (keys : List String) (plant : Plant) :
    (extend showNull seed leaf kept inlines tiers keys plant).fields = plant.fields := by
  match kept, tiers, keys with
  | 0, tiers, keys => exact fields_graft leaf inlines tiers keys plant
  | kept + 1, tier :: rest, key :: keys =>
      rw [extend]
      split
      · exact Plant.fields_putEntry _ _ _ _
      · rfl
  | kept + 1, [], _ => rfl
  | kept + 1, _ :: _, [] => rfl

theorem holds_inlined {target : Option String} (holds : plant.Holds target)
    (beside : ∀ list ∈ inlines, target.isSome ∧ target ≠ some (targetOf list)) :
    (inlined showNull seed inlines plant).Holds target := by
  cases target with
  | none =>
      cases inlines with
      | nil => exact holds
      | cons list rest => exact absurd (beside list List.mem_cons_self).1 (by simp)
  | some target =>
      have kept : find? target (inlined showNull seed inlines plant).limbs = find? target plant.limbs :=
        find?_limbs_inlined fun list member same => (beside list member).2 (congrArg some same)
      intro limb found
      rw [kept] at found
      exact holds limb found

/-- Grafting changes one entry. -/
theorem entryAt?_graft (holds : plant.Holds tier.target) (fits : tier.Fits parent inlines)
    (key other : String) (keys : List String) :
    (graft showNull seed leaf inlines (tier :: tiers) (key :: keys) plant).entryAt? tier.target other =
      if other = key then
        some (((plant.entryAt? tier.target key).map fun existing =>
          existing.merge (branchOf showNull seed leaf tier tiers keys)).getD
            (branchOf showNull seed leaf tier tiers keys))
      else plant.entryAt? tier.target other := by
  have beside := fits.2.2.2
  rw [graft, Plant.attachKeyed, Plant.entryAt?_putEntry (holds_inlined holds beside),
    entryAt?_inlined beside, entryAt?_inlined beside]
  rfl

theorem holds_graft (holds : plant.Holds tier.target) (fits : tier.Fits parent inlines)
    (key : String) (keys : List String) :
    (graft showNull seed leaf inlines (tier :: tiers) (key :: keys) plant).Holds tier.target := by
  rw [graft, Plant.attachKeyed]
  exact Plant.holds_putEntry (holds_inlined holds fits.2.2.2) _ _

/-- The limb of the leaf is a list after grafting if it was one before. -/
theorem limb_attachElement {target : String} (item : Plant)
    (is_list : ∀ limb, find? target plant.limbs = some limb → ∃ items, limb = .list items) :
    (plant.attachElement showNull target item).elements target =
        plant.elements target ++ (if item.isBare && !showNull then [] else [item]) ∧
      ∀ limb, find? target (plant.attachElement showNull target item).limbs = some limb →
        ∃ items, limb = .list items := by
  rw [Plant.attachElement]
  by_cases left_out : (item.isBare && !showNull) = true
  · rw [if_pos left_out, if_pos left_out, List.append_nil]
    exact ⟨rfl, is_list⟩
  · rw [if_neg left_out, if_neg left_out, Plant.elements, Plant.elements]
    cases found : find? target plant.limbs with
    | none =>
        rw [Plant.limbs_setLimb, find?_put, if_pos rfl]
        exact ⟨rfl, fun limb found_limb => ⟨_, (Option.some.inj found_limb).symm⟩⟩
    | some limb =>
        obtain ⟨items, rfl⟩ := is_list limb found
        dsimp only
        rw [Plant.limbs_setLimb, find?_put, if_pos rfl]
        exact ⟨rfl, fun limb found_limb => ⟨_, (Option.some.inj found_limb).symm⟩⟩

/-- Whether the new entry of a row can be taken up where an entry is. -/
def Ripe (showNull : Bool) (seed : TargetList → Plant) (leaf : Option Leaf) (plant : Plant) :
    List Tier → List String → Prop
  | tier :: rest, key :: keys => ∀ existing, plant.entryAt? tier.target key = some existing →
      (branchOf showNull seed leaf tier rest keys).Tidy ∧
        ∀ id, countIn id existing.cells + countIn id (branchOf showNull seed leaf tier rest keys).cells ≤ 1
  | _, _ => True

theorem ripe_of_no_limbs (no_limbs : plant.limbs = []) (tiers : List Tier) (keys : List String) :
    Ripe showNull seed leaf plant tiers keys := by
  match tiers, keys with
  | [], _ => trivial
  | _ :: _, [] => trivial
  | tier :: rest, key :: keys =>
      intro existing found
      rw [Plant.entryAt?_of_no_limbs no_limbs] at found
      cases found

/-- Grafting an element. -/
theorem graft_leaf (fits : ∀ found ∈ leaf, found.Fits parent inlines) (shaped : plant.Shaped leaf [])
    (keys : List String) :
    (graft showNull seed leaf inlines [] keys plant).Shaped leaf [] ∧ ∀ found ∈ leaf,
      (graft showNull seed leaf inlines [] keys plant).elements (targetOf found.list) =
        plant.elements (targetOf found.list) ++ newElements showNull seed found := by
  cases leaf with
  | none =>
      refine ⟨?_, fun found is_leaf => absurd is_leaf (Option.not_mem_none found)⟩
      exact fun found is_leaf => absurd is_leaf (Option.not_mem_none found)
  | some leaf =>
      have beside : ∀ list ∈ inlines, targetOf leaf.list ≠ targetOf list := fun list member =>
        ((fits leaf rfl).2.2.2.1 list member).symm
      have kept : find? (targetOf leaf.list) (inlined showNull seed inlines plant).limbs =
          find? (targetOf leaf.list) plant.limbs := find?_limbs_inlined beside
      have is_list : ∀ limb,
          find? (targetOf leaf.list) (inlined showNull seed inlines plant).limbs = some limb →
            ∃ items, limb = .list items := by
        intro limb found
        rw [kept] at found
        exact shaped leaf rfl limb found
      obtain ⟨elements_eq, later_list⟩ := limb_attachElement (elementOf showNull seed leaf) is_list
      refine ⟨fun found is_leaf => ?_, fun found is_leaf => ?_⟩
      · obtain rfl := Option.some.inj is_leaf
        exact later_list
      · obtain rfl := Option.some.inj is_leaf
        refine elements_eq.trans ?_
        rw [Plant.elements, Plant.elements, kept]
        rfl

theorem shaped_graft (fits : FitsBelow leaf parent inlines tiers) (no_limbs : ∀ list, (seed list).limbs = [])
    (length_eq : keys.length = tiers.length) (shaped : plant.Shaped leaf tiers)
    (ripe : Ripe showNull seed leaf plant tiers keys) :
    (graft showNull seed leaf inlines tiers keys plant).Shaped leaf tiers := by
  induction tiers generalizing plant parent inlines keys with
  | nil => exact (graft_leaf fits.2 shaped keys).1
  | cons tier rest induction =>
      obtain ⟨key, keys, rfl⟩ := List.exists_cons_of_length_eq_add_one length_eq
      refine ⟨holds_graft shaped.1 fits.2.1 key keys, fun other entry found => ?_⟩
      rw [entryAt?_graft shaped.1 fits.2.1] at found
      have branch_shaped : (branchOf showNull seed leaf tier rest keys).Shaped leaf rest :=
        induction fits.2.2 (Nat.succ.inj length_eq)
          (Plant.shaped_of_no_limbs (no_limbs tier.list) leaf rest)
          (ripe_of_no_limbs (no_limbs tier.list) rest keys)
      by_cases is_key : other = key
      · rw [if_pos is_key] at found
        obtain rfl := Option.some.inj found
        cases found_old : plant.entryAt? tier.target key with
        | none => exact branch_shaped
        | some existing =>
            exact (shaped.2 key existing found_old).merge branch_shaped (ripe existing found_old).1
      · rw [if_neg is_key] at found
        exact shaped.2 other entry found

/-- Grafting adds the rest of the path. -/
theorem isSome_at?_graft (fits : FitsBelow leaf parent inlines tiers)
    (no_limbs : ∀ list, (seed list).limbs = []) (length_eq : keys.length = tiers.length)
    (shaped : plant.Shaped leaf tiers) (ripe : Ripe showNull seed leaf plant tiers keys)
    (path : List String) :
    ((graft showNull seed leaf inlines tiers keys plant).at? tiers path).isSome ↔
      (plant.at? tiers path).isSome ∨ path <+: keys := by
  induction tiers generalizing plant parent inlines keys path with
  | nil =>
      cases path with
      | nil => simp [Plant.at?_nil]
      | cons first path => simp [Plant.at?, List.eq_nil_of_length_eq_zero length_eq]
  | cons tier rest induction =>
      obtain ⟨key, keys, rfl⟩ := List.exists_cons_of_length_eq_add_one length_eq
      cases path with
      | nil => simp [Plant.at?_nil]
      | cons first path =>
          have branch_some : ∀ path, ((branchOf showNull seed leaf tier rest keys).at? rest path).isSome ↔
              path <+: keys := by
            intro path
            refine (induction fits.2.2 (Nat.succ.inj length_eq)
              (Plant.shaped_of_no_limbs (no_limbs tier.list) leaf rest)
              (ripe_of_no_limbs (no_limbs tier.list) rest keys) path).trans ?_
            cases path with
            | nil => simp [Plant.at?_nil]
            | cons second path => simp [Plant.at?_of_no_limbs (no_limbs tier.list)]
          rw [Plant.at?, entryAt?_graft shaped.1 fits.2.1, Plant.at?, List.cons_prefix_cons]
          by_cases is_key : first = key
          · subst is_key
            rw [if_pos rfl, Option.bind_some]
            cases found : plant.entryAt? tier.target first with
            | none =>
                rw [Option.map_none, Option.getD_none, branch_some]
                simp
            | some existing =>
                rw [Option.map_some, Option.getD_some,
                  Plant.at?_merge (shaped.2 first existing found) (ripe existing found).1,
                  Option.bind_some, Option.isSome_merge, Bool.or_eq_true, branch_some]
                simp
          · rw [if_neg is_key]
            simp [is_key]

/-- What is on a path before grafting stays there. -/
theorem at?_graft_same (fits : FitsBelow leaf parent inlines tiers)
    (length_eq : keys.length = tiers.length) (shaped : plant.Shaped leaf tiers)
    (ripe : Ripe showNull seed leaf plant tiers keys) {path : List String} {found : Plant}
    (found_eq : plant.at? tiers path = some found) :
    ∃ later, (graft showNull seed leaf inlines tiers keys plant).at? tiers path = some later ∧
      later.id = found.id := by
  cases path with
  | nil =>
      obtain rfl := Plant.eq_of_at?_nil found_eq
      exact ⟨_, Plant.at?_nil tiers _, id_graft _ _ _ _ _⟩
  | cons first path =>
      cases tiers with
      | nil => cases found_eq
      | cons tier rest =>
          obtain ⟨key, keys, rfl⟩ := List.exists_cons_of_length_eq_add_one length_eq
          obtain ⟨entry, entry_eq, entry_at⟩ := Option.bind_eq_some_iff.mp found_eq
          rw [Plant.at?, entryAt?_graft shaped.1 fits.2.1]
          by_cases is_key : first = key
          · subst is_key
            rw [if_pos rfl, Option.bind_some, entry_eq, Option.map_some, Option.getD_some,
              Plant.at?_merge (shaped.2 first entry entry_eq) (ripe entry entry_eq).1, entry_at]
            cases (branchOf showNull seed leaf tier rest keys).at? rest path with
            | none => exact ⟨found, rfl, rfl⟩
            | some more => exact ⟨_, rfl, Plant.id_merge found more⟩
          · rw [if_neg is_key, entry_eq, Option.bind_some]
            exact ⟨found, entry_at, rfl⟩

/-- Grafting adds an element at the end of the path. -/
theorem elementsAt_graft {leaf : Leaf} (fits : FitsBelow (some leaf) parent inlines tiers)
    (no_limbs : ∀ list, (seed list).limbs = []) (length_eq : keys.length = tiers.length)
    (shaped : plant.Shaped (some leaf) tiers) (ripe : Ripe showNull seed (some leaf) plant tiers keys)
    {path : List String} (path_length : path.length = tiers.length) :
    (graft showNull seed (some leaf) inlines tiers keys plant).elementsAt tiers path (targetOf leaf.list) =
      plant.elementsAt tiers path (targetOf leaf.list) ++
        (if path = keys then newElements showNull seed leaf else []) := by
  induction tiers generalizing plant parent inlines keys path with
  | nil =>
      obtain rfl := List.eq_nil_of_length_eq_zero path_length
      obtain rfl := List.eq_nil_of_length_eq_zero length_eq
      rw [if_pos rfl]
      exact (graft_leaf fits.2 shaped []).2 leaf rfl
  | cons tier rest induction =>
      obtain ⟨key, keys, rfl⟩ := List.exists_cons_of_length_eq_add_one length_eq
      obtain ⟨first, path, rfl⟩ := List.exists_cons_of_length_eq_add_one path_length
      have rest_length := Nat.succ.inj path_length
      have branch_elements : (branchOf showNull seed (some leaf) tier rest keys).elementsAt rest path
          (targetOf leaf.list) = if path = keys then newElements showNull seed leaf else [] := by
        refine (induction fits.2.2 (Nat.succ.inj length_eq)
          (Plant.shaped_of_no_limbs (no_limbs tier.list) (some leaf) rest)
          (ripe_of_no_limbs (no_limbs tier.list) rest keys) rest_length).trans ?_
        rw [Plant.elementsAt_of_no_limbs (no_limbs tier.list), List.nil_append]
      rw [Plant.elementsAt_cons, entryAt?_graft shaped.1 fits.2.1, Plant.elementsAt_cons]
      by_cases is_key : first = key
      · subst is_key
        rw [if_pos rfl, Option.map_some, Option.getD_some]
        cases found : plant.entryAt? tier.target first with
        | none =>
            rw [Option.map_none, Option.getD_none, branch_elements]
            simp
        | some existing =>
            rw [Option.map_some, Option.getD_some,
              Plant.elementsAt_merge (shaped.2 first existing found) (ripe existing found).1 rest_length,
              branch_elements]
            simp
      · rw [if_neg is_key, if_neg fun same => is_key (List.cons.inj same).1, List.append_nil]

/-- The new entry of a row leads to its new objects. -/
theorem at?_graft_new (fits : FitsBelow leaf parent inlines tiers)
    (no_limbs : ∀ list, (seed list).limbs = []) (length_eq : keys.length = tiers.length)
    (shaped : plant.Shaped leaf tiers) (ripe : Ripe showNull seed leaf plant tiers keys) {depth : Nat}
    {tier : Tier} (tier_eq : tiers[depth]? = some tier)
    (absent : plant.at? tiers (keys.take (depth + 1)) = none) :
    ∃ found,
      (graft showNull seed leaf inlines tiers keys plant).at? tiers (keys.take (depth + 1)) = some found ∧
        found.id = (seed tier.list).id := by
  induction tiers generalizing plant parent inlines keys depth with
  | nil => cases tier_eq
  | cons first rest induction =>
      obtain ⟨key, keys, rfl⟩ := List.exists_cons_of_length_eq_add_one length_eq
      rw [List.take_succ_cons, Plant.at?] at absent
      rw [List.take_succ_cons, Plant.at?, entryAt?_graft shaped.1 fits.2.1, if_pos rfl, Option.bind_some]
      cases depth with
      | zero =>
          obtain rfl := Option.some.inj tier_eq
          rw [List.take_zero] at absent ⊢
          cases found : plant.entryAt? first.target key with
          | none =>
              rw [Option.map_none, Option.getD_none, Plant.at?_nil]
              exact ⟨_, rfl, id_graft _ _ _ _ _⟩
          | some existing =>
              rw [found, Option.bind_some, Plant.at?_nil] at absent
              cases absent
      | succ depth =>
          have first_absent : (seed first.list).at? rest (keys.take (depth + 1)) = none := by
            cases keys with
            | nil =>
                have rest_nil := List.eq_nil_of_length_eq_zero (Nat.succ.inj length_eq).symm
                rw [rest_nil] at tier_eq
                cases tier_eq
            | cons second keys => exact Plant.at?_of_no_limbs (no_limbs first.list) rest second _
          obtain ⟨branch, branch_at, branch_id⟩ := induction fits.2.2 (Nat.succ.inj length_eq)
            (Plant.shaped_of_no_limbs (no_limbs first.list) leaf rest)
            (ripe_of_no_limbs (no_limbs first.list) rest keys) tier_eq first_absent
          rw [← branchOf] at branch_at
          cases found : plant.entryAt? first.target key with
          | none =>
              rw [Option.map_none, Option.getD_none]
              exact ⟨branch, branch_at, branch_id⟩
          | some existing =>
              rw [found, Option.bind_some] at absent
              rw [Option.map_some, Option.getD_some,
                Plant.at?_merge (shaped.2 key existing found) (ripe existing found).1, absent, branch_at]
              exact ⟨branch, rfl, branch_id⟩

theorem spares_of_merge {own other : Plant} {name : String} {path : List String} {entry : Plant}
    (own_spares : own.Spares name tiers) (other_spares : other.Spares name tiers)
    (path_length : path.length = tiers.length)
    (found : (own.at? tiers path).merge Plant.merge (other.at? tiers path) = some entry) :
    find? name entry.fields = none := by
  cases own_eq : own.at? tiers path with
  | none =>
      rw [own_eq, Option.merge_none_left] at found
      exact other_spares path entry path_length found
  | some old =>
      have old_none := own_spares path old path_length own_eq
      cases other_eq : other.at? tiers path with
      | none =>
          rw [own_eq, other_eq, Option.merge_none_right] at found
          exact Option.some.inj found ▸ old_none
      | some more =>
          rw [own_eq, other_eq, Option.merge_some_some] at found
          obtain rfl := Option.some.inj found
          rw [Plant.fields_merge, find?_unionFields, old_none, Option.none_or]
          exact other_spares path more path_length other_eq

/-- Grafting adds no field that the new innermost entry does not have. -/
theorem spares_graft {name : String} (fits : FitsBelow leaf parent inlines tiers)
    (no_limbs : ∀ list, (seed list).limbs = []) (length_eq : keys.length = tiers.length)
    (shaped : plant.Shaped leaf tiers) (ripe : Ripe showNull seed leaf plant tiers keys)
    (new : ∀ tier ∈ tiers.getLast?, find? name (seed tier.list).fields = none)
    (spares : plant.Spares name tiers) :
    (graft showNull seed leaf inlines tiers keys plant).Spares name tiers := by
  induction tiers generalizing plant parent inlines keys with
  | nil =>
      intro path entry path_length found
      obtain rfl := List.eq_nil_of_length_eq_zero path_length
      obtain rfl := Plant.eq_of_at?_nil found
      rw [fields_graft]
      exact spares [] plant rfl (Plant.at?_nil [] plant)
  | cons tier rest induction =>
      obtain ⟨key, keys, rfl⟩ := List.exists_cons_of_length_eq_add_one length_eq
      have branch_spares : (branchOf showNull seed leaf tier rest keys).Spares name rest := by
        refine induction fits.2.2 (Nat.succ.inj length_eq)
          (Plant.shaped_of_no_limbs (no_limbs tier.list) leaf rest)
          (ripe_of_no_limbs (no_limbs tier.list) rest keys) ?_ ?_
        · intro last is_last
          cases rest with
          | nil => cases is_last
          | cons second more => exact new last is_last
        · intro path entry path_length found
          cases rest with
          | nil =>
              obtain rfl := List.eq_nil_of_length_eq_zero path_length
              obtain rfl := Plant.eq_of_at?_nil found
              exact new tier rfl
          | cons second more =>
              obtain ⟨first, path, rfl⟩ := List.exists_cons_of_length_eq_add_one path_length
              rw [Plant.at?_of_no_limbs (no_limbs tier.list)] at found
              cases found
      intro path entry path_length found
      obtain ⟨first, path, rfl⟩ := List.exists_cons_of_length_eq_add_one path_length
      rw [Plant.at?, entryAt?_graft shaped.1 fits.2.1] at found
      by_cases is_key : first = key
      · subst is_key
        rw [if_pos rfl, Option.bind_some] at found
        cases existing_eq : plant.entryAt? tier.target first with
        | none =>
            rw [existing_eq, Option.map_none, Option.getD_none] at found
            exact branch_spares path entry (Nat.succ.inj path_length) found
        | some existing =>
            have old_spares : existing.Spares name rest := fun path old path_length old_eq =>
              spares (first :: path) old (congrArg Nat.succ path_length)
                (by rw [Plant.at?, existing_eq]; exact old_eq)
            rw [existing_eq, Option.map_some, Option.getD_some,
              Plant.at?_merge (shaped.2 first existing existing_eq) (ripe existing existing_eq).1] at found
            exact spares_of_merge old_spares branch_spares (Nat.succ.inj path_length) found
      · rw [if_neg is_key] at found
        exact spares (first :: path) entry path_length found

theorem countIn_inlined_le (id : NodeId) (inlines : List TargetList) (plant : Plant) :
    countIn id (inlined showNull seed inlines plant).cells ≤
      countIn id plant.cells + countIn id (seedCells seed inlines) := by
  induction inlines generalizing plant with
  | nil => exact Nat.le_refl _
  | cons list rest induction =>
      have first_le := Plant.countIn_attachInline_le id showNull (targetOf list) plant (seed list)
      have rest_le := induction (plant.attachInline showNull (targetOf list) (seed list))
      rw [inlined, List.foldl_cons, ← inlined, seedCells_cons, countIn_append]
      omega

/-- A new object below the new entry is not there after grafting if its place on the path is taken. -/
theorem countIn_graft_taken (fits : FitsBelow leaf parent inlines tiers)
    (no_limbs : ∀ list, (seed list).limbs = []) (length_eq : keys.length = tiers.length)
    (tidy : plant.Tidy) (ripe : Ripe showNull seed leaf plant tiers keys) {depth : Nat} {tier : Tier}
    (tier_eq : tiers[depth + 1]? = some tier) {existing : Plant}
    (present : plant.at? tiers (keys.take (depth + 2)) = some existing)
    (apart : countIn (seed tier.list).id plant.cells = 0)
    (inlines_apart : countIn (seed tier.list).id (seedCells seed inlines) = 0) :
    countIn (seed tier.list).id (graft showNull seed leaf inlines tiers keys plant).cells = 0 := by
  cases tiers with
  | nil => cases tier_eq
  | cons first rest =>
      obtain ⟨key, keys, rfl⟩ := List.exists_cons_of_length_eq_add_one length_eq
      rw [List.take_succ_cons] at present
      obtain ⟨entry, entry_eq, entry_at⟩ := Option.bind_eq_some_iff.mp present
      obtain ⟨branch_tidy, single⟩ := ripe entry entry_eq
      have inlined_le := @countIn_inlined_le showNull seed (seed tier.list).id inlines plant
      have rest_ne : keys ≠ [] := by
        rintro rfl
        rw [List.eq_nil_of_length_eq_zero (Nat.succ.inj length_eq).symm] at tier_eq
        cases tier_eq
      obtain ⟨second, others, keys_eq⟩ := List.exists_cons_of_ne_nil rest_ne
      obtain ⟨branch, branch_at, branch_id⟩ := at?_graft_new fits.2.2 no_limbs (Nat.succ.inj length_eq)
        (Plant.shaped_of_no_limbs (no_limbs first.list) leaf rest)
        (ripe_of_no_limbs (no_limbs first.list) rest keys) tier_eq
        (by rw [keys_eq]; exact Plant.at?_of_no_limbs (no_limbs first.list) rest second _)
      have merge_add := Plant.countIn_merge_add_of_at? (seed tier.list).id (tidy.entryAt? entry_eq)
        branch_tidy single entry_at branch_at
      have merge_apart : countIn (seed tier.list).id
          (entry.merge (branchOf showNull seed leaf first rest keys)).cells = 0 := by
        have single := single (seed tier.list).id
        rw [branch_id, List.count_singleton_self] at merge_add
        omega
      rw [graft, Plant.attachKeyed, entryAt?_inlined fits.2.1.2.2.2, entry_eq]
      exact Plant.countIn_putEntry_eq_zero (by omega) merge_apart first.target key

/-! ## Filling objects on the way -/

/-- What a row changes that goes on filling the objects on the first part of its path. -/
structure Extended (showNull : Bool) (seed : TargetList → Plant) (leaf : Option Leaf)
    (beside : List TargetList) (kept : Nat) (tiers : List Tier) (keys : List String)
    (plant later : Plant) : Prop where
  /-- The shape stays. -/
  shaped : later.Shaped leaf tiers
  /-- The path is added. -/
  isSome : ∀ path, (later.at? tiers path).isSome ↔ (plant.at? tiers path).isSome ∨ path <+: keys
  /-- What is on a path stays there. -/
  same : ∀ path found, plant.at? tiers path = some found →
    ∃ grown, later.at? tiers path = some grown ∧ grown.id = found.id
  /-- New objects are added where there is none. -/
  new : ∀ depth tier, kept ≤ depth → tiers[depth]? = some tier →
    plant.at? tiers (keys.take (depth + 1)) = none →
      ∃ found, later.at? tiers (keys.take (depth + 1)) = some found ∧ found.id = (seed tier.list).id
  /-- New objects below a new entry are not added where there is one. -/
  taken : ∀ depth tier existing, kept < depth → tiers[depth]? = some tier →
    plant.at? tiers (keys.take (depth + 1)) = some existing →
      countIn (seed tier.list).id plant.cells = 0 →
        countIn (seed tier.list).id (seedCells seed beside) = 0 →
          countIn (seed tier.list).id later.cells = 0
  /-- An element is added at the end of the path. -/
  elements : ∀ found ∈ leaf, ∀ path, path.length = tiers.length →
    later.elementsAt tiers path (targetOf found.list) =
      plant.elementsAt tiers path (targetOf found.list) ++
        (if path = keys then newElements showNull seed found else [])
  /-- Innermost entries get no field that the new one does not have. -/
  spares : ∀ name, (∀ tier ∈ tiers.getLast?, find? name (seed tier.list).fields = none) →
    plant.Spares name tiers → later.Spares name tiers

theorem extended_graft (fits : FitsBelow leaf parent inlines tiers)
    (no_limbs : ∀ list, (seed list).limbs = []) (length_eq : keys.length = tiers.length)
    (shaped : plant.Shaped leaf tiers) (tidy : plant.Tidy)
    (ripe : Ripe showNull seed leaf plant tiers keys) :
    Extended showNull seed leaf inlines 0 tiers keys plant
      (graft showNull seed leaf inlines tiers keys plant) where
  shaped := shaped_graft fits no_limbs length_eq shaped ripe
  isSome := isSome_at?_graft fits no_limbs length_eq shaped ripe
  same _ _ := at?_graft_same fits length_eq shaped ripe
  new _ _ _ := at?_graft_new fits no_limbs length_eq shaped ripe
  taken := by
    intro depth tier existing positive tier_eq present
    obtain ⟨depth, rfl⟩ := Nat.exists_eq_add_of_lt positive
    rw [Nat.zero_add] at tier_eq present
    exact countIn_graft_taken fits no_limbs length_eq tidy ripe tier_eq present
  elements := by
    rintro found ⟨⟩ path path_length
    exact elementsAt_graft fits no_limbs length_eq shaped ripe path_length
  spares _ new spares := spares_graft fits no_limbs length_eq shaped ripe new spares

/-- An entry that is extended extends the plant. -/
theorem Extended.putEntry {beside : List TargetList} {kept : Nat} {key : String}
    {existing grown : Plant} (extended : Extended showNull seed leaf beside kept tiers keys existing grown)
    (shaped : plant.Shaped leaf (tier :: tiers)) (found : plant.entryAt? tier.target key = some existing) :
    Extended showNull seed leaf beside (kept + 1) (tier :: tiers) (key :: keys) plant
      (plant.putEntry tier.target key grown) where
  shaped := shaped.putEntry extended.shaped key
  isSome := by
    intro path
    cases path with
    | nil => simp [Plant.at?_nil]
    | cons first path =>
        rw [Plant.at?, Plant.entryAt?_putEntry shaped.1, Plant.at?, List.cons_prefix_cons]
        by_cases is_key : first = key
        · subst is_key
          rw [if_pos rfl, found, Option.bind_some, Option.bind_some, extended.isSome]
          simp
        · rw [if_neg is_key]
          simp [is_key]
  same := by
    intro path object object_eq
    cases path with
    | nil =>
        obtain rfl := Plant.eq_of_at?_nil object_eq
        exact ⟨_, Plant.at?_nil _ _, Plant.id_putEntry _ _ _ _⟩
    | cons first path =>
        rw [Plant.at?] at object_eq
        rw [Plant.at?, Plant.entryAt?_putEntry shaped.1]
        by_cases is_key : first = key
        · subst is_key
          rw [found, Option.bind_some] at object_eq
          rw [if_pos rfl, Option.bind_some]
          exact extended.same path object object_eq
        · rw [if_neg is_key]
          exact ⟨object, object_eq, rfl⟩
  new := by
    intro depth other le tier_eq absent
    obtain ⟨depth, rfl⟩ := Nat.exists_eq_add_of_le' le
    rw [List.take_succ_cons, Plant.at?, found, Option.bind_some] at absent
    rw [List.take_succ_cons, Plant.at?, Plant.entryAt?_putEntry shaped.1, if_pos rfl, Option.bind_some]
    exact extended.new (depth + kept) other (Nat.le_add_left _ _) tier_eq absent
  taken := by
    intro depth other object lt tier_eq present apart beside_apart
    obtain ⟨depth, rfl⟩ := Nat.exists_eq_add_of_lt lt
    rw [List.take_succ_cons, Plant.at?, found, Option.bind_some] at present
    have existing_apart : countIn (seed other.list).id existing.cells = 0 :=
      Nat.eq_zero_of_le_zero (apart ▸ Plant.countIn_entryAt?_le found (seed other.list).id)
    refine Plant.countIn_putEntry_eq_zero apart ?_ tier.target key
    exact extended.taken (kept + 1 + depth) other object (by omega) tier_eq present existing_apart
      beside_apart
  elements := by
    intro found_leaf is_leaf path path_length
    obtain ⟨first, path, rfl⟩ := List.exists_cons_of_length_eq_add_one path_length
    rw [Plant.elementsAt_cons, Plant.entryAt?_putEntry shaped.1, Plant.elementsAt_cons]
    by_cases is_key : first = key
    · subst is_key
      rw [if_pos rfl, found, Option.map_some, Option.getD_some, Option.map_some, Option.getD_some,
        extended.elements found_leaf is_leaf path (Nat.succ.inj path_length)]
      simp
    · rw [if_neg is_key, if_neg fun same => is_key (List.cons.inj same).1, List.append_nil]
  spares := by
    intro name new spares path object path_length object_eq
    obtain ⟨first, path, rfl⟩ := List.exists_cons_of_length_eq_add_one path_length
    rw [Plant.at?, Plant.entryAt?_putEntry shaped.1] at object_eq
    by_cases is_key : first = key
    · subst is_key
      rw [if_pos rfl, Option.bind_some] at object_eq
      have existing_spares : existing.Spares name tiers := fun path old path_length old_eq =>
        spares (first :: path) old (congrArg Nat.succ path_length)
          (by rw [Plant.at?, found]; exact old_eq)
      refine extended.spares name (fun last is_last => ?_) existing_spares path object
        (Nat.succ.inj path_length) object_eq
      cases tiers with
      | nil => cases is_last
      | cons second more => exact new last is_last
    · rw [if_neg is_key] at object_eq
      exact spares (first :: path) object path_length object_eq

/-- The lists of what is folded into the last object that a row goes on filling. -/
def inlinesAfter : List TargetList → List Tier → Nat → List TargetList
  | _, tier :: rest, kept + 1 => inlinesAfter tier.inlines rest kept
  | inlines, _, _ => inlines

@[simp] theorem inlinesAfter_zero (inlines : List TargetList) (tiers : List Tier) :
    inlinesAfter inlines tiers 0 = inlines := by
  cases tiers with
  | nil => rfl
  | cons tier rest => rfl

theorem extended_extend {kept : Nat} {stem : Plant} (fits : FitsBelow leaf parent inlines tiers)
    (no_limbs : ∀ list, (seed list).limbs = []) (length_eq : keys.length = tiers.length)
    (kept_le : kept ≤ tiers.length) (shaped : plant.Shaped leaf tiers) (tidy : plant.Tidy)
    (stem_eq : plant.at? tiers (keys.take kept) = some stem)
    (ripe : Ripe showNull seed leaf stem (tiers.drop kept) (keys.drop kept)) :
    Extended showNull seed leaf (inlinesAfter inlines tiers kept) kept tiers keys plant
      (extend showNull seed leaf kept inlines tiers keys plant) := by
  induction kept generalizing plant parent inlines tiers keys with
  | zero =>
      obtain rfl := Plant.eq_of_at?_nil stem_eq
      rw [inlinesAfter_zero]
      exact extended_graft fits no_limbs length_eq shaped tidy ripe
  | succ kept induction =>
      obtain ⟨tier, rest, key, keys, existing, rfl, rfl, existing_eq, existing_at⟩ :=
        Plant.exists_entry_of_at? length_eq kept_le stem_eq
      have extended := induction fits.2.2 (Nat.succ.inj length_eq) (Nat.le_of_succ_le_succ kept_le)
        (shaped.2 key existing existing_eq) (tidy.entryAt? existing_eq) existing_at ripe
      rw [extend, existing_eq]
      exact extended.putEntry shaped existing_eq

end Extend

end StationGateway.Tree
