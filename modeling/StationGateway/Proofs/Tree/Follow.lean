import StationGateway.Proofs.Tree.Extend
import StationGateway.Proofs.Tree.Steady

/-!
# Attaching a row

The new objects of a row are attached below the last of the objects that it goes on filling. What
stands at the root is extended by them if that object stands below it, and left alone otherwise. -/

namespace StationGateway.Tree

open StationGateway.Order

/-! ## The rest of a layout -/

section Rest

variable {leaf : Option Leaf} {parent : Option String} {inlines : List TargetList} {tiers : List Tier}
  {kept : Nat}

/-- The list of the last object that a row goes on filling. -/
def parentAfter : Option String → List Tier → Nat → Option String
  | _, tier :: rest, kept + 1 => parentAfter (some tier.list.name) rest kept
  | parent, _, _ => parent

@[simp] theorem parentAfter_zero (parent : Option String) (tiers : List Tier) :
    parentAfter parent tiers 0 = parent := by
  cases tiers with
  | nil => rfl
  | cons tier rest => rfl

theorem parentAfter_succ {tier : Tier} (tier_eq : tiers[kept]? = some tier) :
    parentAfter parent tiers (kept + 1) = some tier.list.name := by
  induction kept generalizing tiers parent with
  | zero =>
      cases tiers with
      | nil => cases tier_eq
      | cons first rest =>
          obtain rfl := Option.some.inj tier_eq
          rw [parentAfter, parentAfter_zero]
  | succ kept induction =>
      cases tiers with
      | nil => cases tier_eq
      | cons first rest => exact induction tier_eq

theorem drop_levelsBelow (kept_le : kept ≤ tiers.length) :
    (levelsBelow leaf inlines tiers).drop kept =
      levelsBelow leaf (inlinesAfter inlines tiers kept) (tiers.drop kept) := by
  induction kept generalizing inlines tiers with
  | zero => rw [inlinesAfter_zero, List.drop_zero, List.drop_zero]
  | succ kept induction =>
      cases tiers with
      | nil => cases kept_le
      | cons tier rest => exact induction (Nat.le_of_succ_le_succ kept_le)

theorem FitsBelow.drop (fits : FitsBelow leaf parent inlines tiers) (kept_le : kept ≤ tiers.length) :
    FitsBelow leaf (parentAfter parent tiers kept) (inlinesAfter inlines tiers kept)
      (tiers.drop kept) := by
  induction kept generalizing inlines tiers parent with
  | zero =>
      rw [parentAfter_zero, inlinesAfter_zero]
      exact fits
  | succ kept induction =>
      cases tiers with
      | nil => cases kept_le
      | cons tier rest => exact induction fits.2.2 (Nat.le_of_succ_le_succ kept_le)

/-- The lists of maps before and after a level. -/
theorem list_mem_levelsBelow {depth : Nat} {tier : Tier} (tier_eq : tiers[depth]? = some tier) :
    (depth < kept → tier.list ∈ ((levelsBelow leaf inlines tiers).take kept).flatten) ∧
      (kept ≤ depth → tier.list ∈ ((levelsBelow leaf inlines tiers).drop kept).flatten) := by
  induction tiers generalizing inlines depth kept with
  | nil => cases tier_eq
  | cons first rest induction =>
      rw [levelsBelow]
      cases depth with
      | zero =>
          obtain rfl := Option.some.inj tier_eq
          refine ⟨fun lt => ?_, fun le => ?_⟩
          · obtain ⟨more, rfl⟩ := Nat.exists_eq_add_of_lt lt
            simp
          · rw [Nat.le_zero.mp le]
            simp
      | succ depth =>
          cases kept with
          | zero =>
              have in_rest : 0 ≤ depth → tier.list ∈ ((levelsBelow leaf first.inlines rest).drop 0).flatten :=
                (induction tier_eq).2
              refine ⟨fun lt => absurd lt (Nat.not_lt_zero _), fun _ => ?_⟩
              exact List.mem_append_right _ (in_rest (Nat.zero_le _))
          | succ kept =>
              have in_rest : (depth < kept →
                    tier.list ∈ ((levelsBelow leaf first.inlines rest).take kept).flatten) ∧
                  (kept ≤ depth →
                    tier.list ∈ ((levelsBelow leaf first.inlines rest).drop kept).flatten) :=
                induction tier_eq
              rw [List.take_succ_cons, List.drop_succ_cons, List.flatten_cons, List.mem_append]
              exact ⟨fun lt => .inr (in_rest.1 (Nat.lt_of_succ_lt_succ lt)),
                fun le => in_rest.2 (Nat.le_of_succ_le_succ le)⟩

/-- Every list attaches to the parent or to another list. -/
theorem parentList_of_fits (fits : FitsBelow leaf parent inlines tiers) {list : TargetList}
    (member : list ∈ (levelsBelow leaf inlines tiers).flatten) :
    list.lookUp.parentList = parent ∨
      ∃ other ∈ (levelsBelow leaf inlines tiers).flatten, list.lookUp.parentList = some other.name := by
  induction tiers generalizing parent inlines with
  | nil =>
      rcases mem_levelsBelow_nil.mp member with in_inlines | ⟨found, is_leaf, rest⟩
      · exact .inl (fits.1.1 list in_inlines).2.1
      · obtain ⟨-, leaf_parent, -, -, all_merge, all_inline, -⟩ := fits.2 found is_leaf
        have leaf_in : found.list ∈ (levelsBelow leaf inlines []).flatten :=
          mem_levelsBelow_nil.mpr (.inr ⟨found, is_leaf, .inl rfl⟩)
        rcases rest with rfl | in_merges | in_inlines
        · exact .inl leaf_parent
        · exact .inr ⟨found.list, leaf_in, (all_merge list in_merges).2.1⟩
        · exact .inr ⟨found.list, leaf_in, (all_inline list in_inlines).2.1⟩
  | cons tier rest induction =>
      have tier_in : tier.list ∈ (levelsBelow leaf inlines (tier :: rest)).flatten :=
        mem_levelsBelow_cons.mpr (.inr (.inl rfl))
      rcases mem_levelsBelow_cons.mp member with in_inlines | rfl | in_rest
      · exact .inl (fits.1.1 list in_inlines).2.1
      · exact .inl fits.2.1.2.1
      · rcases induction fits.2.2 in_rest with at_tier | ⟨other, other_in, parent_eq⟩
        · exact .inr ⟨tier.list, tier_in, at_tier⟩
        · exact .inr ⟨other, mem_levelsBelow_cons.mpr (.inr (.inr other_in)), parent_eq⟩

/-- The maps among the lists are keyed by the columns of the layout. -/
theorem column_mem_of_fits (fits : FitsBelow leaf parent inlines tiers) {list : TargetList}
    (member : list ∈ (levelsBelow leaf inlines tiers).flatten)
    (is_map : list.lookUp.attachment = .map) {column : String} (keyed : list.lookUp.key = some column) :
    column ∈ tiers.map Tier.column := by
  have not_inline : ∀ {parent}, ¬IsInline parent list := by
    intro parent inline
    have kind := inline.1
    rw [is_map] at kind
    cases kind
  induction tiers generalizing parent inlines with
  | nil =>
      rcases mem_levelsBelow_nil.mp member with in_inlines | ⟨found, is_leaf, rest⟩
      · exact absurd (fits.1.1 list in_inlines) not_inline
      · obtain ⟨leaf_kind, -, -, -, all_merge, all_inline, -⟩ := fits.2 found is_leaf
        rcases rest with rfl | in_merges | in_inlines
        · rw [is_map] at leaf_kind
          cases leaf_kind
        · have merge_kind := (all_merge list in_merges).1
          rw [is_map] at merge_kind
          cases merge_kind
        · exact absurd (all_inline list in_inlines) not_inline
  | cons tier rest induction =>
      rcases mem_levelsBelow_cons.mp member with in_inlines | rfl | in_rest
      · exact absurd (fits.1.1 list in_inlines) not_inline
      · have column_eq := fits.2.1.2.2.1.symm.trans keyed
        exact List.mem_cons.mpr (.inl (Option.some.inj column_eq).symm)
      · exact List.mem_cons_of_mem _ (induction fits.2.2 in_rest)

end Rest

/-! ## Attaching below an object -/

namespace Growth

variable {plan : Plan} {row : Row} {growth : Growth} {seed : TargetList → Plant} {plant : Plant}
  {parent : Option String} {leaf : Option Leaf} {inlines : List TargetList} {tiers : List Tier}
  {keys : List String}

variable (plan) in
/-- The new entry of a row can be taken up where an entry is. -/
theorem Ready.ripe (fits : FitsBelow leaf parent inlines tiers)
    (no_limbs : ∀ list, (seed list).limbs = [])
    (keys_eq : keysOf row (tiers.map Tier.column) = .ok keys)
    (ready : growth.Ready seed parent (levelsBelow leaf inlines tiers).flatten plant) :
    Ripe plan.showNull seed leaf plant tiers keys := by
  cases tiers with
  | nil => trivial
  | cons tier rest =>
      obtain ⟨key, keys, rfl, -, rest_keys⟩ := exists_of_keysOf_cons keys_eq
      intro existing found
      obtain ⟨later, -, regrown, -⟩ := attach_below fits.2.2 no_limbs rest_keys ready.entry
      refine ⟨regrown.has.tidy regrown.tidy, fun id => ?_⟩
      have existing_le := Plant.countIn_entryAt?_le found id
      have branch_le := regrown.count id
      have apart := ready.apart id
      rw [flatten_levelsBelow_cons, seedCells_append, countIn_append, seedCells_cons,
        countIn_append] at apart
      rw [branchOf]
      omega

end Growth

namespace Plant

variable {plant : Plant} {tiers : List Tier}

theorem at?_append (path more : List String) :
    plant.at? tiers (path ++ more) =
      (plant.at? tiers path).bind (Plant.at? (tiers.drop path.length) more) := by
  induction path generalizing plant tiers with
  | nil => rw [List.nil_append, at?_nil, Option.bind_some, List.length_nil, List.drop_zero]
  | cons key path induction =>
      cases tiers with
      | nil => rfl
      | cons tier rest =>
          rw [List.cons_append, at?, at?, List.length_cons, List.drop_succ_cons, Option.bind_assoc]
          congr 1
          funext entry
          exact induction

/-- One step further on a path. -/
theorem at?_take_succ {depth : Nat} {tier : Tier} {keys : List String} {stem : Plant}
    (tier_eq : tiers[depth]? = some tier) (lt : depth < keys.length)
    (stem_eq : plant.at? tiers (keys.take depth) = some stem) :
    plant.at? tiers (keys.take (depth + 1)) = stem.entryAt? tier.target keys[depth] := by
  have lt_tiers : depth < tiers.length := (List.getElem?_eq_some_iff.mp tier_eq).1
  have tiers_eq : tiers.drop depth = tier :: tiers.drop (depth + 1) := by
    rw [List.drop_eq_getElem_cons lt_tiers, (List.getElem?_eq_some_iff.mp tier_eq).2]
  rw [List.take_succ_eq_append_getElem lt, at?_append, stem_eq, Option.bind_some,
    List.length_take_of_le (Nat.le_of_lt lt), tiers_eq, at?]
  cases stem.entryAt? tier.target keys[depth] with
  | none => rfl
  | some entry => exact at?_nil _ entry

theorem countIn_at?_le {path : List String} {found : Plant} (found_eq : plant.at? tiers path = some found)
    (id : NodeId) : countIn id found.cells ≤ countIn id plant.cells := by
  induction path generalizing plant tiers with
  | nil =>
      obtain rfl := eq_of_at?_nil found_eq
      exact Nat.le_refl _
  | cons key path induction =>
      cases tiers with
      | nil => cases found_eq
      | cons tier rest =>
          obtain ⟨entry, entry_eq, entry_at⟩ := Option.bind_eq_some_iff.mp found_eq
          exact Nat.le_trans (induction entry_at) (countIn_entryAt?_le entry_eq id)

end Plant

theorem Forest.Has.at? {forest : Forest} {plant : Plant} (has : forest.Has plant.cells)
    {tiers : List Tier} {path : List String} {found : Plant}
    (found_eq : plant.at? tiers path = some found) : forest.Has found.cells := by
  induction path generalizing plant tiers with
  | nil =>
      obtain rfl := Plant.eq_of_at?_nil found_eq
      exact has
  | cons key path induction =>
      cases tiers with
      | nil => cases found_eq
      | cons tier rest =>
          obtain ⟨entry, entry_eq, entry_at⟩ := Option.bind_eq_some_iff.mp found_eq
          exact induction (has.entryAt? entry_eq) entry_at

/-- A plant regrows with the object at the end of a path. -/
theorem Regrown.extend {forest later : Forest} {showNull : Bool} {seed : TargetList → Plant}
    {leaf : Option Leaf} {inlines : List TargetList} {tiers : List Tier} {keys : List String} {kept : Nat}
    {plant stem : Plant} {extra : List (NodeId × Node)}
    (regrown : Regrown forest later stem (graft showNull seed leaf (inlinesAfter inlines tiers kept)
      (tiers.drop kept) (keys.drop kept) stem) extra)
    (tidy : ∀ id, (forest.get id).Tidy) (has : forest.Has plant.cells)
    (apart : ∀ id, countIn id plant.cells + countIn id extra ≤ 1)
    (kept_le : kept ≤ tiers.length) (length_eq : keys.length = tiers.length)
    (stem_eq : plant.at? tiers (keys.take kept) = some stem) :
    Regrown forest later plant (extend showNull seed leaf kept inlines tiers keys plant) extra := by
  induction kept generalizing plant inlines tiers keys with
  | zero =>
      obtain rfl := Plant.eq_of_at?_nil stem_eq
      rw [inlinesAfter_zero] at regrown
      exact regrown
  | succ kept induction =>
      obtain ⟨tier, rest, key, keys, existing, rfl, rfl, existing_eq, existing_at⟩ :=
        Plant.exists_entry_of_at? length_eq kept_le stem_eq
      have existing_regrown := induction regrown (has.entryAt? existing_eq)
        (fun id => by
          have existing_le := Plant.countIn_entryAt?_le existing_eq id
          have apart := apart id
          omega)
        (Nat.le_of_succ_le_succ kept_le) (Nat.succ.inj length_eq) existing_at
      rw [Tree.extend, existing_eq]
      exact existing_regrown.putEntry tidy has apart existing_eq

end StationGateway.Tree
