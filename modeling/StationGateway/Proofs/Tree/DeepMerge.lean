import StationGateway.Proofs.Tree.Absorb

/-!
# Deep merges

What the deep merge of two trees is, said name by name: the first tree's own fields and what it has
under a name stay, what only the second one has is added, and what both have is merged if it is of the
same kind. Absorbing one tree of a forest into another one leaves their deep merge. -/

namespace StationGateway

namespace Order

variable {α : Type}

/-- What two maps have together under a key: what one of them has alone, and what both have as
`combined` says. -/
inductive Joined (combined : α → α → α → Prop) : Option α → Option α → Option α → Prop where
  /-- Neither map has the key. -/
  | neither : Joined combined none none none
  /-- Only the first map has the key. -/
  | own (value : α) : Joined combined (some value) none (some value)
  /-- Only the second map has the key. -/
  | other (value : α) : Joined combined none (some value) (some value)
  /-- Both maps have the key. -/
  | both {own other together : α} (are_combined : combined own other together) :
      Joined combined (some own) (some other) (some together)

theorem joined_merge {combined : α → α → α → Prop} {combine : α → α → α} {own other : Option α}
    (both : ∀ old new, own = some old → other = some new → combined old new (combine old new)) :
    Joined combined own other (own.merge combine other) := by
  cases own with
  | none =>
      cases other with
      | none => exact .neither
      | some new => exact .other new
  | some old =>
      cases other with
      | none => exact .own old
      | some new => exact .both (both old new rfl rfl)

end Order

namespace Tree

open StationGateway.Order

/-! ## The deep merge of two trees -/

/-- Whether two names lead to the same kind of thing. -/
def Limb.SameKind : Limb → Limb → Prop
  | .object _, .object _ => True
  | .map _, .map _ => True
  | .list _, .list _ => True
  | _, _ => False

mutual

/-- Whether an object is the deep merge of two objects. -/
inductive Plant.DeepMerge : Plant → Plant → Plant → Prop where
  /-- The first object takes up the second one: its own fields win, and what stands under each name is
  merged. -/
  | object {own other merged : Plant} (same_id : merged.id = own.id)
      (fields : ∀ name, find? name merged.fields = (find? name own.fields).or (find? name other.fields))
      (limbs : ∀ name, Joined Limb.DeepMerge (find? name own.limbs) (find? name other.limbs)
        (find? name merged.limbs)) :
      Plant.DeepMerge own other merged

/-- Whether what stands under a name is the deep merge of what two objects have there. -/
inductive Limb.DeepMerge : Limb → Limb → Limb → Prop where
  /-- Objects are merged. -/
  | object {own other merged : Plant} (merge : Plant.DeepMerge own other merged) :
      Limb.DeepMerge (.object own) (.object other) (.object merged)
  /-- Maps are merged key by key. -/
  | map {own other merged : List (String × Plant)}
      (keys : ∀ key, Joined Plant.DeepMerge (find? key own) (find? key other) (find? key merged)) :
      Limb.DeepMerge (.map own) (.map other) (.map merged)
  /-- Lists are joined. -/
  | list (own other : List Plant) : Limb.DeepMerge (.list own) (.list other) (.list (own ++ other))
  /-- Things of different kinds are not merged: the first one stays. -/
  | mismatch {own other : Limb} (kinds : ¬own.SameKind other) : Limb.DeepMerge own other own

end

theorem Limb.deepMerge_merge {own other : Limb} (other_tidy : other.Tidy)
    (parts : ∀ part ∈ other.parts, ∀ own : Plant, own.DeepMerge part (own.merge part)) :
    own.DeepMerge other (own.merge other) := by
  cases other with
  | object other =>
      cases own with
      | object plant => exact .object (parts other (List.mem_singleton_self other) plant)
      | map entries => exact .mismatch not_false
      | list items => exact .mismatch not_false
  | map others =>
      cases own with
      | object plant => exact .mismatch not_false
      | map entries =>
          rw [merge]
          refine .map fun key => ?_
          rw [mergeEntries_eq_unionWith, find?_unionWith (other_tidy others rfl)]
          exact joined_merge fun old new _ found =>
            parts new (List.mem_map_of_mem (f := Prod.snd) (mem_of_find? found)) old
      | list items => exact .mismatch not_false
  | list others =>
      cases own with
      | object plant => exact .mismatch not_false
      | map entries => exact .mismatch not_false
      | list items => exact .list items others

/-- A plant merged with another one is their deep merge. -/
theorem Plant.deepMerge_merge (own : Plant) {other : Plant} (other_tidy : other.Tidy) :
    own.DeepMerge other (own.merge other) := by
  induction other using parts_induction generalizing own with
  | step other induction =>
      refine .object (own.id_merge other) (fun name => ?_) fun name => ?_
      · rw [fields_merge, find?_unionFields]
      · rw [limbs_merge, find?_unionWith (ascending_limbs other_tidy.root)]
        refine joined_merge fun old new _ found => ?_
        refine Limb.deepMerge_merge (tidy_limb other_tidy.root found) fun part in_limb own => ?_
        have in_other : part ∈ other.parts :=
          List.mem_flatMap.mpr ⟨_, mem_of_find? found, in_limb⟩
        exact induction part in_other own
          fun cell in_part => other_tidy cell (mem_cells_of_part in_other in_part)

/-! ## Absorbing -/

namespace Forest

variable {forest : Forest}

theorem Unshared.absorb (unshared : forest.Unshared) (source target : NodeId) :
    (forest.absorb source target).Unshared := by
  obtain ⟨tidy, count_le⟩ := Forest.absorb_tidy unshared.tidy source target
  refine ⟨tidy, fun id => Nat.le_trans (count_le id) (unshared.single id), fun id member => ?_⟩
  have positive := Nat.lt_of_lt_of_le (List.count_pos_iff.mpr member) (count_le id)
  rw [next_absorb]
  exact unshared.within id (List.count_pos_iff.mp positive)

/-- In a forest without shared objects, absorbing one tree into another one that has no object in
common with it comes to an end. It leaves the absorbed object empty and everything outside of the two
trees as it is, shares no object and gets none below itself, and what stands at the target then is the
deep merge of the two trees. -/
theorem absorb_is_deepMerge (unshared : forest.Unshared) {source target : NodeId}
    (source_lt : source < forest.next) (target_lt : target < forest.next)
    (source_free : ¬forest.Above source source) (target_free : ¬forest.Above target target)
    (apart : ∀ id, forest.Reaches target id → ¬forest.Reaches source id) :
    Absorbs forest source target (forest.absorb source target) ∧
      (forest.absorb source target).get source = .empty ∧
      (∀ id, ¬forest.Reaches source id → ¬forest.Reaches target id →
        (forest.absorb source target).get id = forest.get id) ∧
      (forest.absorb source target).Unshared ∧
      (∀ id, (forest.absorb source target).Above id id → forest.Above id id) ∧
      ∃ own other merged : Plant, own.id = target ∧ other.id = source ∧ forest.Grows own ∧
        forest.Grows other ∧ (forest.absorb source target).Grows merged ∧
          own.DeepMerge other merged := by
  obtain ⟨own, rfl, own_grows⟩ := unshared.exists_plant target_lt target_free
  obtain ⟨other, rfl, other_grows⟩ := unshared.exists_plant source_lt source_free
  have single := own_grows.apart other_grows apart
  have absorbed := absorbed_absorb unshared.tidy own_grows.has other_grows.has single
  have own_tidy := own_grows.has.tidy unshared.tidy
  have other_tidy := other_grows.has.tidy unshared.tidy
  refine ⟨absorbed.run, absorbed.emptied, fun id not_source not_target => absorbed.same id ?_,
    unshared.absorb other.id own.id, absorbed.no_cycle, own, other, own.merge other, rfl, rfl, own_grows,
    other_grows, ⟨absorbed.has, fun id => ?_⟩, own.deepMerge_merge other_tidy⟩
  · have not_own := own_grows.has.reached_iff.not.mpr not_target
    have not_other := other_grows.has.reached_iff.not.mpr not_source
    omega
  · exact Nat.le_trans (Plant.countIn_merge_le id own_tidy other_tidy single) (single id)

/-- Two stations with parts by name. They have a part of one name, and the second one has another part
and a name of its own. -/
def twoStations : Forest :=
  ⟨#[⟨[("code", .string "A")], [("parts", .map [("x", 2)])]⟩,
    ⟨[("code", .string "B"), ("name", .string "b")], [("parts", .map [("x", 3), ("y", 4)])]⟩,
    ⟨[("unit", .null)], []⟩, ⟨[("period", .null)], []⟩, ⟨[], []⟩]⟩

theorem unshared_twoStations : twoStations.Unshared where
  tidy := by
    intro id
    match id with
    | 0 =>
        refine ⟨by decide, by decide, fun name entries member => ?_⟩
        obtain ⟨-, rfl⟩ : name = "parts" ∧ entries = [("x", 2)] := by
          simpa [twoStations, get] using member
        decide
    | 1 =>
        refine ⟨by decide, by decide, fun name entries member => ?_⟩
        obtain ⟨-, rfl⟩ : name = "parts" ∧ entries = [("x", 3), ("y", 4)] := by
          simpa [twoStations, get] using member
        decide
    | 2 => exact ⟨by decide, by decide, by simp [twoStations, get]⟩
    | 3 => exact ⟨by decide, by decide, by simp [twoStations, get]⟩
    | 4 => exact ⟨by decide, by decide, by simp [twoStations, get]⟩
    | id + 5 =>
        rw [get_of_next_le (Nat.le_add_left 5 id)]
        exact Node.tidy_empty
  single := List.nodup_iff_count_le_one.mp (by decide)
  within := by decide

/-- The first station keeps its code and its part, and takes up the name and the other part. -/
theorem absorb_is_deepMerge_twoStations :
    twoStations.Unshared ∧ 1 < twoStations.next ∧ 0 < twoStations.next ∧
      ¬twoStations.Above 1 1 ∧ ¬twoStations.Above 0 0 ∧
      (∀ id, twoStations.Reaches 0 id → ¬twoStations.Reaches 1 id) ∧
      Absorbs twoStations 1 0 (twoStations.absorb 1 0) ∧
      (twoStations.absorb 1 0).get 0 =
        ⟨[("code", .string "A"), ("name", .string "b")], [("parts", .map [("x", 2), ("y", 4)])]⟩ ∧
      (twoStations.absorb 1 0).get 1 = .empty ∧
      ∃ own other merged : Plant, own.id = 0 ∧ other.id = 1 ∧ twoStations.Grows own ∧
        twoStations.Grows other ∧ (twoStations.absorb 1 0).Grows merged ∧
          own.DeepMerge other merged := by
  have source_lt : 1 < twoStations.next := by decide
  have target_lt : 0 < twoStations.next := by decide
  have source_free : ¬twoStations.Above 1 1 := not_above_self (by decide)
  have target_free : ¬twoStations.Above 0 0 := not_above_self (by decide)
  have from_source : ∀ id, twoStations.Reaches 1 id → id = 1 ∨ id = 3 ∨ id = 4 := by
    intro id reaches
    refine reaches.keeps (fun id => id = 1 ∨ id = 3 ∨ id = 4) ?_ (.inl rfl)
    rintro above below (rfl | rfl | rfl) edge
    · exact .inr (by simpa using show below ∈ [3, 4] from edge)
    · cases edge
    · cases edge
  have from_target : ∀ id, twoStations.Reaches 0 id → id = 0 ∨ id = 2 := by
    intro id reaches
    refine reaches.keeps (fun id => id = 0 ∨ id = 2) ?_ (.inl rfl)
    rintro above below (rfl | rfl) edge
    · exact .inr (List.mem_singleton.mp edge)
    · cases edge
  have apart : ∀ id, twoStations.Reaches 0 id → ¬twoStations.Reaches 1 id := by
    intro id reaches again
    rcases from_target id reaches with rfl | rfl
    · exact absurd (from_source 0 again) (by decide)
    · exact absurd (from_source 2 again) (by decide)
  obtain ⟨run, emptied, -, -, -, merge⟩ := absorb_is_deepMerge unshared_twoStations source_lt target_lt
    source_free target_free apart
  have united : (twoStations.absorb 1 0).get 0 =
      ⟨[("code", .string "A"), ("name", .string "b")], [("parts", .map [("x", 2), ("y", 4)])]⟩ := by
    cbv
  exact ⟨unshared_twoStations, source_lt, target_lt, source_free, target_free, apart, run, united,
    emptied, merge⟩

end Forest

end Tree

end StationGateway
