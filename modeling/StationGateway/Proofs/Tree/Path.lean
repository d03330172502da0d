import StationGateway.Proofs.Tree.Graft

/-!
# Paths of keys

The keys of a row are a path through the maps of a layout. In a plant of the shape of the layout,
setting an entry changes what is found on paths through that entry only, and a merge of two plants
has on every path what either of them has there. -/

namespace StationGateway.Tree

open StationGateway.Order

/-! ## Entries -/

namespace Plant

variable {plant own other : Plant} {target : Option String}

/-- Whether nothing but entries stands where entries would. -/
def Holds (plant : Plant) : Option String → Prop
  | none => ∀ name limb, find? name plant.limbs = some limb → ∃ entry, limb = .object entry
  | some target =>
      ∀ limb, find? target plant.limbs = some limb → ∃ entries, limb = .map entries

theorem holds_of_no_limbs (no_limbs : plant.limbs = []) (target : Option String) :
    plant.Holds target := by
  cases target with
  | none =>
      intro name limb found
      rw [no_limbs] at found
      cases found
  | some target =>
      intro limb found
      rw [no_limbs] at found
      cases found

theorem entryAt?_of_no_limbs (no_limbs : plant.limbs = []) (target : Option String) (key : String) :
    plant.entryAt? target key = none := by
  cases target with
  | none => rw [entryAt?, no_limbs, find?]
  | some target => rw [entryAt?, no_limbs, find?]

@[simp] theorem limbs_setLimb (name : String) (limb : Limb) (plant : Plant) :
    (plant.setLimb name limb).limbs = put name limb plant.limbs :=
  rfl

/-- Setting an entry of a map sets it among those that are there. -/
theorem exists_entries {name : String} (holds : plant.Holds (some name)) :
    ∃ entries, (∀ key entry, plant.putEntry (some name) key entry =
        plant.setLimb name (.map (put key entry entries))) ∧
      ∀ key, plant.entryAt? (some name) key = find? key entries := by
  cases found : find? name plant.limbs with
  | none =>
      refine ⟨[], fun key entry => ?_, fun key => ?_⟩
      · simp only [putEntry, found, put]
      · simp only [entryAt?, found, find?]
  | some limb =>
      obtain ⟨entries, rfl⟩ := holds limb found
      refine ⟨entries, fun key entry => ?_, fun key => ?_⟩
      · simp only [putEntry, found]
      · simp only [entryAt?, found]

theorem entryAt?_putEntry (holds : plant.Holds target) (key other : String) (entry : Plant) :
    (plant.putEntry target key entry).entryAt? target other =
      if other = key then some entry else plant.entryAt? target other := by
  cases target with
  | none =>
      rw [putEntry, entryAt?, limbs_setLimb, find?_put, entryAt?]
      by_cases is_key : other = key
      · rw [if_pos is_key, if_pos is_key]
      · rw [if_neg is_key, if_neg is_key]
  | some name =>
      obtain ⟨entries, putEntry_eq, entryAt?_eq⟩ := exists_entries holds
      rw [putEntry_eq, entryAt?_eq, entryAt?, limbs_setLimb, find?_put, if_pos rfl]
      exact find?_put other key entry entries

theorem holds_putEntry (holds : plant.Holds target) (key : String) (entry : Plant) :
    (plant.putEntry target key entry).Holds target := by
  cases target with
  | none =>
      intro name limb found
      rw [putEntry, limbs_setLimb, find?_put] at found
      by_cases is_key : name = key
      · rw [if_pos is_key] at found
        exact ⟨entry, (Option.some.inj found).symm⟩
      · rw [if_neg is_key] at found
        exact holds name limb found
  | some name =>
      obtain ⟨entries, putEntry_eq, -⟩ := exists_entries holds
      intro limb found
      rw [putEntry_eq, limbs_setLimb, find?_put, if_pos rfl] at found
      exact ⟨_, (Option.some.inj found).symm⟩

@[simp] theorem id_putEntry (plant : Plant) (target : Option String) (key : String) (entry : Plant) :
    (plant.putEntry target key entry).id = plant.id := by
  cases target with
  | none => rfl
  | some target =>
      rw [putEntry]
      split
      · rfl
      · rfl
      · rfl

@[simp] theorem fields_putEntry (plant : Plant) (target : Option String) (key : String)
    (entry : Plant) : (plant.putEntry target key entry).fields = plant.fields := by
  cases target with
  | none => rfl
  | some target =>
      rw [putEntry]
      split
      · rfl
      · rfl
      · rfl

theorem find?_limbs_merge (other_ascending : Ascending other.limbs) (name : String) :
    find? name (own.merge other).limbs =
      (find? name own.limbs).merge Limb.merge (find? name other.limbs) := by
  rw [limbs_merge]
  exact find?_unionWith other_ascending own.limbs name

theorem entryAt?_merge (own_holds : own.Holds target) (other_tidy : other.root.Tidy) (key : String) :
    (own.merge other).entryAt? target key =
      (own.entryAt? target key).merge Plant.merge (other.entryAt? target key) := by
  have other_ascending := ascending_limbs other_tidy
  cases target with
  | none =>
      rw [entryAt?, find?_limbs_merge other_ascending, entryAt?, entryAt?]
      cases found : find? key own.limbs with
      | none => rw [Option.merge_none_left, Option.merge_none_left]
      | some limb =>
          obtain ⟨entry, rfl⟩ := own_holds key limb found
          cases find? key other.limbs with
          | none => rfl
          | some more =>
              cases more with
              | object more => rfl
              | map entries => rfl
              | list items => rfl
  | some target =>
      rw [entryAt?, find?_limbs_merge other_ascending, entryAt?, entryAt?]
      cases found : find? target own.limbs with
      | none => rw [Option.merge_none_left, Option.merge_none_left]
      | some limb =>
          obtain ⟨entries, rfl⟩ := own_holds limb found
          cases found_other : find? target other.limbs with
          | none => exact Option.merge_none_right.symm
          | some more =>
              cases more with
              | object more => exact Option.merge_none_right.symm
              | list items => exact Option.merge_none_right.symm
              | map others =>
                  have others_ascending := ascending_entries other_tidy found_other
                  simp only [Option.merge_some_some, Limb.merge, mergeEntries_eq_unionWith]
                  exact find?_unionWith others_ascending entries key

/-- A merge has limbs of one kind under a name where both plants do. -/
theorem kind_merge {kind : Limb → Prop} (closed : ∀ limb more, kind limb → kind more →
      kind (limb.merge more)) (other_ascending : Ascending other.limbs) {name : String}
    (own_kind : ∀ limb, find? name own.limbs = some limb → kind limb)
    (other_kind : ∀ limb, find? name other.limbs = some limb → kind limb) {limb : Limb}
    (found : find? name (own.merge other).limbs = some limb) : kind limb := by
  rw [find?_limbs_merge other_ascending] at found
  cases found_own : find? name own.limbs with
  | none =>
      rw [found_own, Option.merge_none_left] at found
      exact other_kind limb found
  | some old =>
      rw [found_own] at found
      cases found_other : find? name other.limbs with
      | none =>
          rw [found_other, Option.merge_none_right] at found
          exact own_kind limb (found_own.trans found)
      | some more =>
          rw [found_other, Option.merge_some_some] at found
          exact Option.some.inj found ▸ closed old more (own_kind old found_own)
            (other_kind more found_other)

theorem holds_merge (own_holds : own.Holds target) (other_holds : other.Holds target)
    (other_ascending : Ascending other.limbs) : (own.merge other).Holds target := by
  cases target with
  | none =>
      intro name limb found
      refine kind_merge ?_ other_ascending (own_holds name) (other_holds name) found
      rintro _ _ ⟨entry, rfl⟩ ⟨branch, rfl⟩
      exact ⟨entry.merge branch, rfl⟩
  | some target =>
      intro limb found
      refine kind_merge ?_ other_ascending own_holds other_holds found
      rintro _ _ ⟨entries, rfl⟩ ⟨others, rfl⟩
      exact ⟨mergeEntries entries others, rfl⟩

theorem Tidy.entryAt? (tidy : plant.Tidy) {key : String} {entry : Plant}
    (found : plant.entryAt? target key = some entry) : entry.Tidy := by
  obtain ⟨name, limb, found_limb, within, -⟩ := exists_limb_of_entryAt? found
  intro cell member
  refine tidy cell ?_
  rw [plant.cells_eq]
  exact List.mem_cons_of_mem _ (mem_limbsCells.mpr ⟨_, mem_of_find? found_limb, within cell member⟩)

/-! ## Numbers -/

theorem countIn_setLimb_le (id : NodeId) (plant : Plant) (name : String) (limb : Limb) :
    countIn id (plant.setLimb name limb).cells ≤ countIn id plant.cells + countIn id limb.cells := by
  have put_le := total_put_le (fun limb => countIn id limb.cells) name limb plant.limbs
  rw [cells_eq (plant.setLimb name limb), plant.cells_eq, countIn_cons, countIn_cons,
    countIn_limbsCells, countIn_limbsCells, limbs_setLimb]
  change [plant.id].count id + _ ≤ [plant.id].count id + _ + _
  omega

theorem countIn_attachInline_le (id : NodeId) (showNull : Bool) (target : String)
    (plant twig : Plant) :
    countIn id (plant.attachInline showNull target twig).cells ≤
      countIn id plant.cells + countIn id twig.cells := by
  rw [attachInline]
  split
  · have erase_le := total_erase_le (fun limb => countIn id limb.cells) target plant.limbs
    rw [cells_eq (plant.dropLimb target), plant.cells_eq, countIn_cons, countIn_cons,
      countIn_limbsCells, countIn_limbsCells]
    change [plant.id].count id + total _ (erase target plant.limbs) ≤ [plant.id].count id + _ + _
    omega
  · exact countIn_setLimb_le id plant target (.object twig)

/-- Setting an entry adds no numbers but those of the entry. -/
theorem countIn_putEntry_eq_zero {id : NodeId} {entry : Plant} (apart : countIn id plant.cells = 0)
    (entry_apart : countIn id entry.cells = 0) (target : Option String) (key : String) :
    countIn id (plant.putEntry target key entry).cells = 0 := by
  cases target with
  | none =>
      have set_le := countIn_setLimb_le id plant key (.object entry)
      rw [Limb.cells] at set_le
      exact Nat.eq_zero_of_le_zero (by rw [apart, entry_apart] at set_le; exact set_le)
  | some target =>
      rw [putEntry]
      split
      next =>
        have set_le := countIn_setLimb_le id plant target (.map [(key, entry)])
        rw [Limb.cells, entriesCells, entriesCells, List.append_nil] at set_le
        omega
      next entries found =>
        have set_le := countIn_setLimb_le id plant target (.map (put key entry entries))
        have put_le := total_put_le (fun entry => countIn id entry.cells) key entry entries
        have map_le := le_total_of_mem (fun limb => countIn id limb.cells) (mem_of_find? found)
        rw [← countIn_limbsCells] at map_le
        rw [Limb.cells, countIn_entriesCells] at set_le
        change countIn id (entriesCells entries) ≤ _ at map_le
        rw [countIn_entriesCells] at map_le
        rw [plant.cells_eq, countIn_cons] at apart set_le
        omega
      next => exact apart

/-! ## Elements -/

/-- The elements of the list under a name. -/
def elements (name : String) (plant : Plant) : List Plant :=
  match find? name plant.limbs with
  | some (.list items) => items
  | _ => []

theorem elements_of_no_limbs (no_limbs : plant.limbs = []) (name : String) :
    plant.elements name = [] := by
  rw [elements, no_limbs, find?]

theorem elements_merge (other_ascending : Ascending other.limbs) {name : String}
    (own_list : ∀ limb, find? name own.limbs = some limb → ∃ items, limb = .list items) :
    (own.merge other).elements name = own.elements name ++ other.elements name := by
  rw [elements, find?_limbs_merge other_ascending, elements, elements]
  cases found : find? name own.limbs with
  | none => rw [Option.merge_none_left, List.nil_append]
  | some limb =>
      obtain ⟨items, rfl⟩ := own_list limb found
      cases find? name other.limbs with
      | none => exact (List.append_nil items).symm
      | some more =>
          cases more with
          | object more => exact (List.append_nil items).symm
          | map entries => exact (List.append_nil items).symm
          | list others => rfl

/-! ## Paths -/

/-- The object at the end of a path of keys. -/
def at? : List Tier → List String → Plant → Option Plant
  | _, [], plant => some plant
  | [], _ :: _, _ => none
  | tier :: rest, key :: keys, plant => (plant.entryAt? tier.target key).bind (at? rest keys)

/-- The elements of the list under a name at the end of a path of keys. -/
def elementsAt (tiers : List Tier) (keys : List String) (name : String) (plant : Plant) :
    List Plant :=
  ((plant.at? tiers keys).map (elements name)).getD []

/-- Whether a plant has the shape of a layout: nothing but entries where entries of maps would be,
and nothing but elements where elements of the leaf would be. -/
def Shaped (leaf : Option Leaf) : List Tier → Plant → Prop
  | [], plant => ∀ found ∈ leaf, ∀ limb, find? (targetOf found.list) plant.limbs = some limb →
      ∃ items, limb = .list items
  | tier :: rest, plant => plant.Holds tier.target ∧
      ∀ key entry, plant.entryAt? tier.target key = some entry → Shaped leaf rest entry

/-- Whether the innermost entries have no field of a name. -/
def Spares (name : String) (tiers : List Tier) (plant : Plant) : Prop :=
  ∀ path entry, path.length = tiers.length → plant.at? tiers path = some entry →
    find? name entry.fields = none

variable {leaf : Option Leaf} {tiers : List Tier}

theorem at?_nil (tiers : List Tier) (plant : Plant) : plant.at? tiers [] = some plant := by
  cases tiers with
  | nil => rfl
  | cons tier rest => rfl

theorem eq_of_at?_nil {found : Plant} (found_eq : plant.at? tiers [] = some found) : plant = found :=
  Option.some.inj ((at?_nil tiers plant).symm.trans found_eq)

/-- A path of at least one key leads through an entry. -/
theorem exists_entry_of_at? {keys : List String} {found : Plant} {kept : Nat}
    (length_eq : keys.length = tiers.length) (kept_lt : kept < tiers.length)
    (found_eq : plant.at? tiers (keys.take (kept + 1)) = some found) :
    ∃ tier rest key others existing, tiers = tier :: rest ∧ keys = key :: others ∧
      plant.entryAt? tier.target key = some existing ∧
      existing.at? rest (others.take kept) = some found := by
  obtain ⟨tier, rest, rfl⟩ : ∃ tier rest, tiers = tier :: rest :=
    List.exists_cons_of_length_pos (Nat.zero_lt_of_lt kept_lt)
  obtain ⟨key, others, rfl⟩ := List.exists_cons_of_length_eq_add_one length_eq
  rw [List.take_succ_cons] at found_eq
  obtain ⟨existing, existing_eq, existing_at⟩ := Option.bind_eq_some_iff.mp found_eq
  exact ⟨tier, rest, key, others, existing, rfl, rfl, existing_eq, existing_at⟩

theorem at?_of_no_limbs (no_limbs : plant.limbs = []) (tiers : List Tier) (key : String)
    (keys : List String) : plant.at? tiers (key :: keys) = none := by
  cases tiers with
  | nil => rfl
  | cons tier rest => rw [at?, entryAt?_of_no_limbs no_limbs, Option.bind_none]

theorem elementsAt_cons (tier : Tier) (rest : List Tier) (key : String) (keys : List String)
    (name : String) :
    plant.elementsAt (tier :: rest) (key :: keys) name =
      ((plant.entryAt? tier.target key).map (elementsAt rest keys name)).getD [] := by
  rw [elementsAt, at?]
  cases plant.entryAt? tier.target key with
  | none => rfl
  | some entry => rfl

theorem elementsAt_of_no_limbs (no_limbs : plant.limbs = []) (tiers : List Tier)
    (keys : List String) (name : String) : plant.elementsAt tiers keys name = [] := by
  cases keys with
  | nil =>
      rw [elementsAt, at?_nil]
      exact elements_of_no_limbs no_limbs name
  | cons key keys =>
      rw [elementsAt, at?_of_no_limbs no_limbs]
      rfl

theorem shaped_of_no_limbs (no_limbs : plant.limbs = []) (leaf : Option Leaf) (tiers : List Tier) :
    plant.Shaped leaf tiers := by
  cases tiers with
  | nil =>
      intro found _ limb found_limb
      rw [no_limbs] at found_limb
      cases found_limb
  | cons tier rest =>
      refine ⟨holds_of_no_limbs no_limbs _, fun key entry found => ?_⟩
      rw [entryAt?_of_no_limbs no_limbs] at found
      cases found

theorem Shaped.putEntry {tier : Tier} (shaped : plant.Shaped leaf (tier :: tiers)) {entry : Plant}
    (entry_shaped : entry.Shaped leaf tiers) (key : String) :
    (plant.putEntry tier.target key entry).Shaped leaf (tier :: tiers) := by
  refine ⟨holds_putEntry shaped.1 key entry, fun other found found_eq => ?_⟩
  rw [entryAt?_putEntry shaped.1] at found_eq
  by_cases is_key : other = key
  · rw [if_pos is_key] at found_eq
    exact Option.some.inj found_eq ▸ entry_shaped
  · rw [if_neg is_key] at found_eq
    exact shaped.2 other found found_eq

theorem Shaped.merge (own_shaped : own.Shaped leaf tiers) (other_shaped : other.Shaped leaf tiers)
    (other_tidy : other.Tidy) : (own.merge other).Shaped leaf tiers := by
  induction tiers generalizing own other with
  | nil =>
      intro found is_leaf limb found_limb
      refine kind_merge ?_ (ascending_limbs other_tidy.root) (own_shaped found is_leaf)
        (other_shaped found is_leaf) found_limb
      rintro _ _ ⟨items, rfl⟩ ⟨others, rfl⟩
      exact ⟨items ++ others, rfl⟩
  | cons tier rest induction =>
      refine ⟨holds_merge own_shaped.1 other_shaped.1 (ascending_limbs other_tidy.root),
        fun key entry found => ?_⟩
      rw [entryAt?_merge own_shaped.1 other_tidy.root] at found
      cases found_own : own.entryAt? tier.target key with
      | none =>
          rw [found_own, Option.merge_none_left] at found
          exact other_shaped.2 key entry found
      | some old =>
          have old_shaped := own_shaped.2 key old found_own
          cases found_other : other.entryAt? tier.target key with
          | none =>
              rw [found_own, found_other, Option.merge_none_right] at found
              exact Option.some.inj found ▸ old_shaped
          | some more =>
              rw [found_own, found_other, Option.merge_some_some] at found
              exact Option.some.inj found ▸ induction old_shaped (other_shaped.2 key more found_other)
                (other_tidy.entryAt? found_other)

/-- A merge has on every path what either plant has there. -/
theorem at?_merge (own_shaped : own.Shaped leaf tiers) (other_tidy : other.Tidy)
    (keys : List String) :
    (own.merge other).at? tiers keys = (own.at? tiers keys).merge Plant.merge (other.at? tiers keys) := by
  induction tiers generalizing own other keys with
  | nil =>
      cases keys with
      | nil => rfl
      | cons key keys => rfl
  | cons tier rest induction =>
      cases keys with
      | nil => rfl
      | cons key keys =>
          rw [at?, entryAt?_merge own_shaped.1 other_tidy.root, at?, at?]
          cases found_own : own.entryAt? tier.target key with
          | none => rw [Option.merge_none_left, Option.bind_none, Option.merge_none_left]
          | some old =>
              cases found_other : other.entryAt? tier.target key with
              | none => rw [Option.merge_none_right, Option.bind_none, Option.merge_none_right]
              | some more =>
                  rw [Option.merge_some_some, Option.bind_some, Option.bind_some, Option.bind_some]
                  exact induction (own_shaped.2 key old found_own) (other_tidy.entryAt? found_other) keys

theorem Shaped.at? (shaped : plant.Shaped leaf tiers) {keys : List String} {found : Plant}
    (found_eq : plant.at? tiers keys = some found) : found.Shaped leaf (tiers.drop keys.length) := by
  induction tiers generalizing plant keys with
  | nil =>
      cases keys with
      | nil => exact Option.some.inj found_eq ▸ shaped
      | cons key keys => cases found_eq
  | cons tier rest induction =>
      cases keys with
      | nil => exact Option.some.inj found_eq ▸ shaped
      | cons key keys =>
          obtain ⟨entry, entry_eq, rest_eq⟩ := Option.bind_eq_some_iff.mp found_eq
          exact induction (shaped.2 key entry entry_eq) rest_eq

theorem Tidy.at? (tidy : plant.Tidy) {keys : List String} {found : Plant}
    (found_eq : plant.at? tiers keys = some found) : found.Tidy := by
  induction tiers generalizing plant keys with
  | nil =>
      cases keys with
      | nil => exact Option.some.inj found_eq ▸ tidy
      | cons key keys => cases found_eq
  | cons tier rest induction =>
      cases keys with
      | nil => exact Option.some.inj found_eq ▸ tidy
      | cons key keys =>
          obtain ⟨entry, entry_eq, rest_eq⟩ := Option.bind_eq_some_iff.mp found_eq
          exact induction (tidy.entryAt? entry_eq) rest_eq

theorem elementsAt_merge {leaf : Leaf} (own_shaped : own.Shaped (some leaf) tiers)
    (other_tidy : other.Tidy) {keys : List String} (length_eq : keys.length = tiers.length) :
    (own.merge other).elementsAt tiers keys (targetOf leaf.list) =
      own.elementsAt tiers keys (targetOf leaf.list) ++
        other.elementsAt tiers keys (targetOf leaf.list) := by
  rw [elementsAt, at?_merge own_shaped other_tidy, elementsAt, elementsAt]
  cases found_own : own.at? tiers keys with
  | none => rw [Option.merge_none_left, Option.map_none, Option.getD_none, List.nil_append]
  | some existing =>
      cases found_other : other.at? tiers keys with
      | none => rw [Option.merge_none_right, Option.map_none, Option.getD_none, List.append_nil]
      | some branch =>
          have existing_shaped := own_shaped.at? found_own
          rw [length_eq, List.drop_length] at existing_shaped
          rw [Option.merge_some_some, Option.map_some, Option.map_some, Option.map_some]
          exact elements_merge (ascending_limbs (other_tidy.at? found_other).root)
            (existing_shaped leaf rfl)

/-! ## What a merge takes up -/

/-- Entries of one key are merged. -/
theorem mem_pairs_of_entryAt? {key : String} {existing branch : Plant}
    (found_own : own.entryAt? target key = some existing)
    (found_other : other.entryAt? target key = some branch) : (branch, existing) ∈ own.pairs other := by
  cases target with
  | none =>
      rw [entryAt?] at found_own found_other
      split at found_own
      next found =>
        split at found_other
        next more found_more =>
          cases found_own
          cases found_other
          have in_shared : (Limb.object branch, Limb.object existing) ∈ shared own.limbs other.limbs :=
            mem_shared.mpr ⟨key, mem_of_find? found_more, found⟩
          exact List.mem_flatMap.mpr ⟨_, in_shared, List.mem_cons_self⟩
        next => cases found_other
      next => cases found_own
  | some target =>
      rw [entryAt?] at found_own found_other
      split at found_own
      next entries found =>
        split at found_other
        next others found_more =>
          have in_shared : (Limb.map others, Limb.map entries) ∈ shared own.limbs other.limbs :=
            mem_shared.mpr ⟨target, mem_of_find? found_more, found⟩
          exact List.mem_flatMap.mpr ⟨_, in_shared,
            mem_shared.mpr ⟨key, mem_of_find? found_other, found_own⟩⟩
        next => cases found_other
      next => cases found_own

/-- What is taken up at the end of a path leaves no object. -/
theorem countIn_merge_add_of_at? (id : NodeId) (own_tidy : own.Tidy) (other_tidy : other.Tidy)
    (single : ∀ id, countIn id own.cells + countIn id other.cells ≤ 1) {keys : List String}
    {existing branch : Plant} (found_own : own.at? tiers keys = some existing)
    (found_other : other.at? tiers keys = some branch) :
    countIn id (own.merge other).cells + [branch.id].count id ≤
      countIn id own.cells + countIn id other.cells := by
  induction tiers generalizing own other keys with
  | nil =>
      cases keys with
      | nil =>
          cases found_other
          exact countIn_merge_add id own_tidy other_tidy single
      | cons key keys => cases found_own
  | cons tier rest induction =>
      cases keys with
      | nil =>
          cases found_other
          exact countIn_merge_add id own_tidy other_tidy single
      | cons key keys =>
          obtain ⟨entry, entry_eq, entry_at⟩ := Option.bind_eq_some_iff.mp found_own
          obtain ⟨more, more_eq, more_at⟩ := Option.bind_eq_some_iff.mp found_other
          have member := mem_pairs_of_entryAt? entry_eq more_eq
          exact countIn_merge_add_of_mem_pairs id own_tidy other_tidy single member
            (induction (own_tidy.entryAt? entry_eq) (other_tidy.entryAt? more_eq)
              (single_of_mem_pairs own_tidy other_tidy single member) entry_at more_at)

end Plant

end StationGateway.Tree
