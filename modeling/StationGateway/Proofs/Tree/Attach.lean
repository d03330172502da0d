import StationGateway.Proofs.Tree.Absorb
import StationGateway.Tree.Growth

/-!
# Attaching plants

How the plant of an object changes when another plant is attached to it, in each of the ways in which
objects attach. A forest that has both plants has the grown one afterwards, and nothing else in the
forest is touched. -/

namespace StationGateway.Tree

open StationGateway.Order

namespace Plant

/-- Whether a plant is an object with nothing in it. -/
def isBare (plant : Plant) : Bool :=
  plant.fields.isEmpty && plant.limbs.isEmpty

/-- The plant with something attached under a name. -/
def setLimb (name : String) (limb : Limb) (plant : Plant) : Plant :=
  .node plant.id plant.fields (put name limb plant.limbs)

/-- The plant without what is attached under a name. -/
def dropLimb (name : String) (plant : Plant) : Plant :=
  .node plant.id plant.fields (erase name plant.limbs)

/-- The plant with a field set. -/
def setField (name : String) (value : Json) (plant : Plant) : Plant :=
  .node plant.id (put name value plant.fields) plant.limbs

/-- The plant with another one attached as the one object under a name, unless that one is bare and
nulls are left out. -/
def attachInline (showNull : Bool) (target : String) (plant twig : Plant) : Plant :=
  if twig.isBare && !showNull then plant.dropLimb target else plant.setLimb target (.object twig)

/-- The plant with a field of another one, unless that is null and left out. -/
def attachMerged (showNull : Bool) (target : String) (plant source : Plant) : Plant :=
  if ((find? target source.fields).getD .null).isNull && !showNull then plant
  else plant.setField target ((find? target source.fields).getD .null)

/-- The plant with another one as a further element of a list, unless that one is bare and nulls are
left out. -/
def attachElement (showNull : Bool) (target : String) (plant item : Plant) : Plant :=
  if item.isBare && !showNull then plant
  else
    match find? target plant.limbs with
    | none => plant.setLimb target (.list [item])
    | some (.list items) => plant.setLimb target (.list (items ++ [item]))
    | some _ => plant

/-- The entry of a key, among the plant's own or in the map under a name. -/
def entryAt? (plant : Plant) : Option String → String → Option Plant
  | none, key =>
      match find? key plant.limbs with
      | some (.object existing) => some existing
      | _ => none
  | some target, key =>
      match find? target plant.limbs with
      | some (.map entries) => find? key entries
      | _ => none

/-- The plant with an entry of its own, or in the map under a name. What is no map stays as it is. -/
def putEntry (plant : Plant) : Option String → String → Plant → Plant
  | none, key, entry => plant.setLimb key (.object entry)
  | some target, key, entry =>
      match find? target plant.limbs with
      | none => plant.setLimb target (.map [(key, entry)])
      | some (.map entries) => plant.setLimb target (.map (put key entry entries))
      | some _ => plant

/-- The plant with another one as an entry, which an entry that is there takes up. -/
def attachKeyed (target : Option String) (key : String) (plant branch : Plant) : Plant :=
  plant.putEntry target key
    (((plant.entryAt? target key).map fun existing => existing.merge branch).getD branch)

variable {plant : Plant}

theorem root_setLimb (name : String) (limb : Limb) (plant : Plant) :
    (plant.setLimb name limb).root = plant.root.setChild name limb.child := by
  rw [root, root, setLimb, Node.setChild, limbs, childrenOf, map_put]
  rfl

theorem root_dropLimb (name : String) (plant : Plant) :
    (plant.dropLimb name).root = plant.root.dropChild name := by
  rw [root, root, dropLimb, Node.dropChild, limbs, childrenOf, map_erase]
  rfl

theorem isEmpty_root (plant : Plant) : plant.root.isEmpty = plant.isBare := by
  rw [root, Node.isEmpty, isBare, childrenOf, List.isEmpty_map]

/-- What is below a plant with a new limb was below it before or is in the limb. -/
theorem mem_limbsCells_setLimb {name : String} {limb : Limb} {cell : NodeId × Node}
    (member : cell ∈ limbsCells (plant.setLimb name limb).limbs) :
    cell ∈ limb.cells ∨ cell ∈ limbsCells plant.limbs := by
  obtain ⟨entry, in_limbs, in_entry⟩ := mem_limbsCells.mp member
  rcases mem_put in_limbs with rfl | in_plant
  · exact .inl in_entry
  · exact .inr (mem_limbsCells.mpr ⟨entry, in_plant, in_entry⟩)

theorem countIn_setLimb (tidy : plant.root.Tidy) (name : String) (limb : Limb) (id : NodeId) :
    countIn id (limbsCells (plant.setLimb name limb).limbs) +
        ((find? name plant.limbs).map fun old => countIn id old.cells).getD 0 =
      countIn id (limbsCells plant.limbs) + countIn id limb.cells := by
  rw [countIn_limbsCells, countIn_limbsCells]
  exact total_put (ascending_limbs tidy) _ name limb

/-- An entry stands in one limb of the plant. -/
theorem exists_limb_of_entryAt? {target : Option String} {key : String} {entry : Plant}
    (found : plant.entryAt? target key = some entry) :
    ∃ name limb, find? name plant.limbs = some limb ∧ (∀ cell ∈ entry.cells, cell ∈ limb.cells) ∧
      ∀ id, countIn id entry.cells ≤ countIn id limb.cells := by
  cases target with
  | none =>
      rw [entryAt?] at found
      split at found
      next existing found_object =>
        cases found
        exact ⟨key, .object entry, found_object, fun _ member => member, fun id => Nat.le_refl _⟩
      next => cases found
  | some target =>
      rw [entryAt?] at found
      split at found
      next entries found_map =>
        refine ⟨target, .map entries, found_map, fun cell member => ?_, fun id => ?_⟩
        · exact mem_entriesCells.mpr ⟨_, mem_of_find? found, member⟩
        · rw [Limb.cells, countIn_entriesCells]
          exact le_total_of_mem (fun plant => countIn id plant.cells) (mem_of_find? found)
      next => cases found

theorem countIn_entryAt?_le {target : Option String} {key : String} {entry : Plant}
    (found : plant.entryAt? target key = some entry) (id : NodeId) :
    countIn id entry.cells ≤ countIn id plant.cells := by
  obtain ⟨name, limb, found_limb, -, entry_le⟩ := exists_limb_of_entryAt? found
  have limb_le := le_total_of_mem (fun limb => countIn id limb.cells) (mem_of_find? found_limb)
  rw [← countIn_limbsCells] at limb_le
  rw [plant.cells_eq, countIn_cons]
  exact Nat.le_trans (entry_le id) (Nat.le_trans limb_le (Nat.le_add_left _ _))

end Plant

theorem Forest.Has.entryAt? {forest : Forest} {plant : Plant} (has : forest.Has plant.cells)
    {target : Option String} {key : String} {entry : Plant}
    (found : plant.entryAt? target key = some entry) : forest.Has entry.cells := by
  obtain ⟨name, limb, found_limb, within, -⟩ := Plant.exists_limb_of_entryAt? found
  exact (has.limbs.limb found_limb).mono within

/-! ## Forests with a grown plant -/

/-- A forest has a plant grown from another one and further cells, and is the same elsewhere. -/
structure Regrown (forest later : Forest) (before after : Plant) (extra : List (NodeId × Node)) :
    Prop where
  /-- The grown plant is there. -/
  has : later.Has after.cells
  /-- It stands where the plant before it stood. -/
  id : after.id = before.id
  /-- Other objects are as before. -/
  same : ∀ id, countIn id before.cells + countIn id extra = 0 → later.get id = forest.get id
  /-- No object occurs more often than before. -/
  count : ∀ id, countIn id after.cells ≤ countIn id before.cells + countIn id extra
  /-- Maps stay ascending. -/
  tidy : ∀ id, (later.get id).Tidy
  /-- No object is added. -/
  next : later.next = forest.next

section Regrown

variable {forest : Forest} {plant : Plant}

theorem Regrown.refl (tidy : ∀ id, (forest.get id).Tidy) (has : forest.Has plant.cells)
    (extra : List (NodeId × Node)) : Regrown forest forest plant plant extra :=
  ⟨has, rfl, fun _ _ => rfl, fun _ => Nat.le_add_right _ _, tidy, rfl⟩

theorem Regrown.trans {middle later : Forest} {before between after : Plant}
    {extra more : List (NodeId × Node)} (first : Regrown forest middle before between extra)
    (second : Regrown middle later between after more) :
    Regrown forest later before after (extra ++ more) where
  has := second.has
  id := second.id.trans first.id
  same := by
    intro id nothing
    rw [countIn_append] at nothing
    have between_le := first.count id
    rw [second.same id (by omega), first.same id (by omega)]
  count := by
    intro id
    have between_le := first.count id
    have after_le := second.count id
    rw [countIn_append]
    omega
  tidy := second.tidy
  next := second.next.trans first.next

/-- A plant may grow from what another one has grown into before. -/
theorem Regrown.after {middle later : Forest} {other grown before after : Plant}
    {extra more all : List (NodeId × Node)} (second : Regrown middle later before after more)
    (first : Regrown forest middle other grown extra)
    (first_le : ∀ id, countIn id other.cells + countIn id extra ≤ countIn id all)
    (more_le : ∀ id, countIn id more ≤ countIn id all) :
    Regrown forest later before after all where
  has := second.has
  id := second.id
  same := by
    intro id nothing
    have first_le := first_le id
    have more_le := more_le id
    rw [second.same id (by omega), first.same id (by omega)]
  count := by
    intro id
    have count := second.count id
    have more_le := more_le id
    omega
  tidy := second.tidy
  next := second.next.trans first.next

/-- What does not take part stays. -/
theorem Regrown.keeps {later : Forest} {before after : Plant} {extra cells : List (NodeId × Node)}
    (regrown : Regrown forest later before after extra) (has : forest.Has cells)
    (apart : ∀ id, 0 < countIn id cells → countIn id before.cells + countIn id extra = 0) :
    later.Has cells :=
  has.transfer (Nat.le_of_eq regrown.next.symm) fun id positive => regrown.same id (apart id positive)

/-- Changing the object at which a plant stands regrows the plant. -/
theorem regrown_update {after : Plant} {extra : List (NodeId × Node)} {change : Node → Node}
    (tidy : ∀ id, (forest.get id).Tidy) (has : forest.Has plant.cells) (has_extra : forest.Has extra)
    (apart : ∀ id, countIn id plant.cells + countIn id extra ≤ 1) (id_eq : after.id = plant.id)
    (root_eq : after.root = change plant.root) (root_tidy : after.root.Tidy)
    (within : ∀ cell ∈ limbsCells after.limbs, cell ∈ limbsCells plant.limbs ∨ cell ∈ extra)
    (count : ∀ id, countIn id (limbsCells after.limbs) ≤
      countIn id (limbsCells plant.limbs) + countIn id extra) :
    Regrown forest (forest.update plant.id change) plant after extra := by
  have cells_single : ∀ id, [plant.id].count id + countIn id (limbsCells plant.limbs) +
      countIn id extra ≤ 1 := by
    intro id
    have apart := apart id
    rwa [plant.cells_eq, countIn_cons] at apart
  have untouched : ∀ id, id ≠ plant.id → (forest.update plant.id change).get id = forest.get id :=
    fun id ne => Forest.get_update_of_ne ne change
  refine ⟨fun cell member => ?_, id_eq, fun id nothing => untouched id ?_, fun id => ?_, ?_,
    Forest.next_update forest plant.id change⟩
  · rw [after.cells_eq, id_eq] at member
    rw [Forest.next_update]
    rcases List.mem_cons.mp member with rfl | in_limbs
    · refine ⟨has.root.1, ?_⟩
      rw [Forest.get_update_self has.root.1, has.root.2, root_eq]
    · have cell_has : cell.1 < forest.next ∧ forest.get cell.1 = cell.2 := by
        rcases within cell in_limbs with in_plant | in_extra
        · exact has.limbs cell in_plant
        · exact has_extra cell in_extra
      have not_root : cell.1 ≠ plant.id := by
        intro same
        have positive := countIn_pos in_limbs
        have count := count cell.1
        have single := cells_single cell.1
        rw [same, List.count_singleton_self] at single
        rw [same] at positive count
        omega
      rw [untouched cell.1 not_root]
      exact cell_has
  · rintro rfl
    have positive := plant.countIn_id_pos
    omega
  · have count := count id
    rw [after.cells_eq, plant.cells_eq, countIn_cons, countIn_cons, id_eq]
    dsimp only
    omega
  · refine Forest.forall_get_update tidy ?_
    rw [has.root.2, ← root_eq]
    exact root_tidy

/-- Setting a limb made of what was there under the name and of further cells regrows a plant. -/
theorem regrown_setLimb {name : String} {limb : Limb} {extra : List (NodeId × Node)}
    {change : Node → Node} (change_eq : change plant.root = plant.root.setChild name limb.child)
    (tidy : ∀ id, (forest.get id).Tidy) (has : forest.Has plant.cells) (has_extra : forest.Has extra)
    (apart : ∀ id, countIn id plant.cells + countIn id extra ≤ 1) (limb_tidy : limb.child.Tidy)
    (within : ∀ cell ∈ limb.cells, cell ∈ limbsCells plant.limbs ∨ cell ∈ extra)
    (count : ∀ id, countIn id limb.cells ≤
      ((find? name plant.limbs).map fun old => countIn id old.cells).getD 0 + countIn id extra) :
    Regrown forest (forest.update plant.id change) plant (plant.setLimb name limb) extra := by
  have root_tidy := (has.tidy tidy).root
  refine regrown_update tidy has has_extra apart rfl
    ((Plant.root_setLimb name limb plant).trans change_eq.symm) ?_ ?_ ?_
  · rw [Plant.root_setLimb]
    exact root_tidy.setChild name limb_tidy
  · intro cell member
    rcases Plant.mem_limbsCells_setLimb member with in_limb | in_plant
    · exact within cell in_limb
    · exact .inl in_plant
  · intro id
    have counted := Plant.countIn_setLimb root_tidy name limb id
    have count := count id
    omega

/-- Absorbing a plant regrows the one that takes it up. -/
theorem regrown_absorb {own branch : Plant} (tidy : ∀ id, (forest.get id).Tidy)
    (has : forest.Has own.cells) (has_branch : forest.Has branch.cells)
    (apart : ∀ id, countIn id own.cells + countIn id branch.cells ≤ 1) :
    Regrown forest (forest.absorb branch.id own.id) own (own.merge branch) branch.cells := by
  have absorbed := absorbed_absorb tidy has has_branch apart
  exact ⟨absorbed.has, Plant.id_merge own branch, absorbed.same,
    fun id => Plant.countIn_merge_le id (has.tidy tidy) (has_branch.tidy tidy) apart, absorbed.tidy,
    absorbed.next⟩

/-- A plant regrows with one that stands below it. -/
theorem Regrown.inside {later : Forest} {target : String} {limb grownLimb : Limb}
    {existing grown : Plant} {extra : List (NodeId × Node)}
    (regrown : Regrown forest later existing grown extra) (tidy : ∀ id, (forest.get id).Tidy)
    (has : forest.Has plant.cells) (apart : ∀ id, countIn id plant.cells + countIn id extra ≤ 1)
    (found : find? target plant.limbs = some limb) (child_eq : grownLimb.child = limb.child)
    (existing_le : ∀ id, countIn id existing.cells ≤ countIn id limb.cells)
    (within : ∀ cell ∈ grownLimb.cells, cell ∈ grown.cells ∨
      cell ∈ limb.cells ∧ countIn cell.1 existing.cells = 0)
    (count : ∀ id, countIn id grownLimb.cells + countIn id existing.cells ≤
      countIn id limb.cells + countIn id grown.cells) :
    Regrown forest later plant (plant.setLimb target grownLimb) extra := by
  have root_tidy := (has.tidy tidy).root
  have limbs_ascending := ascending_limbs root_tidy
  have cells_single : ∀ id, [plant.id].count id + countIn id (limbsCells plant.limbs) +
      countIn id extra ≤ 1 := by
    intro id
    have apart := apart id
    rwa [plant.cells_eq, countIn_cons] at apart
  have limb_le : ∀ id, countIn id limb.cells ≤ countIn id (limbsCells plant.limbs) := by
    intro id
    rw [countIn_limbsCells]
    exact le_total_of_mem (fun limb => countIn id limb.cells) (mem_of_find? found)
  have root_eq : (plant.setLimb target grownLimb).root = plant.root := by
    have found_child : find? target plant.root.children = some grownLimb.child := by
      rw [Plant.root, find?_childrenOf, found, child_eq]
      rfl
    rw [Plant.root_setLimb, Node.setChild, put_of_find? root_tidy.children found_child]
  refine ⟨fun cell member => ?_, rfl, fun id nothing => regrown.same id ?_, fun id => ?_,
    regrown.tidy, regrown.next⟩
  · rw [Plant.cells_eq, root_eq] at member
    rcases List.mem_cons.mp member with rfl | in_limbs
    · have cells_single := cells_single plant.id
      rw [List.count_singleton_self] at cells_single
      have limb_le := limb_le plant.id
      have existing_le := existing_le plant.id
      change plant.id < _ ∧ Forest.get _ plant.id = _
      rw [regrown.next, regrown.same plant.id (by omega)]
      exact has.root
    · obtain ⟨entry, in_put, in_entry⟩ := mem_limbsCells.mp in_limbs
      rcases mem_put_of_ascending limbs_ascending in_put with rfl | ⟨in_plant, ne⟩
      · rcases within cell in_entry with in_grown | ⟨in_limb, nothing⟩
        · exact regrown.has cell in_grown
        · have positive := countIn_pos in_limb
          have cells_single := cells_single cell.1
          have limb_le := limb_le cell.1
          rw [regrown.next, regrown.same cell.1 (by omega)]
          exact has.limbs.limb found cell in_limb
      · have positive := countIn_pos in_entry
        have separate := add_le_total limbs_ascending (fun limb => countIn cell.1 limb.cells) in_plant
          found ne
        rw [← countIn_limbsCells] at separate
        have cells_single := cells_single cell.1
        have existing_le := existing_le cell.1
        rw [regrown.next, regrown.same cell.1 (by omega)]
        exact has.limbs cell (mem_limbsCells.mpr ⟨entry, in_plant, in_entry⟩)
  · have limb_le := limb_le id
    have existing_le := existing_le id
    rw [plant.cells_eq, countIn_cons] at nothing
    omega
  · have counted := Plant.countIn_setLimb root_tidy target grownLimb id
    have grown_le := regrown.count id
    have count := count id
    rw [found, Option.map_some, Option.getD_some] at counted
    rw [Plant.cells_eq, plant.cells_eq, countIn_cons, countIn_cons]
    change [plant.id].count id + _ ≤ [plant.id].count id + _ + _
    omega

/-- A plant regrows with one of its entries. -/
theorem Regrown.putEntry {later : Forest} {target : Option String} {key : String}
    {existing grown : Plant} {extra : List (NodeId × Node)}
    (regrown : Regrown forest later existing grown extra) (tidy : ∀ id, (forest.get id).Tidy)
    (has : forest.Has plant.cells) (apart : ∀ id, countIn id plant.cells + countIn id extra ≤ 1)
    (found : plant.entryAt? target key = some existing) :
    Regrown forest later plant (plant.putEntry target key grown) extra := by
  cases target with
  | none =>
      obtain found_limb : find? key plant.limbs = some (.object existing) := by
        rw [Plant.entryAt?] at found
        split at found
        next found_object => rw [found_object, Option.some.inj found]
        next => cases found
      refine regrown.inside tidy has apart found_limb ?_ (fun id => Nat.le_refl _)
        (fun cell => .inl) fun id => ?_
      · rw [Limb.child, Limb.child, regrown.id]
      · rw [Limb.cells, Limb.cells]
        omega
  | some target =>
      obtain ⟨entries, found_map, found_entry⟩ :
          ∃ entries, find? target plant.limbs = some (.map entries) ∧
            find? key entries = some existing := by
        rw [Plant.entryAt?] at found
        split at found
        next entries found_map => exact ⟨entries, found_map, found⟩
        next => cases found
      have entries_ascending := ascending_entries (has.tidy tidy).root found_map
      simp only [Plant.putEntry, found_map]
      refine regrown.inside tidy has apart found_map ?_ (fun id => ?_) (fun cell member => ?_)
        fun id => ?_
      · have found_id := find?_map Plant.id key entries
        rw [found_entry] at found_id
        rw [Limb.child, Limb.child, map_put, regrown.id,
          put_of_find? (entries_ascending.map Plant.id) found_id]
      · rw [Limb.cells, countIn_entriesCells]
        exact le_total_of_mem (fun plant => countIn id plant.cells) (mem_of_find? found_entry)
      · obtain ⟨entry, in_put, in_entry⟩ := mem_entriesCells.mp member
        rcases mem_put_of_ascending entries_ascending in_put with rfl | ⟨in_entries, ne⟩
        · exact .inl in_entry
        · refine .inr ⟨mem_entriesCells.mpr ⟨entry, in_entries, in_entry⟩, ?_⟩
          have separate := add_le_total entries_ascending
            (fun plant => countIn cell.1 plant.cells) in_entries found_entry ne
          have map_le := le_total_of_mem (fun limb => countIn cell.1 limb.cells)
            (mem_of_find? found_map)
          rw [← countIn_entriesCells] at separate
          rw [← countIn_limbsCells] at map_le
          have positive := countIn_pos in_entry
          have single := apart cell.1
          rw [plant.cells_eq, countIn_cons] at single
          change countIn cell.1 (entriesCells entries) ≤ _ at map_le
          omega
      · have put_eq := total_put entries_ascending (fun plant => countIn id plant.cells) key grown
        rw [found_entry, Option.map_some, Option.getD_some] at put_eq
        rw [Limb.cells, Limb.cells, countIn_entriesCells, countIn_entriesCells]
        exact Nat.le_of_eq put_eq

/-- A plant regrows with an entry that takes up another plant. -/
theorem regrown_takeUp {target : Option String} {key : String} {existing branch : Plant}
    (tidy : ∀ id, (forest.get id).Tidy) (has : forest.Has plant.cells)
    (has_branch : forest.Has branch.cells)
    (apart : ∀ id, countIn id plant.cells + countIn id branch.cells ≤ 1)
    (found : plant.entryAt? target key = some existing) :
    Regrown forest (forest.absorb branch.id existing.id) plant
      (plant.putEntry target key (existing.merge branch)) branch.cells := by
  have absorbed := regrown_absorb tidy (has.entryAt? found) has_branch fun id => by
    have existing_le := Plant.countIn_entryAt?_le found id
    have apart := apart id
    omega
  exact absorbed.putEntry tidy has apart found

end Regrown

/-! ## The ways to attach -/

namespace Growth

variable {growth : Growth} {plant : Plant} {target key list : String}

theorem isEmpty_get {twig : Plant} (has : growth.forest.Has twig.cells) :
    (growth.forest.get twig.id).isEmpty = twig.isBare := by
  rw [has.root.2, Plant.isEmpty_root]

theorem find?_get_children (has : growth.forest.Has plant.cells) (name : String) :
    find? name (growth.forest.get plant.id).children = (find? name plant.limbs).map Limb.child := by
  rw [has.root.2, Plant.root, find?_childrenOf]

theorem regrown_attachInline {twig : Plant} (tidy : ∀ id, (growth.forest.get id).Tidy)
    (has : growth.forest.Has plant.cells) (has_twig : growth.forest.Has twig.cells)
    (apart : ∀ id, countIn id plant.cells + countIn id twig.cells ≤ 1) (showNull : Bool)
    (target : String) :
    Regrown growth.forest (growth.attachInline showNull twig.id plant.id target).forest plant
        (plant.attachInline showNull target twig) twig.cells ∧
      (growth.attachInline showNull twig.id plant.id target).current = growth.current := by
  have root_tidy := (has.tidy tidy).root
  rw [attachInline, isEmpty_get has_twig, Plant.attachInline]
  by_cases left_out : (twig.isBare && !showNull) = true
  · simp only [if_pos left_out]
    refine ⟨regrown_update tidy has has_twig apart rfl (Plant.root_dropLimb target plant) ?_ ?_ ?_, rfl⟩
    · rw [Plant.root_dropLimb]
      exact root_tidy.dropChild target
    · intro cell member
      obtain ⟨limb, in_erased, in_limb⟩ := mem_limbsCells.mp member
      exact .inl (mem_limbsCells.mpr ⟨limb, mem_of_mem_erase in_erased, in_limb⟩)
    · intro id
      have erased_le := total_erase_le (fun limb => countIn id limb.cells) target plant.limbs
      rw [← countIn_limbsCells, ← countIn_limbsCells] at erased_le
      exact Nat.le_trans erased_le (Nat.le_add_right _ _)
  · simp only [if_neg left_out]
    have twig_tidy : (Limb.object twig).child.Tidy := Child.tidy_object twig.id
    refine ⟨regrown_setLimb rfl tidy has has_twig apart twig_tidy ?_ ?_, rfl⟩
    · exact fun cell member => .inr member
    · exact fun id => Nat.le_add_left _ _

theorem regrown_attachMerged {source : Plant} (tidy : ∀ id, (growth.forest.get id).Tidy)
    (has : growth.forest.Has plant.cells) (has_source : growth.forest.Has source.cells)
    (single : ∀ id, countIn id plant.cells ≤ 1) (showNull : Bool) (target : String) :
    Regrown growth.forest (growth.attachMerged showNull source.id plant.id target).forest plant
        (plant.attachMerged showNull target source) [] ∧
      (growth.attachMerged showNull source.id plant.id target).current = growth.current := by
  have root_tidy := (has.tidy tidy).root
  have fields_eq : source.root.fields = source.fields := rfl
  rw [attachMerged, has_source.root.2, Plant.attachMerged, fields_eq]
  by_cases left_out : (((find? target source.fields).getD .null).isNull && !showNull) = true
  · simp only [if_pos left_out]
    exact ⟨.refl tidy has [], trivial⟩
  · simp only [if_neg left_out]
    refine ⟨regrown_update tidy has (fun _ member => absurd member List.not_mem_nil) single rfl rfl
      (root_tidy.setField target _) (fun cell => .inl) fun id => Nat.le_refl _, rfl⟩

theorem regrown_attachElement {item : Plant} (tidy : ∀ id, (growth.forest.get id).Tidy)
    (has : growth.forest.Has plant.cells) (has_item : growth.forest.Has item.cells)
    (apart : ∀ id, countIn id plant.cells + countIn id item.cells ≤ 1) (showNull : Bool)
    (target : String) :
    Regrown growth.forest (growth.attachElement showNull item.id plant.id target).forest plant
        (plant.attachElement showNull target item) item.cells ∧
      (growth.attachElement showNull item.id plant.id target).current = growth.current := by
  rw [attachElement, isEmpty_get has_item, Plant.attachElement]
  by_cases left_out : (item.isBare && !showNull) = true
  · simp only [if_pos left_out]
    exact ⟨.refl tidy has item.cells, trivial⟩
  · simp only [if_neg left_out]
    have root_tidy := (has.tidy tidy).root
    have found_child := find?_childrenOf target plant.limbs
    refine ⟨?_, rfl⟩
    cases found : find? target plant.limbs with
    | none =>
        have change_eq : plant.root.pushItem target item.id =
            plant.root.setChild target (Limb.list [item]).child := by
          rw [found] at found_child
          simp only [Node.pushItem, Plant.root, found_child, Option.map_none]
          rfl
        refine regrown_setLimb change_eq tidy has has_item apart (Child.tidy_list _) ?_ ?_
        · intro cell member
          rw [Limb.cells, itemsCells, itemsCells, List.append_nil] at member
          exact .inr member
        · intro id
          rw [Limb.cells, itemsCells, itemsCells, List.append_nil]
          exact Nat.le_add_left _ _
    | some limb =>
        cases limb with
        | list items =>
            have change_eq : plant.root.pushItem target item.id =
                plant.root.setChild target (Limb.list (items ++ [item])).child := by
              rw [found] at found_child
              simp only [Node.pushItem, Plant.root, found_child, Option.map_some, Limb.child,
                List.map_append, List.map_cons, List.map_nil]
            refine regrown_setLimb change_eq tidy has has_item apart (Child.tidy_list _) ?_ ?_
            · intro cell member
              rw [Limb.cells, itemsCells_append, itemsCells, itemsCells, List.append_nil] at member
              exact (List.mem_append.mp member).imp
                (fun in_items => mem_limbsCells.mpr ⟨_, mem_of_find? found, in_items⟩) id
            · intro id
              rw [Limb.cells, itemsCells_append, itemsCells, itemsCells, List.append_nil,
                countIn_append, found]
              exact Nat.le_refl _
        | object other =>
            have change_eq : plant.root.pushItem target item.id = plant.root := by
              rw [found] at found_child
              simp only [Node.pushItem, Plant.root, found_child, Option.map_some, Limb.child]
            exact regrown_update tidy has has_item apart rfl change_eq.symm root_tidy
              (fun cell => .inl) fun id => Nat.le_add_right _ _
        | map entries =>
            have change_eq : plant.root.pushItem target item.id = plant.root := by
              rw [found] at found_child
              simp only [Node.pushItem, Plant.root, found_child, Option.map_some, Limb.child]
            exact regrown_update tidy has has_item apart rfl change_eq.symm root_tidy
              (fun cell => .inl) fun id => Nat.le_add_right _ _

/-- A plant regrows with a new entry. -/
theorem regrown_newEntry {branch : Plant} {change : Node → Node} {name : String} {limb : Limb}
    (change_eq : change plant.root = plant.root.setChild name limb.child)
    (tidy : ∀ id, (growth.forest.get id).Tidy) (has : growth.forest.Has plant.cells)
    (has_branch : growth.forest.Has branch.cells)
    (apart : ∀ id, countIn id plant.cells + countIn id branch.cells ≤ 1)
    (limb_tidy : limb.child.Tidy) (cells_eq : limb.cells = branch.cells) :
    Regrown growth.forest (growth.update plant.id change).forest plant (plant.setLimb name limb)
      branch.cells := by
  refine regrown_setLimb change_eq tidy has has_branch apart limb_tidy (fun cell member => ?_)
    fun id => ?_
  · rw [cells_eq] at member
    exact .inr member
  · rw [cells_eq]
    exact Nat.le_add_left _ _

theorem regrown_attachRootEntry {branch : Plant} (tidy : ∀ id, (growth.forest.get id).Tidy)
    (has : growth.forest.Has plant.cells) (has_branch : growth.forest.Has branch.cells)
    (apart : ∀ id, countIn id plant.cells + countIn id branch.cells ≤ 1) (list key : String) :
    Regrown growth.forest (growth.attachRootEntry list branch.id plant.id key).forest plant
        (plant.attachKeyed none key branch) branch.cells ∧
      (growth.attachRootEntry list branch.id plant.id key).current =
        match plant.entryAt? none key with
        | some existing => put list existing.id growth.current
        | none => growth.current := by
  have new_entry := @regrown_newEntry growth plant branch _ key (.object branch) rfl tidy has
    has_branch apart (Child.tidy_object branch.id) rfl
  have found_child := find?_get_children has key
  have entry_eq : plant.entryAt? none key =
      match find? key plant.limbs with
      | some (.object existing) => some existing
      | _ => none := rfl
  rw [attachRootEntry, Plant.attachKeyed]
  cases found : find? key plant.limbs with
  | none =>
      rw [found] at found_child entry_eq
      simp only [found_child, entry_eq, Option.map_none, Option.getD_none]
      exact ⟨new_entry, rfl⟩
  | some limb =>
      rw [found, Option.map_some] at found_child
      rw [found] at entry_eq
      cases limb with
      | object existing =>
          have taken_up := regrown_takeUp tidy has has_branch apart entry_eq
          simp only [found_child, Limb.child, entry_eq, Option.map_some, Option.getD_some]
          exact ⟨taken_up, rfl⟩
      | map entries =>
          simp only [found_child, Limb.child, entry_eq, Option.map_none, Option.getD_none]
          exact ⟨new_entry, rfl⟩
      | list items =>
          simp only [found_child, Limb.child, entry_eq, Option.map_none, Option.getD_none]
          exact ⟨new_entry, rfl⟩

theorem regrown_attachEntry {branch : Plant} (tidy : ∀ id, (growth.forest.get id).Tidy)
    (has : growth.forest.Has plant.cells) (has_branch : growth.forest.Has branch.cells)
    (apart : ∀ id, countIn id plant.cells + countIn id branch.cells ≤ 1) (list target key : String) :
    Regrown growth.forest (growth.attachEntry list branch.id plant.id target key).forest plant
        (plant.attachKeyed (some target) key branch) branch.cells ∧
      (growth.attachEntry list branch.id plant.id target key).current =
        match plant.entryAt? (some target) key with
        | some existing => put list existing.id growth.current
        | none => growth.current := by
  have found_child := find?_get_children has target
  have entry_eq : plant.entryAt? (some target) key =
      match find? target plant.limbs with
      | some (.map entries) => find? key entries
      | _ => none := rfl
  rw [attachEntry, Plant.attachKeyed]
  cases found : find? target plant.limbs with
  | none =>
      rw [found, Option.map_none] at found_child
      rw [found] at entry_eq
      have map_tidy : (Limb.map [(key, branch)]).child.Tidy := Child.tidy_map (ascending_singleton _)
      simp only [found_child, entry_eq, Plant.putEntry, found, Option.map_none, Option.getD_none]
      refine ⟨regrown_newEntry rfl tidy has has_branch apart map_tidy ?_, rfl⟩
      rw [Limb.cells, entriesCells, entriesCells, List.append_nil]
  | some limb =>
      rw [found, Option.map_some] at found_child
      rw [found] at entry_eq
      cases limb with
      | object existing =>
          simp only [found_child, Limb.child, entry_eq, Plant.putEntry, found]
          exact ⟨.refl tidy has branch.cells, trivial⟩
      | list items =>
          simp only [found_child, Limb.child, entry_eq, Plant.putEntry, found]
          exact ⟨.refl tidy has branch.cells, trivial⟩
      | map entries =>
          have entries_ascending := ascending_entries (has.tidy tidy).root found
          have found_id := find?_map Plant.id key entries
          dsimp only at entry_eq
          simp only [found_child, Limb.child, found_id]
          cases found_entry : find? key entries with
          | none =>
              have change_eq : plant.root.setChild target
                    (.map (put key branch.id (entries.map fun entry => (entry.1, entry.2.id)))) =
                  plant.root.setChild target (Limb.map (put key branch entries)).child := by
                rw [Limb.child, map_put]
              have map_tidy : (Limb.map (put key branch entries)).child.Tidy :=
                Child.tidy_map ((entries_ascending.put key branch).map Plant.id)
              rw [found_entry] at entry_eq
              simp only [entry_eq, Plant.putEntry, found, Option.map_none, Option.getD_none]
              refine ⟨regrown_setLimb change_eq tidy has has_branch apart map_tidy
                (fun cell member => ?_) fun id => ?_, rfl⟩
              · obtain ⟨entry, in_put, in_entry⟩ := mem_entriesCells.mp member
                rcases mem_put in_put with rfl | in_entries
                · exact .inr in_entry
                · exact .inl (mem_limbsCells.mpr ⟨_, mem_of_find? found,
                    mem_entriesCells.mpr ⟨entry, in_entries, in_entry⟩⟩)
              · have put_eq := total_put entries_ascending (fun plant => countIn id plant.cells) key
                  branch
                rw [found_entry, Option.map_none, Option.getD_none] at put_eq
                rw [found, Option.map_some, Option.getD_some, Limb.cells, Limb.cells,
                  countIn_entriesCells, countIn_entriesCells]
                exact Nat.le_of_eq put_eq
          | some existing =>
              rw [found_entry] at entry_eq
              have taken_up := regrown_takeUp tidy has has_branch apart entry_eq
              simp only [entry_eq, Option.map_some, Option.getD_some]
              exact ⟨taken_up, rfl⟩

/-- Attaching an entry regrows a plant; an entry that is there is the one that the list goes on
filling. -/
theorem regrown_attachKeyed {branch : Plant} {row : Row} {list : TargetList}
    (tidy : ∀ id, (growth.forest.get id).Tidy) (has : growth.forest.Has plant.cells)
    (has_branch : growth.forest.Has branch.cells)
    (apart : ∀ id, countIn id plant.cells + countIn id branch.cells ≤ 1) {column key : String}
    (keyed : list.lookUp.key = some column) (key_eq : keyOf row column = .ok key) :
    ∃ later, growth.attachKeyed row list branch.id plant.id = .ok later ∧
      Regrown growth.forest later.forest plant
        (plant.attachKeyed list.lookUp.parentTarget key branch) branch.cells ∧
      later.current =
        match plant.entryAt? list.lookUp.parentTarget key with
        | some existing => put list.name existing.id growth.current
        | none => growth.current := by
  simp only [attachKeyed, keyed, key_eq, bind, Except.bind]
  cases list.lookUp.parentTarget with
  | none =>
      exact ⟨_, rfl, regrown_attachRootEntry tidy has has_branch apart list.name key⟩
  | some target =>
      exact ⟨_, rfl, regrown_attachEntry tidy has has_branch apart list.name target key⟩

end Growth

end StationGateway.Tree
