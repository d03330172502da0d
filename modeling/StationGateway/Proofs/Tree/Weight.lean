import StationGateway.Proofs.Json.Size
import StationGateway.Proofs.Order.Gather
import StationGateway.Proofs.Tree.Extend

/-!
# What plants weigh

The weight of a plant is what the fields of its objects come to, names and values without quotes, but
of those that stand under names at which other objects may stand: what is attached there is shown in
their place. The JSON text of a plant is at least as long as the plant is heavy, and attaching an
object adds its weight and takes away that of what stood there. -/

namespace StationGateway.Tree

open StationGateway.Order

/-! ## Fields -/

/-- The bytes of fields, names and values, but of those under hidden names. -/
def shownBytes (hidden : List String) (fields : List (String × Json)) : Nat :=
  ((fields.filter fun field => field.1 ∉ hidden).map fun field =>
    field.1.utf8ByteSize + cellSize field.2).sum

@[simp] theorem shownBytes_nil (hidden : List String) : shownBytes hidden [] = 0 := rfl

theorem cellSize_le_bytes (value : Json) : cellSize value ≤ value.bytes := by
  cases value with
  | null => exact Nat.zero_le _
  | string text => exact Json.utf8ByteSize_le_quoted text
  | _ => exact Nat.le_refl _

/-- The fields of an object under whose names nothing is attached. -/
def uncovered {α : Type} (attached : List (String × α)) (fields : List (String × Json)) :
    List (String × Json) :=
  fields.filter fun field => (find? field.1 attached).isNone

/-- What is attached under hidden names covers nothing that is shown. -/
theorem shownBytes_uncovered_congr {α : Type} {hidden : List String} {attached others : List (String × α)}
    (same : ∀ name, name ∉ hidden → find? name attached = find? name others)
    (fields : List (String × Json)) :
    shownBytes hidden (uncovered attached fields) = shownBytes hidden (uncovered others fields) := by
  rw [shownBytes, shownBytes, uncovered, uncovered, List.filter_filter, List.filter_filter]
  congr 2
  refine List.filter_congr fun field _ => ?_
  by_cases is_hidden : field.1 ∈ hidden
  · simp [is_hidden]
  · rw [same field.1 is_hidden]

/-! ## Plants -/

mutual

/-- The weight of a plant. -/
def Plant.weight (hidden : List String) : Plant → Nat
  | .node _ fields limbs => shownBytes hidden (uncovered limbs fields) + limbsWeight hidden limbs

/-- The weight of all that is attached to an object. -/
def limbsWeight (hidden : List String) : List (String × Limb) → Nat
  | [] => 0
  | (_, limb) :: rest => limb.weight hidden + limbsWeight hidden rest

/-- The weight of what is attached under one name. -/
def Limb.weight (hidden : List String) : Limb → Nat
  | .object plant => plant.weight hidden
  | .map entries => entriesWeight hidden entries
  | .list items => itemsWeight hidden items

/-- The weight of the entries of a map. -/
def entriesWeight (hidden : List String) : List (String × Plant) → Nat
  | [] => 0
  | (_, plant) :: rest => plant.weight hidden + entriesWeight hidden rest

/-- The weight of the elements of a list. -/
def itemsWeight (hidden : List String) : List Plant → Nat
  | [] => 0
  | plant :: rest => plant.weight hidden + itemsWeight hidden rest

end

section Weight

variable {hidden : List String} {plant : Plant}

theorem limbsWeight_eq_total (hidden : List String) (limbs : List (String × Limb)) :
    limbsWeight hidden limbs = total (Limb.weight hidden) limbs := by
  induction limbs with
  | nil => rfl
  | cons limb rest induction => rw [limbsWeight, total_cons, induction]

theorem entriesWeight_eq_total (hidden : List String) (entries : List (String × Plant)) :
    entriesWeight hidden entries = total (Plant.weight hidden) entries := by
  induction entries with
  | nil => rfl
  | cons entry rest induction => rw [entriesWeight, total_cons, induction]

theorem itemsWeight_append (hidden : List String) (items others : List Plant) :
    itemsWeight hidden (items ++ others) = itemsWeight hidden items + itemsWeight hidden others := by
  induction items with
  | nil => exact (Nat.zero_add _).symm
  | cons item rest induction =>
      rw [List.cons_append, itemsWeight, itemsWeight, induction, Nat.add_assoc]

theorem Plant.weight_eq (hidden : List String) (plant : Plant) :
    plant.weight hidden =
      shownBytes hidden (uncovered plant.limbs plant.fields) + total (Limb.weight hidden) plant.limbs := by
  cases plant
  rw [Plant.weight, limbsWeight_eq_total]
  rfl

theorem uncovered_nil (fields : List (String × Json)) :
    uncovered ([] : List (String × Limb)) fields = fields :=
  List.filter_eq_self.mpr fun _ _ => rfl

/-- An object with nothing attached weighs what its fields come to. -/
theorem Plant.weight_of_no_limbs (no_limbs : plant.limbs = []) :
    plant.weight hidden = shownBytes hidden plant.fields := by
  rw [weight_eq, no_limbs, uncovered_nil, total_nil, Nat.add_zero]

theorem Plant.weight_of_isBare (bare : plant.isBare = true) : plant.weight hidden = 0 := by
  rw [isBare, Bool.and_eq_true, List.isEmpty_iff, List.isEmpty_iff] at bare
  rw [weight_of_no_limbs bare.2, bare.1, shownBytes_nil]

/-! ### Texts -/

/-- The members of an object with children take at least the room of the fields that no child covers,
and of the children. -/
theorem sum_le_sum_putAll {fields children : List (String × Json)} (fields_nodup : (fields.map (·.1)).Nodup)
    (children_nodup : (children.map (·.1)).Nodup) (room : String × Json → Nat) :
    ((uncovered children fields).map room).sum + (children.map room).sum ≤
      ((putAll fields children).map room).sum := by
  have nodup : ((uncovered children fields ++ children).map (·.1)).Nodup := by
    rw [List.map_append, List.nodup_append]
    refine ⟨(List.filter_sublist.map _).nodup fields_nodup, children_nodup, ?_⟩
    rintro name own _ child rfl
    obtain ⟨field, kept, rfl⟩ := List.mem_map.mp own
    have is_none := (List.mem_filter.mp kept).2
    rw [Option.isNone_iff_eq_none] at is_none
    have found := find?_isSome_iff.mpr child
    rw [is_none] at found
    cases found
  have within : uncovered children fields ++ children ⊆ putAll fields children := by
    intro member either
    refine mem_of_find? ?_
    rw [find?_putAll children_nodup]
    rcases List.mem_append.mp either with own | child
    · obtain ⟨in_fields, is_none⟩ := List.mem_filter.mp own
      rw [Option.isNone_iff_eq_none] at is_none
      rw [is_none, Option.none_or]
      exact find?_eq_some_of_mem fields_nodup in_fields
    · rw [find?_eq_some_of_mem children_nodup child, Option.some_or]
  obtain ⟨same, perm, sublist⟩ := (List.Nodup.of_map _ nodup).subperm within
  rw [← List.sum_append, ← List.map_append, ← (perm.map room).sum_eq]
  exact (sublist.map room).sum_le_sum fun _ _ => Nat.zero_le _

theorem uncovered_limbsJson (limbs : List (String × Limb)) (fields : List (String × Json)) :
    uncovered (limbsJson limbs) fields = uncovered limbs fields := by
  rw [uncovered, uncovered]
  refine List.filter_congr fun field _ => ?_
  rw [limbsJson_eq_map, find?_map, Option.isNone_map]

/-- What fields come to is at most the room that they take. -/
theorem shownBytes_le (hidden : List String) (fields : List (String × Json)) :
    shownBytes hidden fields ≤
      (fields.map fun field => field.1.utf8ByteSize + field.2.bytes).sum := by
  have kept : (fields.filter fun field => field.1 ∉ hidden).Sublist fields := List.filter_sublist
  have kept_le := (kept.map fun field => field.1.utf8ByteSize + cellSize field.2).sum_le_sum
    fun _ _ => Nat.zero_le _
  refine Nat.le_trans kept_le (List.sum_le_sum fun field _ => ?_)
  exact Nat.add_le_add_left (cellSize_le_bytes field.2) _

mutual

/-- The text of a plant is at least as long as the plant is heavy. -/
theorem Plant.weight_le_bytes (plant : Plant) (tidy : ∀ cell ∈ plant.cells, cell.2.Tidy) :
    plant.weight hidden ≤ plant.json.bytes := by
  match plant with
  | .node id fields limbs =>
      rw [Plant.cells, List.forall_mem_cons] at tidy
      obtain ⟨root_tidy, limbs_tidy⟩ := tidy
      have limbs_nodup : ((limbsJson limbs).map (·.1)).Nodup := by
        have children_nodup := nodup_keys root_tidy.children
        rw [childrenOf, List.map_map] at children_nodup
        rw [limbsJson_eq_map, List.map_map]
        exact children_nodup
      have limbs_le := limbsWeight_le limbs limbs_tidy
      have own_le := shownBytes_le hidden (uncovered limbs fields)
      have room := sum_le_sum_putAll (nodup_keys root_tidy.fields) limbs_nodup fun member =>
        member.1.utf8ByteSize + member.2.bytes
      rw [uncovered_limbsJson] at room
      rw [Plant.weight, Plant.json]
      refine Nat.le_trans ?_ (Json.sum_bytes_le_object _)
      exact Nat.le_trans (Nat.add_le_add own_le limbs_le) room

theorem limbsWeight_le (limbs : List (String × Limb))
    (tidy : ∀ cell ∈ limbsCells limbs, cell.2.Tidy) :
    limbsWeight hidden limbs ≤
      ((limbsJson limbs).map fun member => member.1.utf8ByteSize + member.2.bytes).sum := by
  match limbs with
  | [] => exact Nat.zero_le _
  | (name, limb) :: rest =>
      rw [limbsCells, List.forall_mem_append] at tidy
      have limb_le := Limb.weight_le_bytes limb tidy.1
      have rest_le := limbsWeight_le rest tidy.2
      rw [limbsWeight, limbsJson, List.map_cons, List.sum_cons]
      exact Nat.add_le_add (Nat.le_trans limb_le (Nat.le_add_left _ _)) rest_le

theorem Limb.weight_le_bytes (limb : Limb) (tidy : ∀ cell ∈ limb.cells, cell.2.Tidy) :
    limb.weight hidden ≤ limb.json.bytes := by
  match limb with
  | .object plant => exact plant.weight_le_bytes tidy
  | .map entries =>
      exact Nat.le_trans (entriesWeight_le entries tidy) (Json.sum_bytes_le_object _)
  | .list items => exact Nat.le_trans (itemsWeight_le items tidy) (Json.sum_bytes_le_array _)

theorem entriesWeight_le (entries : List (String × Plant))
    (tidy : ∀ cell ∈ entriesCells entries, cell.2.Tidy) :
    entriesWeight hidden entries ≤
      ((entriesJson entries).map fun member => member.1.utf8ByteSize + member.2.bytes).sum := by
  match entries with
  | [] => exact Nat.zero_le _
  | (key, plant) :: rest =>
      rw [entriesCells, List.forall_mem_append] at tidy
      have plant_le := plant.weight_le_bytes tidy.1
      have rest_le := entriesWeight_le rest tidy.2
      rw [entriesWeight, entriesJson, List.map_cons, List.sum_cons]
      exact Nat.add_le_add (Nat.le_trans plant_le (Nat.le_add_left _ _)) rest_le

theorem itemsWeight_le (items : List Plant) (tidy : ∀ cell ∈ itemsCells items, cell.2.Tidy) :
    itemsWeight hidden items ≤ ((itemsJson items).map Json.bytes).sum := by
  match items with
  | [] => exact Nat.zero_le _
  | plant :: rest =>
      rw [itemsCells, List.forall_mem_append] at tidy
      have plant_le := plant.weight_le_bytes tidy.1
      have rest_le := itemsWeight_le rest tidy.2
      rw [itemsWeight, itemsJson, List.map_cons, List.sum_cons]
      exact Nat.add_le_add plant_le rest_le

end

/-! ## Attaching -/

namespace Plant

/-- The weight of what is attached under a name. -/
def weightAt (hidden : List String) (name : String) (plant : Plant) : Nat :=
  ((find? name plant.limbs).map (Limb.weight hidden)).getD 0

theorem weightAt_of_no_limbs (no_limbs : plant.limbs = []) (name : String) :
    plant.weightAt hidden name = 0 := by
  rw [weightAt, no_limbs]
  rfl

theorem weightAt_congr {other : Plant} {name : String}
    (same : find? name other.limbs = find? name plant.limbs) :
    other.weightAt hidden name = plant.weightAt hidden name := by
  rw [weightAt, weightAt, same]

/-- Setting what stands under a hidden name, or below an object without fields. -/
theorem weight_setLimb (ascending : Ascending plant.limbs) {name : String}
    (room : plant.fields = [] ∨ name ∈ hidden) (limb : Limb) :
    (plant.setLimb name limb).weight hidden + plant.weightAt hidden name =
      plant.weight hidden + limb.weight hidden := by
  have put_eq := total_put ascending (Limb.weight hidden) name limb
  have own_eq : shownBytes hidden (uncovered (put name limb plant.limbs) plant.fields) =
      shownBytes hidden (uncovered plant.limbs plant.fields) := by
    rcases room with no_fields | is_hidden
    · rw [no_fields]
      rfl
    · refine shownBytes_uncovered_congr (fun other not_hidden => ?_) _
      have other_ne : other ≠ name := fun same => not_hidden (same ▸ is_hidden)
      rw [find?_put, if_neg other_ne]
  rw [weight_eq, weight_eq hidden plant, weightAt, limbs_setLimb]
  change shownBytes hidden (uncovered _ plant.fields) + _ + _ = _
  rw [own_eq]
  omega

theorem weight_dropLimb {name : String} (is_hidden : name ∈ hidden) :
    (plant.dropLimb name).weight hidden + plant.weightAt hidden name = plant.weight hidden := by
  have erase_eq := total_erase (Limb.weight hidden) name plant.limbs
  have own_eq : shownBytes hidden (uncovered (erase name plant.limbs) plant.fields) =
      shownBytes hidden (uncovered plant.limbs plant.fields) := by
    refine shownBytes_uncovered_congr (fun other not_hidden => ?_) _
    have other_ne : other ≠ name := fun same => not_hidden (same ▸ is_hidden)
    rw [find?_erase_of_ne other_ne]
  rw [weight_eq, weight_eq hidden plant, weightAt]
  change shownBytes hidden (uncovered (erase name plant.limbs) plant.fields) +
    total _ (erase name plant.limbs) + _ = _
  rw [own_eq]
  omega

/-- An object that is folded in takes the place of what was there. -/
theorem weight_attachInline (ascending : Ascending plant.limbs) (showNull : Bool) {target : String}
    (is_hidden : target ∈ hidden) (twig : Plant) :
    (plant.attachInline showNull target twig).weight hidden + plant.weightAt hidden target =
      plant.weight hidden + twig.weight hidden := by
  rw [attachInline]
  split
  next left_out =>
    rw [weight_of_isBare (Bool.and_eq_true_iff.mp left_out).1, weight_dropLimb is_hidden, Nat.add_zero]
  next => exact weight_setLimb ascending (.inr is_hidden) (.object twig)

/-- A further element adds its weight. -/
theorem weight_attachElement (ascending : Ascending plant.limbs) (showNull : Bool) {target : String}
    (is_hidden : target ∈ hidden)
    (is_list : ∀ limb, find? target plant.limbs = some limb → ∃ items, limb = .list items)
    (item : Plant) :
    (plant.attachElement showNull target item).weight hidden =
      plant.weight hidden + item.weight hidden := by
  rw [attachElement]
  split
  next left_out =>
    rw [weight_of_isBare (Bool.and_eq_true_iff.mp left_out).1, Nat.add_zero]
  next =>
    cases found : find? target plant.limbs with
    | none =>
        have set_eq := weight_setLimb ascending (.inr is_hidden) (.list [item])
        rw [weightAt, found, Limb.weight, itemsWeight, itemsWeight] at set_eq
        exact set_eq
    | some limb =>
        obtain ⟨items, rfl⟩ := is_list limb found
        have set_eq := weight_setLimb ascending (.inr is_hidden) (.list (items ++ [item]))
        rw [weightAt, found, Option.map_some, Option.getD_some, Limb.weight, Limb.weight,
          itemsWeight_append, itemsWeight, itemsWeight] at set_eq
        dsimp only
        omega

/-- An entry takes the place of the one that was there under its key. -/
theorem weight_putEntry (tidy : plant.root.Tidy) {target : Option String} (holds : plant.Holds target)
    (room : plant.fields = [] ∨ ∃ name ∈ hidden, target = some name) (key : String) (entry : Plant) :
    (plant.putEntry target key entry).weight hidden +
        ((plant.entryAt? target key).map (weight hidden)).getD 0 =
      plant.weight hidden + entry.weight hidden := by
  have ascending := ascending_limbs tidy
  cases target with
  | none =>
      have no_fields : plant.fields = [] := by
        rcases room with no_fields | ⟨name, -, is_name⟩
        · exact no_fields
        · cases is_name
      have set_eq : (plant.setLimb key (.object entry)).weight hidden + plant.weightAt hidden key =
          plant.weight hidden + entry.weight hidden :=
        weight_setLimb ascending (.inl no_fields) (.object entry)
      have at_eq : ((plant.entryAt? none key).map (weight hidden)).getD 0 = plant.weightAt hidden key := by
        rw [entryAt?, weightAt]
        cases found : find? key plant.limbs with
        | none => rfl
        | some limb =>
            obtain ⟨existing, rfl⟩ := holds key limb found
            rfl
      rw [at_eq]
      exact set_eq
  | some target =>
      have room : plant.fields = [] ∨ target ∈ hidden := by
        rcases room with no_fields | ⟨name, is_hidden, is_name⟩
        · exact .inl no_fields
        · exact .inr (Option.some.inj is_name ▸ is_hidden)
      rw [putEntry, entryAt?]
      cases found : find? target plant.limbs with
      | none =>
          have set_eq := weight_setLimb ascending room (.map [(key, entry)])
          rw [weightAt, found, Limb.weight, entriesWeight, entriesWeight] at set_eq
          exact set_eq
      | some limb =>
          obtain ⟨entries, rfl⟩ := holds limb found
          have set_eq := weight_setLimb ascending room (.map (put key entry entries))
          have put_eq := total_put (ascending_entries tidy found) (weight hidden) key entry
          rw [weightAt, found, Option.map_some, Option.getD_some, Limb.weight, Limb.weight,
            entriesWeight_eq_total, entriesWeight_eq_total] at set_eq
          dsimp only
          omega

end Plant

end Weight

end StationGateway.Tree
