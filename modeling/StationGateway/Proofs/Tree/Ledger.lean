import StationGateway.Proofs.Tree.Bearing
import StationGateway.Proofs.Tree.Renew
import StationGateway.Proofs.Tree.Weight

/-!
# What rows come to

A row is counted with the size of every object that it makes. What of it is shown is less: an element
shows what it takes from other lists once, and what is folded into an object takes the place of what a
row before had folded into it. -/

namespace StationGateway.Tree

open StationGateway.Order

/-! ## Made objects -/

/-- The object of a row for a list and its estimated size. -/
def draftOf (plan : Plan) (row : Row) (list : TargetList) : Draft :=
  objectOf plan.showNull ((find? list.name plan.columns).getD []) row

section Shown

variable (hidden : List String) (showNull : Bool) (fields : TargetList → List (String × Json))

/-- The bytes of the objects of some lists. -/
def shownOf (lists : List TargetList) : Nat :=
  (lists.map fun list => shownBytes hidden (fields list)).sum

/-- Fields with the one that an element takes from the object of a list, unless it is null and left
out. -/
def takeField (own : List (String × Json)) (list : TargetList) : List (String × Json) :=
  let value := (find? (targetOf list) (fields list)).getD .null
  if value.isNull && !showNull then own else put (targetOf list) value own

/-- The fields of an element: those of its list, and those that it takes from the objects of others. -/
def elementFields (leaf : Leaf) : List (String × Json) :=
  leaf.merges.foldl (takeField showNull fields) (fields leaf.list)

/-- The bytes of what stands below an object of whose lists all objects are made anew. -/
def shownBelow (leaf : Option Leaf) : List TargetList → List Tier → Nat
  | inlines, [] => shownOf hidden fields inlines +
      match leaf with
      | none => 0
      | some leaf =>
          shownBytes hidden (elementFields showNull fields leaf) + shownOf hidden fields leaf.inlines
  | inlines, tier :: rest => shownOf hidden fields inlines +
      (shownBytes hidden (fields tier.list) + shownBelow leaf tier.inlines rest)

end Shown

/-- The names under which objects stand in the objects of a layout. -/
def Layout.objectNames (layout : Layout) : List String :=
  layout.levels.flatten.filterMap fun list =>
    if list.lookUp.attachment = .merge then none else list.lookUp.parentTarget

/-- What the rows so far come to. -/
structure Ledger where
  /-- The keys of the row before. -/
  previous : List String
  /-- The rows that have made what is folded into the objects that are being filled, by level. -/
  makers : Nat → Row
  /-- The estimated size of all objects that the rows have made. -/
  counted : Nat
  /-- The bytes of these objects that the rows have put into the tree. -/
  shown : Nat
  /-- The bytes of the objects in whose place others were folded in. -/
  replaced : Nat

namespace Ledger

/-- No row yet. -/
def start : Ledger :=
  ⟨[], fun _ => [], 0, 0, 0⟩

/-- With one more row. From the first level on whose key is new, all objects are made anew; those that
are folded into the object above that level replace the ones that were there. -/
def next (layout : Layout) (plan : Plan) (ledger : Ledger) (row : Row) : Ledger :=
  let keys := keysIn layout.columns row
  let kept := agreement ledger.previous keys
  let beside := inlinesAfter [] layout.tiers kept
  { previous := keys
    makers := fun depth => if depth < kept then ledger.makers depth else row
    counted := ledger.counted +
      ((layout.levels.drop kept).flatten.map fun list => (draftOf plan row list).size).sum
    shown := ledger.shown + shownBelow layout.objectNames plan.showNull (fieldsOf plan row) layout.leaf
      beside (layout.tiers.drop kept)
    replaced := ledger.replaced +
      shownOf layout.objectNames (fieldsOf plan (ledger.makers kept)) beside }

end Ledger

/-- The ledger of some rows with the columns of the first one. -/
def Layout.ledger (layout : Layout) (showNull : Bool) (rows : List Row) : Ledger :=
  rows.foldl (Ledger.next layout { layout.plan 0 (rows.headD []) with showNull }) .start

/-- The bytes that rows are counted with beyond what they show. -/
def Layout.unshown (layout : Layout) (showNull : Bool) (rows : List Row) : Nat :=
  (layout.ledger showNull rows).counted + (layout.ledger showNull rows).replaced -
    (layout.ledger showNull rows).shown

/-! ## New objects -/

section Weight

variable {hidden : List String} (showNull : Bool) {seed : TargetList → Plant}
  {fields : TargetList → List (String × Json)} {leaf : Option Leaf} {parent : Option String}
  {inlines : List TargetList} {tier : Tier} {tiers : List Tier} {keys : List String} {plant : Plant}

/-- Whether new objects have the given fields, and nothing is attached to them. -/
structure Sprouts (seed : TargetList → Plant) (own : TargetList → List (String × Json)) : Prop where
  /-- They have the fields. -/
  fields : ∀ list, (seed list).fields = own list
  /-- The fields are ascending. -/
  ascending : ∀ list, Ascending (own list)
  /-- Nothing is attached. -/
  no_limbs : ∀ list, (seed list).limbs = []

theorem Sprouts.weight (sprouts : Sprouts seed fields) (list : TargetList) :
    (seed list).weight hidden = shownBytes hidden (fields list) := by
  rw [Plant.weight_of_no_limbs (sprouts.no_limbs list), sprouts.fields]

/-- Nothing is folded into a new object yet. -/
theorem Sprouts.sum_weightAt (sprouts : Sprouts seed fields) (list : TargetList)
    (inlines : List TargetList) :
    (inlines.map fun other => (seed list).weightAt hidden (targetOf other)).sum = 0 := by
  refine List.sum_eq_zero fun weight member => ?_
  obtain ⟨other, -, rfl⟩ := List.mem_map.mp member
  exact Plant.weightAt_of_no_limbs (sprouts.no_limbs list) _

theorem Sprouts.tidy (sprouts : Sprouts seed fields) (list : TargetList) : (seed list).root.Tidy := by
  have root_eq : (seed list).root = ⟨fields list, []⟩ := by
    rw [Plant.root, sprouts.fields, sprouts.no_limbs]
    rfl
  rw [root_eq]
  exact ⟨sprouts.ascending list, ascending_nil, fun _ _ member => absurd member List.not_mem_nil⟩

/-- The names under which the objects of some lists stand are hidden. -/
def Hides (hidden : List String) (lists : List TargetList) : Prop :=
  ∀ list ∈ lists, list.lookUp.attachment ≠ .merge → ∀ target ∈ list.lookUp.parentTarget, target ∈ hidden

theorem Hides.exists_hidden (hides : Hides hidden inlines) {list : TargetList} (member : list ∈ inlines)
    {attachment : Attachment} (kind : list.lookUp.attachment = attachment)
    (not_merge : attachment ≠ .merge) (has_target : list.lookUp.parentTarget.isSome) :
    ∃ name ∈ hidden, list.lookUp.parentTarget = some name := by
  obtain ⟨name, name_eq⟩ := Option.isSome_iff_exists.mp has_target
  exact ⟨name, hides list member (kind ▸ not_merge) name name_eq, name_eq⟩

theorem Hides.targetOf_mem (hides : Hides hidden inlines) {list : TargetList} (member : list ∈ inlines)
    {attachment : Attachment} (kind : list.lookUp.attachment = attachment)
    (not_merge : attachment ≠ .merge) (has_target : list.lookUp.parentTarget.isSome) :
    targetOf list ∈ hidden := by
  obtain ⟨name, is_hidden, name_eq⟩ := hides.exists_hidden member kind not_merge has_target
  rw [targetOf, name_eq]
  exact is_hidden

theorem Hides.inline (hides : Hides hidden inlines) {list : TargetList} (member : list ∈ inlines)
    (inline : IsInline parent list) : targetOf list ∈ hidden :=
  hides.targetOf_mem member inline.1 (by decide) inline.2.2

theorem Hides.mono (hides : Hides hidden inlines) {lists : List TargetList}
    (within : ∀ list ∈ lists, list ∈ inlines) : Hides hidden lists :=
  fun list member => hides list (within list member)

/-! ## Grafting -/

theorem tidy_attachInline (tidy : plant.root.Tidy) (showNull : Bool) (target : String) (twig : Plant) :
    (plant.attachInline showNull target twig).root.Tidy := by
  rw [Plant.attachInline]
  split
  · rw [Plant.root_dropLimb]
    exact tidy.dropChild target
  · rw [Plant.root_setLimb]
    exact tidy.setChild target (Child.tidy_object twig.id)

theorem tidy_inlined (tidy : plant.root.Tidy) (inlines : List TargetList) :
    (inlined showNull seed inlines plant).root.Tidy := by
  induction inlines generalizing plant with
  | nil => exact tidy
  | cons list rest induction => exact induction (tidy_attachInline tidy showNull (targetOf list) (seed list))

/-- What is folded in takes the place of what was there. -/
theorem weight_inlined (sprouts : Sprouts seed fields) (hides : Hides hidden inlines)
    (all_inline : AreInlines parent inlines) (tidy : plant.root.Tidy) :
    (inlined showNull seed inlines plant).weight hidden +
        (inlines.map fun list => plant.weightAt hidden (targetOf list)).sum =
      plant.weight hidden + shownOf hidden fields inlines := by
  obtain ⟨all_inline, targets⟩ := all_inline
  induction inlines generalizing plant with
  | nil => rfl
  | cons list rest induction =>
      obtain ⟨target_new, rest_targets⟩ := List.nodup_cons.mp targets
      have first_eq := Plant.weight_attachInline (ascending_limbs tidy) showNull
        (hides.inline List.mem_cons_self (all_inline list List.mem_cons_self)) (seed list)
      have rest_eq := induction (hides.mono fun other => List.mem_cons_of_mem list)
        (tidy_attachInline tidy showNull (targetOf list) (seed list))
        (fun other member => all_inline other (List.mem_cons_of_mem list member)) rest_targets
      have same_rest : (rest.map fun other => (plant.attachInline showNull (targetOf list)
            (seed list)).weightAt hidden (targetOf other)) =
          rest.map fun other => plant.weightAt hidden (targetOf other) := by
        refine List.map_congr_left fun other member => Plant.weightAt_congr ?_
        refine find?_limbs_attachInline (fun same => target_new ?_) (seed list)
        exact same ▸ List.mem_map_of_mem member
      rw [same_rest] at rest_eq
      rw [sprouts.weight] at first_eq
      rw [inlined, List.foldl_cons, ← inlined, List.map_cons, List.sum_cons, shownOf, List.map_cons,
        List.sum_cons, ← shownOf]
      omega

theorem fields_attachMerged_all (sprouts : Sprouts seed fields) (merges : List TargetList)
    (plant : Plant) :
    merges.foldl (fun element list => element.attachMerged showNull (targetOf list) (seed list)) plant =
      .node plant.id (merges.foldl (takeField showNull fields) plant.fields) plant.limbs := by
  induction merges generalizing plant with
  | nil =>
      cases plant
      rfl
  | cons list rest induction =>
      rw [List.foldl_cons, induction, List.foldl_cons, Plant.attachMerged, sprouts.fields, takeField]
      split
      · rfl
      · rfl

/-- An element shows its fields and what is folded into it. -/
theorem weight_elementOf {leaf : Leaf} {beside : List TargetList} (sprouts : Sprouts seed fields)
    (hides : Hides hidden leaf.inlines) (fits : leaf.Fits parent beside) :
    (elementOf showNull seed leaf).weight hidden =
      shownBytes hidden (elementFields showNull fields leaf) + shownOf hidden fields leaf.inlines := by
  obtain ⟨-, -, -, -, -, all_inline⟩ := fits
  have inlined_eq := weight_inlined showNull sprouts hides all_inline
    (sprouts.tidy leaf.list)
  have uncovered_eq : ∀ own, shownBytes hidden
      (uncovered (inlined showNull seed leaf.inlines (seed leaf.list)).limbs own) =
        shownBytes hidden own := by
    intro own
    rw [← uncovered_nil own, shownBytes_uncovered_congr fun name not_hidden => ?_, uncovered_nil]
    rw [find?_limbs_inlined fun list member same => not_hidden ?_, sprouts.no_limbs]
    exact same ▸ hides.inline member (all_inline.1 list member)
  rw [sprouts.sum_weightAt, Plant.weight_eq hidden (inlined _ _ _ _), uncovered_eq, fields_inlined,
    sprouts.weight, sprouts.fields] at inlined_eq
  rw [elementOf, fields_attachMerged_all showNull sprouts, fields_inlined, sprouts.fields, ← elementFields,
    Plant.weight_eq]
  change shownBytes hidden (uncovered _ (elementFields showNull fields leaf)) + total _ _ = _
  rw [Plant.limbs, uncovered_eq]
  omega

theorem mem_levels_of_leaf {leaf : Leaf} (list : TargetList)
    (member : list = leaf.list ∨ list ∈ leaf.merges ∨ list ∈ leaf.inlines) :
    list ∈ (levelsBelow (some leaf) inlines []).flatten :=
  mem_levelsBelow_nil.mpr (.inr ⟨leaf, rfl, member⟩)

/-- New objects attached below an object add what they show, and take the place of what was folded
into it. -/
theorem weight_graft (sprouts : Sprouts seed fields) (fits : FitsBelow leaf parent inlines tiers)
    (hides : Hides hidden (levelsBelow leaf inlines tiers).flatten)
    (length_eq : keys.length = tiers.length) (tidy : plant.root.Tidy)
    (shaped : plant.Shaped leaf tiers)
    (room : plant.fields = [] ∨ ∀ tier ∈ tiers.head?, tier.target.isSome)
    (named : ∀ tier ∈ tiers.tail, tier.target.isSome)
    (fresh : ∀ tier ∈ tiers.head?, ∀ key ∈ keys.head?, plant.entryAt? tier.target key = none) :
    (graft showNull seed leaf inlines tiers keys plant).weight hidden +
        (inlines.map fun list => plant.weightAt hidden (targetOf list)).sum =
      plant.weight hidden + shownBelow hidden showNull fields leaf inlines tiers := by
  induction tiers generalizing plant parent inlines keys with
  | nil =>
      have inlines_eq := weight_inlined showNull sprouts
        (hides.mono fun list member => mem_levelsBelow_nil.mpr (.inl member)) fits.1 tidy
      cases leaf with
      | none => exact inlines_eq
      | some leaf =>
          have leaf_fits := fits.2 leaf rfl
          obtain ⟨leaf_kind, -, has_target, beside, -⟩ := leaf_fits
          have is_hidden : targetOf leaf.list ∈ hidden :=
            hides.targetOf_mem (mem_levels_of_leaf leaf.list (.inl rfl)) leaf_kind (by decide) has_target
          have is_list : ∀ limb,
              find? (targetOf leaf.list) (inlined showNull seed inlines plant).limbs = some limb →
                ∃ items, limb = .list items := by
            intro limb found
            rw [find?_limbs_inlined fun list member => (beside list member).symm] at found
            exact shaped leaf rfl limb found
          have element_eq := weight_elementOf showNull sprouts
            (hides.mono fun list member => mem_levels_of_leaf list (.inr (.inr member)))
            (fits.2 leaf rfl)
          have inlined_tidy : (inlined showNull seed inlines plant).root.Tidy :=
            tidy_inlined showNull tidy inlines
          rw [graft, Plant.weight_attachElement (ascending_limbs inlined_tidy) showNull is_hidden is_list,
            element_eq, shownBelow]
          omega
  | cons tier rest induction =>
      obtain ⟨key, keys, rfl⟩ := List.exists_cons_of_length_eq_add_one length_eq
      obtain ⟨all_inline, tier_fits, rest_fits⟩ := fits
      have inlines_eq := weight_inlined showNull sprouts
        (hides.mono fun list member => mem_levelsBelow_cons.mpr (.inl member)) all_inline tidy
      have new_entry := fresh tier rfl key rfl
      have room : (inlined showNull seed inlines plant).fields = [] ∨
          ∃ name ∈ hidden, tier.target = some name := by
        rw [fields_inlined]
        exact room.imp_right fun has_target => hides.exists_hidden
          (mem_levelsBelow_cons.mpr (.inr (.inl rfl))) tier_fits.1 (by decide) (has_target tier rfl)
      have set_eq := Plant.weight_putEntry (tidy_inlined showNull tidy inlines)
        (holds_inlined shaped.1 tier_fits.2.2.2) room key
        (graft showNull seed leaf tier.inlines rest keys (seed tier.list))
      have branch_eq := induction rest_fits
        (hides.mono fun list member => mem_levelsBelow_cons.mpr (.inr (.inr member)))
        (Nat.succ.inj length_eq) (sprouts.tidy tier.list)
        (Plant.shaped_of_no_limbs (sprouts.no_limbs tier.list) leaf rest)
        (.inr fun next is_head => named next (List.mem_of_mem_head? is_head))
        (fun next member => named next (List.mem_of_mem_tail member))
        fun next _ key _ => Plant.entryAt?_of_no_limbs (sprouts.no_limbs tier.list) next.target key
      rw [sprouts.sum_weightAt, sprouts.weight, Nat.add_zero] at branch_eq
      rw [entryAt?_inlined tier_fits.2.2.2, new_entry, Option.map_none, Option.getD_none, branch_eq]
        at set_eq
      rw [graft, Plant.attachKeyed, entryAt?_inlined tier_fits.2.2.2, new_entry, Option.map_none,
        Option.getD_none, shownBelow]
      omega

/-- A row that goes on filling objects adds what its new objects show, and takes the place of what was
folded into the last object that it goes on filling. -/
theorem weight_extend {kept : Nat} {stem : Plant} (sprouts : Sprouts seed fields)
    (fits : FitsBelow leaf parent inlines tiers)
    (hides : Hides hidden (levelsBelow leaf inlines tiers).flatten)
    (length_eq : keys.length = tiers.length) (kept_le : kept ≤ tiers.length) (tidy : plant.Tidy)
    (shaped : plant.Shaped leaf tiers)
    (room : plant.fields = [] ∨ ∀ tier ∈ tiers.head?, tier.target.isSome)
    (named : ∀ tier ∈ tiers.tail, tier.target.isSome)
    (stem_eq : plant.at? tiers (keys.take kept) = some stem)
    (fresh : ∀ tier ∈ (tiers.drop kept).head?, ∀ key ∈ (keys.drop kept).head?,
      stem.entryAt? tier.target key = none) :
    (extend showNull seed leaf kept inlines tiers keys plant).weight hidden +
        ((inlinesAfter inlines tiers kept).map fun list => stem.weightAt hidden (targetOf list)).sum =
      plant.weight hidden +
        shownBelow hidden showNull fields leaf (inlinesAfter inlines tiers kept) (tiers.drop kept) := by
  induction kept generalizing plant parent inlines tiers keys with
  | zero =>
      obtain rfl := Plant.eq_of_at?_nil stem_eq
      rw [inlinesAfter_zero]
      exact weight_graft showNull sprouts fits hides length_eq tidy.root shaped room named fresh
  | succ kept induction =>
      obtain ⟨tier, rest, key, keys, existing, rfl, rfl, existing_eq, existing_at⟩ :=
        Plant.exists_entry_of_at? length_eq kept_le stem_eq
      obtain ⟨all_inline, tier_fits, rest_fits⟩ := fits
      have room : plant.fields = [] ∨ ∃ name ∈ hidden, tier.target = some name :=
        room.imp_right fun has_target => hides.exists_hidden
          (mem_levelsBelow_cons.mpr (.inr (.inl rfl))) tier_fits.1 (by decide) (has_target tier rfl)
      have existing_grows := induction rest_fits
        (hides.mono fun list member => mem_levelsBelow_cons.mpr (.inr (.inr member)))
        (Nat.succ.inj length_eq) (Nat.le_of_succ_le_succ kept_le) (tidy.entryAt? existing_eq)
        (shaped.2 key existing existing_eq)
        (.inr fun next is_head => named next (List.mem_of_mem_head? is_head))
        (fun next member => named next (List.mem_of_mem_tail member)) existing_at fresh
      have set_eq := Plant.weight_putEntry tidy.root shaped.1 room key
        (extend showNull seed leaf kept tier.inlines rest keys existing)
      rw [existing_eq, Option.map_some, Option.getD_some] at set_eq
      rw [extend, existing_eq, inlinesAfter, List.drop_succ_cons]
      dsimp only
      omega

/-! ## What is folded in -/

/-- Whether what is folded into the objects on a path of keys weighs at most what is given for its
list and level. -/
def Inlaid (hidden : List String) (most : Nat → TargetList → Nat) (inlines : List TargetList)
    (tiers : List Tier) (keys : List String) (plant : Plant) : Prop :=
  ∀ depth ≤ tiers.length, ∀ object, plant.at? tiers (keys.take depth) = some object →
    ∀ list ∈ inlinesAfter inlines tiers depth, object.weightAt hidden (targetOf list) ≤ most depth list

/-- What is folded in weighs what its new object shows. -/
theorem weightAt_inlined_le (sprouts : Sprouts seed fields) (tidy : plant.root.Tidy)
    (targets : (inlines.map targetOf).Nodup) {list : TargetList} (member : list ∈ inlines) :
    (inlined showNull seed inlines plant).weightAt hidden (targetOf list) ≤
      shownBytes hidden (fields list) := by
  induction inlines generalizing plant with
  | nil => cases member
  | cons first rest induction =>
      obtain ⟨target_new, rest_targets⟩ := List.nodup_cons.mp targets
      rw [inlined, List.foldl_cons, ← inlined]
      rcases List.mem_cons.mp member with rfl | in_rest
      · have same := @find?_limbs_inlined showNull seed
          (plant.attachInline showNull (targetOf list) (seed list)) (targetOf list) rest
          fun other member same => target_new (same ▸ List.mem_map_of_mem member)
        rw [Plant.weightAt_congr same, Plant.weightAt, Plant.attachInline]
        split
        · rw [Plant.dropLimb, Plant.limbs, find?_erase (ascending_limbs tidy), if_pos rfl]
          exact Nat.zero_le _
        · rw [Plant.limbs_setLimb, find?_put, if_pos rfl]
          exact Nat.le_of_eq (sprouts.weight list)
      · exact induction (tidy_attachInline tidy showNull (targetOf first) (seed first)) rest_targets
          in_rest

theorem weightAt_graft_le (sprouts : Sprouts seed fields) (fits : FitsBelow leaf parent inlines tiers)
    (tidy : plant.root.Tidy) {list : TargetList} (member : list ∈ inlines) :
    (graft showNull seed leaf inlines tiers keys plant).weightAt hidden (targetOf list) ≤
      shownBytes hidden (fields list) := by
  match tiers, keys with
  | [], _ =>
      cases leaf with
      | none => exact weightAt_inlined_le showNull sprouts tidy fits.1.2 member
      | some leaf =>
          have beside := (fits.2 leaf rfl).2.2.2.1 list member
          rw [graft, Plant.weightAt_congr (find?_limbs_attachElement_of_ne beside _)]
          exact weightAt_inlined_le showNull sprouts tidy fits.1.2 member
  | _ :: _, [] => exact weightAt_inlined_le showNull sprouts tidy fits.1.2 member
  | tier :: rest, key :: keys =>
      obtain ⟨has_target, ne⟩ := fits.2.1.2.2.2 list member
      rw [graft, Plant.attachKeyed, Plant.weightAt_congr (find?_limbs_putEntry has_target ne _ _)]
      exact weightAt_inlined_le showNull sprouts tidy fits.1.2 member

theorem inlaid_graft (sprouts : Sprouts seed fields) (fits : FitsBelow leaf parent inlines tiers)
    (length_eq : keys.length = tiers.length) (tidy : plant.root.Tidy)
    (shaped : plant.Shaped leaf tiers)
    (fresh : ∀ tier ∈ tiers.head?, ∀ key ∈ keys.head?, plant.entryAt? tier.target key = none) :
    Inlaid hidden (fun _ list => shownBytes hidden (fields list)) inlines tiers keys
      (graft showNull seed leaf inlines tiers keys plant) := by
  induction tiers generalizing plant parent inlines keys with
  | nil =>
      intro depth depth_le object found list member
      obtain rfl := Nat.le_zero.mp depth_le
      obtain rfl := Plant.eq_of_at?_nil found
      exact weightAt_graft_le showNull sprouts fits tidy member
  | cons tier rest induction =>
      obtain ⟨key, keys, rfl⟩ := List.exists_cons_of_length_eq_add_one length_eq
      intro depth depth_le object found list member
      cases depth with
      | zero =>
          obtain rfl := Plant.eq_of_at?_nil found
          exact weightAt_graft_le showNull sprouts fits tidy member
      | succ depth =>
          have new_entry := fresh tier rfl key rfl
          rw [List.take_succ_cons, Plant.at?, entryAt?_graft shaped.1 fits.2.1, if_pos rfl, new_entry,
            Option.map_none, Option.getD_none, Option.bind_some] at found
          exact induction fits.2.2 (Nat.succ.inj length_eq) (sprouts.tidy tier.list)
            (Plant.shaped_of_no_limbs (sprouts.no_limbs tier.list) leaf rest)
            (fun next _ key _ => Plant.entryAt?_of_no_limbs (sprouts.no_limbs tier.list) next.target key)
            depth (Nat.le_of_succ_le_succ depth_le) object found list member

/-- A row makes anew what is folded in from the last object on that it goes on filling. -/
theorem Inlaid.extend {kept : Nat} {stem : Plant} {most : Nat → TargetList → Nat}
    (sprouts : Sprouts seed fields) (fits : FitsBelow leaf parent inlines tiers)
    (length_eq : keys.length = tiers.length) (kept_le : kept ≤ tiers.length) (tidy : plant.Tidy)
    (shaped : plant.Shaped leaf tiers) (stem_eq : plant.at? tiers (keys.take kept) = some stem)
    (fresh : ∀ tier ∈ (tiers.drop kept).head?, ∀ key ∈ (keys.drop kept).head?,
      stem.entryAt? tier.target key = none)
    (inlaid : ∀ depth < kept, ∀ object, plant.at? tiers (keys.take depth) = some object →
      ∀ list ∈ inlinesAfter inlines tiers depth,
        object.weightAt hidden (targetOf list) ≤ most depth list) :
    Inlaid hidden
      (fun depth list => if depth < kept then most depth list else shownBytes hidden (fields list))
      inlines tiers keys (extend showNull seed leaf kept inlines tiers keys plant) := by
  induction kept generalizing plant parent inlines tiers keys most with
  | zero =>
      obtain rfl := Plant.eq_of_at?_nil stem_eq
      exact inlaid_graft showNull sprouts fits length_eq tidy.root shaped fresh
  | succ kept induction =>
      obtain ⟨tier, rest, key, keys, existing, rfl, rfl, existing_eq, existing_at⟩ :=
        Plant.exists_entry_of_at? length_eq kept_le stem_eq
      have below : ∀ depth < kept, ∀ object, existing.at? rest (keys.take depth) = some object →
          ∀ list ∈ inlinesAfter tier.inlines rest depth,
            object.weightAt hidden (targetOf list) ≤ most (depth + 1) list := by
        intro depth lt object found
        refine inlaid (depth + 1) (Nat.succ_lt_succ lt) object ?_
        rw [List.take_succ_cons, Plant.at?, existing_eq]
        exact found
      have grown := induction fits.2.2 (Nat.succ.inj length_eq) (Nat.le_of_succ_le_succ kept_le)
        (tidy.entryAt? existing_eq) (shaped.2 key existing existing_eq) existing_at fresh below
      intro depth depth_le object found list member
      rw [Tree.extend, existing_eq] at found
      dsimp only at found ⊢
      cases depth with
      | zero =>
          obtain rfl := Plant.eq_of_at?_nil found
          obtain ⟨has_target, ne⟩ := fits.2.1.2.2.2 list member
          rw [if_pos (Nat.succ_pos kept), Plant.weightAt_congr (find?_limbs_putEntry has_target ne _ _)]
          exact inlaid 0 (Nat.succ_pos kept) plant (Plant.at?_nil _ _) list member
      | succ depth =>
          rw [List.take_succ_cons, Plant.at?, Plant.entryAt?_putEntry shaped.1, if_pos rfl,
            Option.bind_some] at found
          have le := grown depth (Nat.le_of_succ_le_succ depth_le) object found list member
          simp only [Nat.succ_lt_succ_iff]
          exact le

end Weight

end StationGateway.Tree
