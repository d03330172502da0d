import StationGateway.Proofs.Tree.Filing
import StationGateway.Proofs.Tree.Owners

/-!
# Trees that show what was selected

While rows are added, every object stays one of the list that it was made for. So each name in a tree
is explained by the lists and rows that the tree is made from. -/

namespace StationGateway.Tree

open StationGateway.Order

/-! ## New objects -/

section Extending

variable {material : Material} {owners more : Owners} {owner : Option String} {name : String}

/-- Whether objects keep their owners. -/
def Owners.Within (owners more : Owners) : Prop :=
  ∀ (node : NodeId) (owner : Option String), owners[node]? = some owner → more[node]? = some owner

theorem Owners.within_append (owners : Owners) (owner : Option String) :
    owners.Within (owners ++ [owner]) := by
  intro node own own_eq
  have lt := (List.getElem?_eq_some_iff.mp own_eq).1
  rw [List.getElem?_append_left lt]
  exact own_eq

theorem ChildOf.mono (within : owners.Within more) {child : Child}
    (child_of : ChildOf material owners owner name child) :
    ChildOf material more owner name child := by
  cases child_of with
  | inline hangs has => exact .inline hangs (within _ _ has)
  | entry hangs is_key has => exact .entry hangs is_key (within _ _ has)
  | map hangs keys has => exact .map hangs keys fun entry member => within _ _ (has entry member)
  | list hangs has => exact .list hangs fun item member => within _ _ (has item member)

theorem Node.IsOf.mono (within : owners.Within more) {node : Node}
    (is_of : node.IsOf material owners owner) : node.IsOf material more owner :=
  ⟨is_of.fields, fun child member => (is_of.children child member).mono within⟩

/-- One more object, of some owner. -/
theorem Forest.Owned.push {forest : Forest} (owned : forest.Owned material owners) {node : Node}
    (is_of : node.IsOf material owners owner) :
    (forest.push node).Owned material (owners ++ [owner]) where
  length := by rw [List.length_append, Forest.next_push, owned.length]; rfl
  root := Owners.within_append owners owner _ _ owned.root
  nodes := by
    intro id other other_eq
    have within := Owners.within_append owners owner
    by_cases is_new : id = forest.next
    · subst is_new
      rw [← owned.length, List.getElem?_concat_length] at other_eq
      obtain rfl := Option.some.inj other_eq
      rw [Forest.get_push_self]
      exact is_of.mono within
    · have lt_succ := (List.getElem?_eq_some_iff.mp other_eq).1
      rw [List.length_append, owned.length] at lt_succ
      have lt : id < owners.length := by
        rw [owned.length]
        exact Nat.lt_of_le_of_ne (Nat.le_of_lt_succ lt_succ) is_new
      rw [List.getElem?_append_left lt] at other_eq
      rw [Forest.get_push_of_ne is_new]
      exact (owned.nodes id other other_eq).mono within

end Extending

/-! ## Growing -/

/-- Whether the objects of a growth are of lists, those that a list is filling of that list. -/
structure Growth.Owned (material : Material) (owners : Owners) (growth : Growth) : Prop where
  /-- Every object is one of its owner. -/
  forest : growth.forest.Owned material owners
  /-- Lists fill their own objects. -/
  current : ∀ name node, growth.nodeOf? name = some node → owners[node]? = some (some name)

/-- Whether every list is filling an object. -/
def Growth.Fills (growth : Growth) (lists : List TargetList) : Prop :=
  ∀ list ∈ lists, (growth.nodeOf? list.name).isSome

/-- A plan that makes a tree from some material. -/
structure Plan.Makes (plan : Plan) (material : Material) : Prop where
  /-- The lists of its levels are those of the tree. -/
  lists : plan.levels.flatten = material.lists
  /-- Lists have the columns that the rows have for them. -/
  columns : ∀ list ∈ material.lists, (find? list.name plan.columns).getD [] = material.columns list
  /-- Nulls are shown or not. -/
  showNull : plan.showNull = material.showNull

namespace Growth

variable {material : Material} {owners : Owners} {plan : Plan} {row : Row} {growth later : Growth}
  {list : TargetList} {node parent : NodeId}

theorem owned_start (material : Material) : Growth.start.Owned material [none] where
  forest :=
    { length := rfl
      root := rfl
      nodes := by
        intro id owner owner_eq
        have start_eq : Growth.start.forest.get id = .empty := by
          match id with
          | 0 => rfl
          | id + 1 => exact Forest.get_of_next_le (Nat.le_add_left 1 id)
        rw [start_eq]
        exact Node.isOf_empty material _ owner }
  current := fun name node found => by cases found

/-- A new object is one of its list. -/
theorem Owned.renew (makes : plan.Makes material) (row_in : row ∈ material.rows)
    (owned : growth.Owned material owners) (list_in : list ∈ material.lists) :
    (growth.renew plan row list).Owned material (owners ++ [some list.name]) where
  forest := by
    refine owned.forest.push ⟨fun field member => ?_, fun _ member => absurd member List.not_mem_nil⟩
    rw [makes.columns list list_in, makes.showNull] at member
    exact .own list_in (showsColumns_objectOf row_in field member)
  current := by
    intro name node found
    rw [nodeOf?, Growth.renew, find?_put] at found
    split_ifs at found with is_list
    · obtain rfl := Option.some.inj found
      rw [is_list, ← owned.forest.length]
      exact List.getElem?_concat_length
    · exact Owners.within_append owners _ _ _ (owned.current name node found)

theorem fills_renew (plan : Plan) (row : Row) (growth : Growth) (lists : List TargetList)
    (list : TargetList) (filled : growth.Fills lists) :
    (growth.renew plan row list).Fills (list :: lists) := by
  intro other member
  rw [nodeOf?, Growth.renew, find?_put]
  split_ifs with same
  · rfl
  · rcases List.mem_cons.mp member with rfl | in_lists
    · exact absurd rfl same
    · exact filled other in_lists

/-- New objects of a row for several lists. -/
theorem Owned.renew_all (makes : plan.Makes material) (row_in : row ∈ material.rows)
    {lists : List TargetList} (lists_in : ∀ list ∈ lists, list ∈ material.lists)
    (owned : growth.Owned material owners) :
    ∃ more, (lists.foldl (Growth.renew plan row) growth).Owned material more := by
  induction lists generalizing growth owners with
  | nil => exact ⟨owners, owned⟩
  | cons list rest induction =>
      have first_owned := owned.renew makes row_in (lists_in list List.mem_cons_self)
      exact induction (fun other member => lists_in other (List.mem_cons_of_mem list member))
        first_owned

theorem fills_renew_all (plan : Plan) (row : Row) (growth : Growth)
    {lists filled_lists : List TargetList} (filled : growth.Fills filled_lists) :
    (lists.foldl (Growth.renew plan row) growth).Fills (lists ++ filled_lists) := by
  induction lists generalizing growth filled_lists with
  | nil => exact filled
  | cons list rest induction =>
      have later_filled := induction (growth.renew plan row list)
        (fills_renew plan row growth filled_lists list filled)
      intro other member
      refine later_filled other ?_
      rw [List.cons_append, List.mem_cons, List.mem_append] at member
      rw [List.mem_append, List.mem_cons]
      tauto

/-! ### Attaching -/

/-- The parent that a list attaches to is one of the list's parent. -/
theorem Owned.parentOf (clear : material.Clear) (owned : growth.Owned material owners)
    (filled : growth.Fills material.lists) (list_in : list ∈ material.lists) :
    owners[growth.parentOf list.lookUp]? = some list.lookUp.parentList := by
  rw [Growth.parentOf]
  cases parent_eq : list.lookUp.parentList with
  | none => exact owned.forest.root
  | some parent =>
      obtain ⟨other, other_in, rfl⟩ := clear.parents list list_in parent parent_eq
      obtain ⟨node, node_eq⟩ := Option.isSome_iff_exists.mp (filled other other_in)
      rw [Option.bind_some, node_eq, Option.getD_some]
      exact owned.current other.name node node_eq

/-- A change of a parent that keeps it one of its owner. -/
theorem Owned.update (owned : growth.Owned material owners) {owner : Option String}
    (parent_owner : owners[parent]? = some owner) {change : Node → Node}
    (changed : (growth.forest.get parent).IsOf material owners owner →
      (change (growth.forest.get parent)).IsOf material owners owner) :
    (growth.update parent change).Owned material owners where
  forest := by
    refine owned.forest.update fun other other_eq is_of => ?_
    obtain rfl : owner = other := Option.some.inj (parent_owner.symm.trans other_eq)
    exact changed is_of
  current := owned.current

/-- An object that takes up another one of its list. -/
theorem Owned.takeUp (clear : material.Clear) (owned : growth.Owned material owners)
    {existing : NodeId} (has : owners.Has list node) (same : owners.Same (node, existing)) :
    (growth.takeUp list.name node existing).Owned material owners where
  forest := owned.forest.absorb clear same
  current := by
    intro name other found
    rw [nodeOf?, Growth.takeUp, find?_put] at found
    split_ifs at found with is_list
    · obtain rfl := Option.some.inj found
      obtain ⟨owner, node_owner, existing_owner⟩ := same
      obtain rfl : some list.name = owner := Option.some.inj (has.symm.trans node_owner)
      exact is_list ▸ existing_owner
    · exact owned.current name other found

section Attaching

variable {owner : Option String} (owned : growth.Owned material owners)
  (parent_owner : owners[parent]? = some owner) (has : owners.Has list node)
include owned parent_owner has

theorem Owned.attachInline {target : String} (hangs : material.Hangs list .inline owner (some target))
    (showNull : Bool) : (growth.attachInline showNull node parent target).Owned material owners := by
  rw [Growth.attachInline]
  split
  · exact owned.update parent_owner fun is_of => is_of.dropChild target
  · exact owned.update parent_owner fun is_of => is_of.setChild (.inline hangs has)

theorem Owned.attachMerged {target : String} (hangs : material.Hangs list .merge owner (some target)) :
    (growth.attachMerged material.showNull node parent target).Owned material owners := by
  rw [Growth.attachMerged]
  split_ifs with left_out
  · exact owned
  · refine owned.update parent_owner fun is_of => is_of.setField ?_
    cases found : find? target (growth.forest.get node).fields with
    | some value =>
        have value_of := (owned.forest.nodes node _ has).fields _ (mem_of_find? found)
        exact .merged hangs value_of
    | none =>
        rw [found] at left_out
        exact .filled hangs (by simpa [Json.isNull] using left_out)

theorem Owned.attachElement (clear : material.Clear) {target : String}
    (hangs : material.Hangs list .list owner (some target)) (showNull : Bool) :
    (growth.attachElement showNull node parent target).Owned material owners := by
  rw [Growth.attachElement]
  split
  · exact owned
  · exact owned.update parent_owner fun is_of => is_of.pushItem clear hangs has

theorem Owned.attachRootEntry (clear : material.Clear) {key : String}
    (hangs : material.Hangs list .map owner none) (is_key : material.IsKey list key) :
    (growth.attachRootEntry list.name node parent key).Owned material owners := by
  rw [Growth.attachRootEntry]
  have parent_of := owned.forest.nodes parent owner parent_owner
  split
  next existing found =>
    have existing_of := parent_of.children _ (mem_of_find? found)
    exact owned.takeUp clear has (existing_of.same clear (.entry hangs is_key has))
  next => exact owned.update parent_owner fun is_of => is_of.setChild (.entry hangs is_key has)

theorem Owned.attachEntry (clear : material.Clear) {target key : String}
    (hangs : material.Hangs list .map owner (some target)) (is_key : material.IsKey list key) :
    (growth.attachEntry list.name node parent target key).Owned material owners := by
  rw [Growth.attachEntry]
  have parent_of := owned.forest.nodes parent owner parent_owner
  split
  next =>
    refine owned.update parent_owner fun is_of => is_of.setChild (.map hangs ?_ ?_)
    · exact fun entry member => List.mem_singleton.mp member ▸ is_key
    · exact fun entry member => List.mem_singleton.mp member ▸ has
  next entries found =>
    cases parent_of.children _ (mem_of_find? found) with
    | map other_hangs keys entries_of =>
        obtain rfl := clear.eq_of_hangs hangs other_hangs (by decide) (by decide) (.inl rfl)
        split
        next existing found_entry =>
          have existing_of := entries_of _ (mem_of_find? found_entry)
          exact owned.takeUp clear has ⟨some list.name, has, existing_of⟩
        next =>
          refine owned.update parent_owner fun is_of => is_of.setChild (.map hangs ?_ ?_)
          · intro entry member
            rcases mem_put member with rfl | in_entries
            · exact is_key
            · exact keys entry in_entries
          · intro entry member
            rcases mem_put member with rfl | in_entries
            · exact has
            · exact entries_of entry in_entries
  next => exact owned

end Attaching

theorem isKey_of_keyOf {column key : String} (row_in : row ∈ material.rows)
    (key_column : list.lookUp.key = some column) (key_eq : keyOf row column = .ok key) :
    material.IsKey list key := by
  rw [keyOf] at key_eq
  split at key_eq
  next text found =>
    obtain rfl := Except.ok.inj key_eq
    exact ⟨column, key_column, row, row_in, found⟩
  next => cases key_eq

/-- Attaching puts the object of a list where the list belongs. -/
theorem Owned.attach (clear : material.Clear) (makes : plan.Makes material)
    (row_in : row ∈ material.rows) (owned : growth.Owned material owners)
    (filled : growth.Fills material.lists) (list_in : list ∈ material.lists)
    (attached : growth.attach plan row list = .ok later) : later.Owned material owners := by
  have parent_owner := owned.parentOf clear filled list_in
  rw [Growth.attach] at attached
  cases node_eq : growth.nodeOf? list.name with
  | none =>
      rw [node_eq] at attached
      exact Except.ok.inj attached ▸ owned
  | some node =>
      have has : owners.Has list node := owned.current list.name node node_eq
      rw [node_eq] at attached
      dsimp only at attached
      split at attached
      next _ kind =>
        rw [attachKeyed] at attached
        cases key_column : list.lookUp.key with
        | none =>
            rw [key_column] at attached
            exact Except.ok.inj attached ▸ owned
        | some column =>
            rw [key_column] at attached
            obtain ⟨key, key_eq, attached⟩ := Outcome.bind_eq_ok_iff.mp attached
            have is_key := isKey_of_keyOf row_in key_column key_eq
            cases target_eq : list.lookUp.parentTarget with
            | none =>
                rw [target_eq] at attached
                obtain rfl := Except.ok.inj attached
                exact owned.attachRootEntry parent_owner has clear ⟨list_in, kind, rfl, target_eq⟩ is_key
            | some target =>
                rw [target_eq] at attached
                obtain rfl := Except.ok.inj attached
                exact owned.attachEntry parent_owner has clear ⟨list_in, kind, rfl, target_eq⟩ is_key
      next => exact Except.ok.inj attached ▸ owned
      next kind target_eq =>
        obtain rfl := Except.ok.inj attached
        exact owned.attachInline parent_owner has ⟨list_in, kind, rfl, target_eq⟩ plan.showNull
      next kind target_eq =>
        obtain rfl := Except.ok.inj attached
        rw [makes.showNull]
        exact owned.attachMerged parent_owner has ⟨list_in, kind, rfl, target_eq⟩
      next kind target_eq =>
        obtain rfl := Except.ok.inj attached
        exact owned.attachElement parent_owner has clear ⟨list_in, kind, rfl, target_eq⟩ plan.showNull

/-- Attaching leaves no list without an object. -/
theorem Attaches.fills {name : String} (attaches : Attaches growth name node parent later)
    {lists : List TargetList} (filled : growth.Fills lists) : later.Fills lists := by
  cases attaches with
  | idle => exact filled
  | change change tidy count => exact filled
  | takeUp existing below =>
      intro other member
      rw [nodeOf?, Growth.takeUp, find?_put]
      split_ifs with is_list
      · rfl
      · exact filled other member

theorem tidy_renew_all (plan : Plan) (row : Row) (lists : List TargetList)
    (tidy : ∀ id, (growth.forest.get id).Tidy) (id : NodeId) :
    ((lists.foldl (Growth.renew plan row) growth).forest.get id).Tidy := by
  induction lists generalizing growth with
  | nil => exact tidy id
  | cons list rest induction =>
      refine induction (tidy_push tidy ⟨ascending_objectOf _ _ row, ascending_nil, ?_⟩)
      exact fun _ _ member => absurd member List.not_mem_nil

/-- The objects of a row attach where their lists belong. -/
theorem Owned.attach_all (clear : material.Clear) (makes : plan.Makes material)
    (row_in : row ∈ material.rows) {order : List TargetList}
    (order_in : ∀ list ∈ order, list ∈ material.lists) (owned : growth.Owned material owners)
    (filled : growth.Fills material.lists) (tidy : ∀ id, (growth.forest.get id).Tidy)
    (attached : order.foldlM (Growth.attach plan row) growth = .ok later) :
    later.Owned material owners ∧ later.Fills material.lists ∧
      ∀ id, (later.forest.get id).Tidy := by
  induction order generalizing growth with
  | nil =>
      obtain rfl := Except.ok.inj attached
      exact ⟨owned, filled, tidy⟩
  | cons list rest induction =>
      rw [List.foldlM_cons] at attached
      obtain ⟨middle, attached_list, attached_rest⟩ := Outcome.bind_eq_ok_iff.mp attached
      have list_in := order_in list List.mem_cons_self
      obtain ⟨node, node_eq⟩ := Option.isSome_iff_exists.mp (filled list list_in)
      have attaches := attaches_of_attach tidy node_eq attached_list
      exact induction (fun other member => order_in other (List.mem_cons_of_mem list member))
        (owned.attach clear makes row_in filled list_in attached_list) (attaches.fills filled)
        (attaches.steady tidy).tidy attached_rest

/-! ### Rows -/

/-- A growth that shows nothing but what there is, in which every list is filling an object once there
is a row. -/
structure Explained (material : Material) (growth : Growth) : Prop where
  /-- Every object is one of its owner. -/
  owned : ∃ owners, growth.Owned material owners
  /-- After a row, every list is filling an object. -/
  filled : growth.previous = none ∨ growth.Fills material.lists
  /-- Maps are ascending. -/
  tidy : ∀ id, (growth.forest.get id).Tidy

theorem explained_start (material : Material) : Growth.start.Explained material where
  owned := ⟨[none], owned_start material⟩
  filled := .inl rfl
  tidy := Forest.sound_start.tidy

/-- One more row shows nothing but what there is. -/
theorem Explained.addRow (clear : material.Clear) (makes : plan.Makes material)
    (row_in : row ∈ material.rows) (explained : growth.Explained material)
    (added : growth.addRow plan row = .ok later) : later.Explained material := by
  rw [Growth.addRow] at added
  obtain ⟨keys, -, added⟩ := Outcome.bind_eq_ok_iff.mp added
  obtain ⟨attached, attached_eq, checked⟩ := Outcome.bind_eq_ok_iff.mp added
  generalize levels_eq : plan.levels.drop (growth.keptLevels keys) = levels at attached_eq
  have levels_in : ∀ list ∈ levels.flatten, list ∈ material.lists := by
    intro list member
    obtain ⟨level, level_in, in_level⟩ := List.mem_flatten.mp member
    rw [← levels_eq] at level_in
    exact makes.lists ▸ List.mem_flatten.mpr ⟨level, List.mem_of_mem_drop level_in, in_level⟩
  obtain ⟨owners, owned⟩ := explained.owned
  obtain ⟨more, renewed_owned⟩ := owned.renew_all makes row_in levels_in
  -- the first row has a new object for every list, later rows have one where lists lack none
  have filled : (levels.flatten.foldl (Growth.renew plan row) growth).Fills material.lists := by
    rcases explained.filled with is_first | was_filled
    · have all_levels : levels = plan.levels := by
        rw [← levels_eq, keptLevels, is_first]
        rfl
      have renewed_filled := @fills_renew_all plan row growth levels.flatten []
        fun _ member => absurd member List.not_mem_nil
      rw [List.append_nil, all_levels, makes.lists] at renewed_filled
      rw [all_levels, makes.lists]
      exact renewed_filled
    · intro list member
      exact fills_renew_all plan row growth was_filled list (List.mem_append_right _ member)
  have order_in : ∀ list ∈ orderBelow levels, list ∈ material.lists := fun list member =>
    levels_in list ((orderBelow_perm levels).mem_iff.mp member)
  obtain ⟨attached_owned, attached_filled, attached_tidy⟩ := renewed_owned.attach_all clear makes row_in
    order_in filled (tidy_renew_all plan row _ explained.tidy) attached_eq
  have later_eq : later = { attached with previous := some keys } := by
    rw [checkSize] at checked
    split at checked
    · split_ifs at checked
      exact (Except.ok.inj checked).symm
    · exact (Except.ok.inj checked).symm
  rw [later_eq]
  exact ⟨⟨more, attached_owned.forest, attached_owned.current⟩, .inr attached_filled, attached_tidy⟩

/-- Rows show nothing but what there is. -/
theorem Explained.addRows (clear : material.Clear) (makes : plan.Makes material) {rows : List Row}
    (rows_in : ∀ row ∈ rows, row ∈ material.rows) (explained : growth.Explained material)
    (grown : rows.foldlM (Growth.addRow plan) growth = .ok later) : later.Explained material := by
  induction rows generalizing growth with
  | nil => exact Except.ok.inj grown ▸ explained
  | cons row rest induction =>
      rw [List.foldlM_cons] at grown
      obtain ⟨middle, added, grown_rest⟩ := Outcome.bind_eq_ok_iff.mp grown
      exact induction (fun other member => rows_in other (List.mem_cons_of_mem row member))
        (explained.addRow clear makes (rows_in row List.mem_cons_self) added) grown_rest

end Growth

/-! ## Showing -/

section Showing

variable {material : Material} {owners : Owners} {owner : Option String} {forest : Forest}
  {depth : Nat}

/-- What hangs below an object is shown as what it is. -/
theorem ChildOf.showsMember {name : String} {child : Child}
    (child_of : ChildOf material owners owner name child)
    (below : ∀ id owner, owners[id]? = some owner → material.Shows owner (renderNode forest depth id)) :
    material.ShowsMember owner name (childJson forest depth child) := by
  cases child_of with
  | inline hangs has => exact .inline hangs (below _ _ has)
  | entry hangs is_key has => exact .entry hangs is_key (below _ _ has)
  | map hangs keys has =>
      refine .map hangs (fun key value within => ?_) fun key value within => ?_
      · obtain ⟨entry, entry_in, same⟩ := List.mem_map.mp within
        obtain ⟨rfl, -⟩ := Prod.mk.inj same
        exact keys entry entry_in
      · obtain ⟨entry, entry_in, same⟩ := List.mem_map.mp within
        obtain ⟨-, rfl⟩ := Prod.mk.inj same
        exact below entry.2 _ (has entry entry_in)
  | list hangs has =>
      refine .list hangs fun item within => ?_
      obtain ⟨node, node_in, rfl⟩ := List.mem_map.mp within
      exact below node _ (has node node_in)

/-- An object of a forest is shown as one of its owner. -/
theorem Forest.Owned.shows (owned : forest.Owned material owners) (depth : Nat) (id : NodeId)
    (owner : Option String) (owner_eq : owners[id]? = some owner) :
    material.Shows owner (renderNode forest depth id) := by
  induction depth generalizing id owner with
  | zero =>
      rw [renderNode]
      exact .object fun name value member => absurd member List.not_mem_nil
  | succ depth induction =>
      have is_of := owned.nodes id owner owner_eq
      rw [renderNode]
      refine .object fun name value member => ?_
      rcases mem_putAll member with is_field | is_child
      · exact .field (is_of.fields (name, value) is_field)
      · rw [renderChildren_eq_map] at is_child
        obtain ⟨child, child_in, same⟩ := List.mem_map.mp is_child
        obtain ⟨rfl, rfl⟩ := Prod.mk.inj same
        exact (is_of.children child child_in).showsMember induction

end Showing

/-! ## Trees of layouts -/

section Trees

variable {layout : Layout} {showNull : Bool} {sizeLimit : Int} {rows : List Row} {tree : Json}

/-- What the tree of a layout is made from. -/
def Layout.material (layout : Layout) (rows : List Row) (showNull : Bool) : Material :=
  ⟨layout.levels.flatten, rows, showNull⟩

theorem Layout.clear (served : layout ∈ Layout.served) (rows : List Row) (showNull : Bool) :
    (layout.material rows showNull).Clear := by
  have all_clear : ∀ layout ∈ Layout.served, (∀ list ∈ layout.levels.flatten,
      ∀ parent ∈ list.lookUp.parentList, ∃ other ∈ layout.levels.flatten, other.name = parent) ∧
      ∀ list ∈ layout.levels.flatten, ∀ other ∈ layout.levels.flatten,
        list.lookUp.attachment ≠ .merge → other.lookUp.attachment ≠ .merge →
        list.lookUp.parentList = other.lookUp.parentList →
        list.lookUp.parentTarget = other.lookUp.parentTarget ∨ list.lookUp.parentTarget = none ∨
          other.lookUp.parentTarget = none → list = other := by
    decide +kernel
  exact ⟨(all_clear layout served).1, (all_clear layout served).2⟩

theorem Layout.makes (fits : layout.Fits) (showNull : Bool) (sizeLimit : Int) (first : Row)
    (rest : List Row) :
    { layout.plan sizeLimit first with showNull }.Makes (layout.material (first :: rest) showNull) where
  lists := rfl
  columns := by
    intro list member
    rw [Layout.find?_columns fits member]
    rfl
  showNull := rfl

/-- A tree shows only what was selected. -/
theorem shows_of_ofRows (served : layout ∈ Layout.served)
    (built : ofRows Mobility.catalogue layout.entry layout.exits showNull sizeLimit rows = .ok tree) :
    (layout.material rows showNull).Shows none tree := by
  cases rows with
  | nil =>
      obtain rfl := Except.ok.inj built
      exact .object fun name value member => absurd member List.not_mem_nil
  | cons first rest =>
      rw [ofRows, Layout.planFor_showing served] at built
      obtain ⟨plan, plan_eq, built⟩ := Outcome.bind_eq_ok_iff.mp built
      obtain rfl := Except.ok.inj plan_eq
      obtain ⟨growth, grown, shown⟩ := Outcome.bind_eq_ok_iff.mp built
      obtain rfl := Except.ok.inj shown
      have explained := (Growth.explained_start _).addRows (Layout.clear served (first :: rest) showNull)
        (Layout.makes (Layout.fits_of_served served) showNull sizeLimit first rest) (fun _ => id) grown
      obtain ⟨owners, owned⟩ := explained.owned
      exact owned.forest.shows _ _ none owned.forest.root

end Trees

/-- A measurement of which only the time was selected. -/
def timedRow : Row :=
  [("_stationtype", .string "Meteo"), ("_stationcode", .string "hill"),
    ("_datatypename", .string "air"), ("mvalidtime", .string "noon")]

/-- The objects of that row with nulls: the root, then those of the lists, level by level. -/
def timedForest : Forest :=
  ⟨#[⟨[], [("Meteo", .object 1)]⟩, ⟨[], [("stations", .map [("hill", 2)])]⟩,
    ⟨[], [("sdatatypes", .map [("air", 4)]), ("sparent", .object 3)]⟩, ⟨[], []⟩,
    ⟨[], [("tmeasurements", .list [5])]⟩,
    ⟨[("mvalidtime", .string "noon"), ("mvalue", .null)], [("mprovenance", .object 9)]⟩,
    ⟨[], []⟩, ⟨[], []⟩, ⟨[], []⟩, ⟨[], []⟩]⟩

theorem ofRows_timedRow :
    ofRows Mobility.catalogue "stationtype" [⟨"metadatahistory", false⟩] true 0 [timedRow] =
      .ok (.object [("Meteo", .object [("stations", .object [("hill", .object
        [("sdatatypes", .object [("air", .object [("tmeasurements", .array [.object
            [("mprovenance", .object []), ("mvalidtime", .string "noon"), ("mvalue", .null)]])])]),
          ("sparent", .object [])])])])]) := by
  have is_served : Layout.measurements ∈ Layout.served := by simp [Layout.served]
  have grown : ([timedRow].foldlM
      (Growth.addRow { Layout.measurements.plan 0 timedRow with showNull := true }) .start).map
        (·.forest) = .ok timedForest := by rfl
  obtain ⟨growth, growth_eq, forest_eq⟩ := Outcome.map_eq_ok_iff.mp grown
  refine Outcome.bind_eq_ok_iff.mpr ⟨_, Layout.planFor_showing is_served true 0 timedRow, ?_⟩
  refine Outcome.bind_eq_ok_iff.mpr ⟨growth, growth_eq, congrArg Except.ok ?_⟩
  rw [forest_eq]
  cbv

theorem shows_of_ofRows_timedRow :
    Layout.measurements ∈ Layout.served ∧
      (Layout.measurements.material [timedRow] true).Shows none
        (.object [("Meteo", .object [("stations", .object [("hill", .object
          [("sdatatypes", .object [("air", .object [("tmeasurements", .array [.object
              [("mprovenance", .object []), ("mvalidtime", .string "noon"), ("mvalue", .null)]])])]),
            ("sparent", .object [])])])])]) := by
  have is_served : Layout.measurements ∈ Layout.served := by simp [Layout.served]
  exact ⟨is_served, shows_of_ofRows is_served ofRows_timedRow⟩

theorem columns_timedRow : ∀ list ∈ Layout.measurements.levels.flatten,
    ∀ column ∈ columnsOf list timedRow, column.field ≠ "mvalue" ∧ column.selector.path = none := by
  decide +kernel

/-- Where nulls are shown, a measurement has a value although no column has one. -/
theorem value_of_timedRow :
    ∃ measured : List (String × Json),
      ofRows Mobility.catalogue "stationtype" [⟨"metadatahistory", false⟩] true 0 [timedRow] =
        .ok (.object [("Meteo", .object [("stations", .object [("hill", .object
          [("sdatatypes", .object [("air", .object [("tmeasurements", .array [.object measured])])]),
            ("sparent", .object [])])])])]) ∧
      ("mvalue", .null) ∈ measured ∧ (∀ entry ∈ timedRow, ∃ text, entry.2 = .string text) ∧
      ¬(Layout.measurements.material [timedRow] true).Selects "mvalue" := by
  refine ⟨_, ofRows_timedRow, by simp, by simp [timedRow], ?_⟩
  rintro (⟨list, list_in, -, column, -, row, row_in, key_eq⟩ | ⟨list, list_in, not_merge, target_eq⟩ |
    ⟨list, list_in, field, column, column_in, -, path, path_eq, -⟩ |
    ⟨list, list_in, column, column_in, field_eq⟩)
  · obtain rfl := List.mem_singleton.mp row_in
    have in_row := mem_of_member? key_eq
    simp [timedRow] at in_row
  · have no_target : ∀ list ∈ Layout.measurements.levels.flatten,
        list.lookUp.attachment ≠ .merge → list.lookUp.parentTarget ≠ some "mvalue" := by
      decide +kernel
    exact no_target list list_in not_merge target_eq
  · rw [(columns_timedRow list list_in column column_in).2] at path_eq
    cases path_eq
  · exact (columns_timedRow list list_in column column_in).1 field_eq

end StationGateway.Tree
