import StationGateway.Proofs.Tree.Shown

/-!
# Paths into an attribute

Columns that are places in the JSON value of one attribute put that value together again: each cell
stands at its place, nothing else is there, and only the order of the members depends on the order of
the columns. -/

namespace StationGateway

/-- Whether two values differ in the order of members of objects only. -/
inductive Json.Same : Json → Json → Prop
  | refl (value : Json) : Same value value
  | permuted {members others : List (String × Json)} (permuted : members.Perm others) :
      Same (.object members) (.object others)
  | inside {value other : Json} (before : List (String × Json)) (name : String)
      (after : List (String × Json)) (same : Same value other) :
      Same (.object (before ++ (name, value) :: after)) (.object (before ++ (name, other) :: after))
  | trans {first second third : Json} (left : Same first second) (right : Same second third) :
      Same first third

/-- Whether a value has no members. -/
def Json.IsLeaf (value : Json) : Prop :=
  ∀ member members, value ≠ .object (member :: members)

/-- The members of an object one after the other. -/
theorem Json.Same.map_keys {image other : String → Json} {keys : List String}
    (same : ∀ key ∈ keys, Json.Same (image key) (other key)) (before : List (String × Json)) :
    Json.Same (.object (before ++ keys.map fun key => (key, image key)))
      (.object (before ++ keys.map fun key => (key, other key))) := by
  induction keys generalizing before with
  | nil => exact .refl _
  | cons key keys induction =>
      obtain ⟨first_same, rest_same⟩ := List.forall_mem_cons.mp same
      have rest := induction rest_same (before ++ [(key, other key)])
      rw [List.append_assoc, List.append_assoc, List.singleton_append] at rest
      exact .trans (.inside before key _ first_same) rest

namespace Tree

open StationGateway.Order Text

/-! ## Values at places of an assembled value -/

section Assemble

variable {placed others : Placed} {depth : Nat} {head : String} {place rest : List String} {value : Json}

/-- Whether no value of some lies inside another one. -/
def Placed.Apart (placed : Placed) : Prop :=
  placed.Pairwise fun first second => Tree.Apart first.1 second.1

theorem Placed.Apart.below (apart : placed.Apart) (head : String) :
    Placed.Apart (below head placed) := by
  refine List.pairwise_filterMap.mpr (List.Pairwise.imp (fun both own own_taken other other_taken => ?_)
    apart)
  have own_mem : own ∈ Tree.below head [_] :=
    List.mem_filterMap.mpr ⟨_, List.mem_singleton_self _, own_taken⟩
  have other_mem : other ∈ Tree.below head [_] :=
    List.mem_filterMap.mpr ⟨_, List.mem_singleton_self _, other_taken⟩
  rw [← List.mem_singleton.mp (mem_below.mp own_mem),
    ← List.mem_singleton.mp (mem_below.mp other_mem)] at both
  exact both.of_cons

/-- A value at the object itself leaves no place for others. -/
theorem Placed.Apart.alone (apart : placed.Apart) {entry : List String × Json} (member : entry ∈ placed)
    (at_root : entry.1 = []) : placed = [entry] := by
  obtain ⟨before, after, rfl⟩ := List.append_of_mem member
  obtain ⟨-, from_entry, across⟩ := List.pairwise_append.mp apart
  have no_after : after = [] := by
    refine List.eq_nil_iff_forall_not_mem.mpr fun other other_in => ?_
    have both := (List.pairwise_cons.mp from_entry).1 other other_in
    exact not_apart_nil other.1 (at_root ▸ both)
  have no_before : before = [] := by
    refine List.eq_nil_iff_forall_not_mem.mpr fun other other_in => ?_
    have both := across other other_in entry List.mem_cons_self
    exact both.2 (at_root ▸ List.nil_prefix)
  rw [no_after, no_before, List.nil_append]

theorem below_within (within : ∀ entry ∈ placed, entry.1.length ≤ depth + 1) (head : String) :
    ∀ entry ∈ below head placed, entry.1.length ≤ depth :=
  fun _ member => Nat.le_of_succ_le_succ (within _ (mem_below.mp member))

theorem valueAt?_assemble_cons (inside : ∀ entry ∈ placed, entry.1 ≠ []) :
    valueAt? (head :: rest) (assemble (depth + 1) placed) =
      if head ∈ headsOf placed then valueAt? rest (assemble depth (below head placed)) else none := by
  rw [assemble_eq_object depth inside, valueAt?, member?_map_keys]
  split_ifs with is_head
  · rfl
  · rfl

/-- Every value stands at its place. -/
theorem valueAt?_assemble (apart : placed.Apart) (within : ∀ entry ∈ placed, entry.1.length ≤ depth)
    (member : (place, value) ∈ placed) : valueAt? place (assemble depth placed) = some value := by
  induction place generalizing placed depth with
  | nil =>
      rw [apart.alone member rfl, assemble_alone]
      rfl
  | cons head rest induction =>
      obtain ⟨depth, rfl⟩ := Nat.exists_eq_add_one_of_ne_zero (Nat.ne_zero_of_lt (within _ member))
      have inside : ∀ entry ∈ placed, entry.1 ≠ [] := by
        intro entry entry_in at_root
        rw [apart.alone entry_in at_root, List.mem_singleton] at member
        rw [← member] at at_root
        cases at_root
      rw [valueAt?_assemble_cons inside, if_pos (mem_headsOf.mpr ⟨_, member, rfl⟩)]
      exact induction (apart.below head) (below_within within head) (mem_below.mpr member)

/-- Nothing stands at a place apart from all values. -/
theorem valueAt?_assemble_of_apart (place_ne : place ≠ [])
    (within : ∀ entry ∈ placed, entry.1.length ≤ depth)
    (free : ∀ entry ∈ placed, Apart entry.1 place) : valueAt? place (assemble depth placed) = none := by
  induction place generalizing placed depth with
  | nil => exact absurd rfl place_ne
  | cons head rest induction =>
      have inside : ∀ entry ∈ placed, entry.1 ≠ [] := by
        intro entry member at_root
        exact not_apart_nil _ (at_root ▸ free entry member)
      cases depth with
      | zero =>
          have empty : placed = [] := by
            refine List.eq_nil_iff_forall_not_mem.mpr fun entry member => inside entry member ?_
            exact List.length_eq_zero_iff.mp (Nat.le_zero.mp (within entry member))
          rw [empty, assemble_nil]
          rfl
      | succ depth =>
          rw [valueAt?_assemble_cons inside]
          split_ifs with is_head
          · cases rest with
            | nil =>
                obtain ⟨⟨own, value⟩, member, starts⟩ := mem_headsOf.mp is_head
                obtain ⟨further, rfl⟩ := List.head?_eq_some_iff.mp starts
                have both := free _ member
                exact absurd (List.cons_prefix_cons.mpr ⟨rfl, List.nil_prefix⟩) both.2
            | cons next rest =>
                exact induction (List.cons_ne_nil next rest) (below_within within head)
                  (apart_below free)
          · rfl

theorem exists_depth (within : ∀ entry ∈ placed, entry.1.length ≤ depth) (filled : placed ≠ [])
    (inside : ∀ entry ∈ placed, entry.1 ≠ []) : ∃ further, depth = further + 1 := by
  obtain ⟨entry, member⟩ := List.exists_mem_of_ne_nil placed filled
  have positive := List.length_pos_iff.mpr (inside entry member)
  have bound := within entry member
  exact Nat.exists_eq_add_one_of_ne_zero (by omega)

/-- All that is no object with members lies in one of the values. -/
theorem exists_of_isLeaf (within : ∀ entry ∈ placed, entry.1.length ≤ depth) (filled : placed ≠ [])
    (found : valueAt? place (assemble depth placed) = some value) (leaf : value.IsLeaf) :
    ∃ entry ∈ placed, entry.1 <+: place := by
  induction place generalizing placed depth with
  | nil =>
      by_contra no_root
      have inside : ∀ entry ∈ placed, entry.1 ≠ [] :=
        fun entry member at_root => no_root ⟨entry, member, List.prefix_nil.mpr at_root⟩
      obtain ⟨depth, rfl⟩ := exists_depth within filled inside
      obtain ⟨⟨own, cell⟩, member⟩ := List.exists_mem_of_ne_nil placed filled
      obtain ⟨head, rest, rfl⟩ := List.exists_cons_of_ne_nil (inside _ member)
      have is_head : head ∈ headsOf placed := mem_headsOf.mpr ⟨_, member, rfl⟩
      rw [assemble_eq_object depth inside] at found
      obtain ⟨first, heads, heads_eq⟩ := List.exists_cons_of_ne_nil (List.ne_nil_of_mem is_head)
      rw [heads_eq] at found
      exact leaf _ _ (Option.some.inj found).symm
  | cons head rest induction =>
      by_cases at_root : ∃ entry ∈ placed, entry.1 = []
      · obtain ⟨entry, member, is_nil⟩ := at_root
        exact ⟨entry, member, is_nil ▸ List.nil_prefix⟩
      · have inside : ∀ entry ∈ placed, entry.1 ≠ [] :=
          fun entry member is_nil => at_root ⟨entry, member, is_nil⟩
        obtain ⟨depth, rfl⟩ := exists_depth within filled inside
        rw [valueAt?_assemble_cons inside] at found
        split_ifs at found with is_head
        obtain ⟨⟨own, cell⟩, member, starts⟩ := mem_headsOf.mp is_head
        obtain ⟨further, rfl⟩ := List.head?_eq_some_iff.mp starts
        have below_filled : below head placed ≠ [] :=
          List.ne_nil_of_mem (show (further, cell) ∈ below head placed from mem_below.mpr member)
        obtain ⟨entry, entry_in, entry_prefix⟩ :=
          induction (below_within within head) below_filled found
        exact ⟨_, mem_below.mp entry_in, List.cons_prefix_cons.mpr ⟨rfl, entry_prefix⟩⟩

/-- The order of values only changes the order of members. -/
theorem same_assemble (apart : placed.Apart) (within : ∀ entry ∈ placed, entry.1.length ≤ depth)
    (permuted : placed.Perm others) : Json.Same (assemble depth placed) (assemble depth others) := by
  induction depth generalizing placed others with
  | zero =>
      cases placed with
      | nil =>
          rw [List.nil_perm.mp permuted]
          exact .refl _
      | cons entry rest =>
          have at_root := List.length_eq_zero_iff.mp (Nat.le_zero.mp (within entry List.mem_cons_self))
          rw [apart.alone List.mem_cons_self at_root, List.singleton_perm] at permuted
          rw [apart.alone List.mem_cons_self at_root, permuted]
          exact .refl _
  | succ depth induction =>
      by_cases at_root : ∃ entry ∈ placed, entry.1 = []
      · obtain ⟨entry, member, is_nil⟩ := at_root
        rw [apart.alone member is_nil, List.singleton_perm] at permuted
        rw [apart.alone member is_nil, permuted]
        exact .refl _
      · have inside : ∀ entry ∈ placed, entry.1 ≠ [] :=
          fun entry member is_nil => at_root ⟨entry, member, is_nil⟩
        have heads_permuted : (headsOf placed).Perm (headsOf others) := by
          refine (List.perm_ext_iff_of_nodup (nodup_headsOf _) (nodup_headsOf _)).mpr fun head => ?_
          simp only [mem_headsOf, permuted.mem_iff]
        rw [assemble_eq_object depth inside,
          assemble_eq_object depth fun entry member => inside entry (permuted.mem_iff.mpr member)]
        -- First the members are put in the other order, then the value of each is replaced.
        apply Json.Same.trans (.permuted (heads_permuted.map _))
        refine Json.Same.map_keys (fun head _ => ?_) []
        exact induction (apart.below head) (below_within within head) (permuted.filterMap _)

end Assemble

/-! ## The object of the columns of one attribute -/

/-- What a row has in a column. -/
def ListColumn.cell (column : ListColumn) (row : Row) : Json :=
  (Json.member? column.label row).getD .null

/-- Whether a cell is shown: nulls are only if they are asked for. -/
def IsKept (showNull : Bool) (cell : Json) : Prop :=
  cell.isNull = true → showNull = true

section Columns

variable {showNull : Bool} {columns : List ListColumn} {row : Row} {name : String}

theorem apart_keptCells (apart : AreApart columns) : Placed.Apart (keptCells showNull columns row) := by
  refine List.pairwise_filterMap.mpr (List.Pairwise.imp (fun both own taken other other_taken => ?_) apart)
  dsimp only at taken other_taken
  split_ifs at taken other_taken
  rw [← Option.some.inj taken, ← Option.some.inj other_taken]
  exact both

theorem isKept_iff {cell : Json} :
    IsKept showNull cell ↔ (cell.isNull && !showNull) = false := by
  cases null_eq : cell.isNull <;> cases showNull <;> simp [IsKept, null_eq]

theorem mem_keptCells_iff {entry : List String × Json} :
    entry ∈ keptCells showNull columns row ↔
      ∃ column ∈ columns, IsKept showNull (column.cell row) ∧ entry = (column.place, column.cell row) := by
  simp only [mem_keptCells, isKept_iff, ListColumn.cell]

/-- All members are one, if all places begin with one name. -/
theorem membersOf_eq_singleton {depth : Nat} {placed : Placed} (filled : placed ≠ [])
    (starts : ∀ entry ∈ placed, entry.1.head? = some name) :
    membersOf depth placed = [(name, assemble depth (below name placed))] := by
  have all_same : ∀ head ∈ headsOf placed, head = name := by
    intro head is_head
    obtain ⟨entry, member, head_eq⟩ := mem_headsOf.mp is_head
    exact Option.some.inj (head_eq.symm.trans (starts entry member))
  have heads_eq : headsOf placed = [name] := by
    obtain ⟨entry, member⟩ := List.exists_mem_of_ne_nil placed filled
    have is_head : name ∈ headsOf placed := mem_headsOf.mpr ⟨entry, member, starts entry member⟩
    refine List.perm_singleton.mp ((List.perm_ext_iff_of_nodup (nodup_headsOf placed)
      (List.nodup_singleton name)).mpr fun head => ?_)
    rw [List.mem_singleton]
    exact ⟨all_same head, fun same => same ▸ is_head⟩
  rw [membersOf, heads_eq]
  rfl

/-- Whether columns are places in the JSON value of one attribute. -/
def InAttribute (name : String) (columns : List ListColumn) : Prop :=
  ∀ column ∈ columns, ∃ path, column.selector = ⟨name, some path⟩

theorem place_eq {column : ListColumn} {path : String} (selector_eq : column.selector = ⟨name, some path⟩) :
    column.place = name :: pieces '.' path := by
  rw [ListColumn.place, selector_eq]

theorem starts_keptCells (inside : InAttribute name columns) :
    ∀ entry ∈ keptCells showNull columns row, entry.1.head? = some name := by
  intro entry member
  obtain ⟨column, in_columns, -, rfl⟩ := mem_keptCells_iff.mp member
  obtain ⟨path, selector_eq⟩ := inside column in_columns
  rw [place_eq selector_eq]
  rfl

theorem below_ne_nil {placed : Placed} (filled : placed ≠ [])
    (starts : ∀ entry ∈ placed, entry.1.head? = some name) : below name placed ≠ [] := by
  obtain ⟨⟨place, cell⟩, member⟩ := List.exists_mem_of_ne_nil placed filled
  obtain ⟨rest, rfl⟩ := List.head?_eq_some_iff.mp (starts _ member)
  exact List.ne_nil_of_mem (show (rest, cell) ∈ below name placed from mem_below.mpr member)

theorem keptCells_eq_nil_iff :
    keptCells showNull columns row = [] ↔ ∀ column ∈ columns, ¬IsKept showNull (column.cell row) := by
  rw [List.eq_nil_iff_forall_not_mem]
  constructor
  · intro empty column member kept
    exact empty _ (mem_keptCells_iff.mpr ⟨column, member, kept, rfl⟩)
  · intro none_kept entry member
    obtain ⟨column, in_columns, kept, -⟩ := mem_keptCells_iff.mp member
    exact none_kept column in_columns kept

/-- What is below the attribute comes from a column. -/
theorem exists_of_mem_below (inside : InAttribute name columns) {entry : List String × Json}
    (member : entry ∈ below name (keptCells showNull columns row)) :
    ∃ column ∈ columns, ∃ path, column.selector = ⟨name, some path⟩ ∧
      IsKept showNull (column.cell row) ∧ entry.1 = pieces '.' path := by
  obtain ⟨column, in_columns, kept, entry_eq⟩ := mem_keptCells_iff.mp (mem_below.mp member)
  obtain ⟨path, selector_eq⟩ := inside column in_columns
  refine ⟨column, in_columns, path, selector_eq, kept, ?_⟩
  have place_is := (Prod.mk.inj entry_eq).1
  rw [place_eq selector_eq] at place_is
  exact (List.cons.inj place_is).2

/-- The object of columns in one attribute has no member but that attribute. -/
theorem fields_in_attribute {depth : Nat} (inside : InAttribute name columns) (apart : AreApart columns)
    (within : ∀ entry ∈ keptCells showNull columns row, entry.1.length ≤ depth + 1) :
    (objectOf showNull columns row).fields = if keptCells showNull columns row = [] then [] else
      [(name, assemble depth (below name (keptCells showNull columns row)))] := by
  rw [fields_objectOf apart row within]
  split_ifs with none_kept
  · rw [none_kept]
    rfl
  · exact membersOf_eq_singleton none_kept (starts_keptCells inside)

theorem exists_within (showNull : Bool) (columns : List ListColumn) (row : Row) :
    ∃ depth, ∀ entry ∈ keptCells showNull columns row, entry.1.length ≤ depth + 1 := by
  refine ⟨((keptCells showNull columns row).map fun entry => entry.1.length).max?.getD 0, ?_⟩
  intro entry member
  exact Nat.le_succ_of_le (List.le_max?_getD_of_mem (List.mem_map_of_mem member))

theorem valueAt?_field_of_kept (inside : InAttribute name columns) (apart : AreApart columns)
    {column : ListColumn} (member : column ∈ columns) {path : String}
    (selector_eq : column.selector = ⟨name, some path⟩) (kept : IsKept showNull (column.cell row)) :
    valueAt? (name :: pieces '.' path) (.object (objectOf showNull columns row).fields) =
      some (column.cell row) := by
  obtain ⟨depth, within⟩ := exists_within showNull columns row
  have in_kept : (name :: pieces '.' path, column.cell row) ∈ keptCells showNull columns row := by
    rw [← place_eq selector_eq]
    exact mem_keptCells_iff.mpr ⟨column, member, kept, rfl⟩
  rw [fields_in_attribute inside apart within, if_neg (List.ne_nil_of_mem in_kept), valueAt?,
    Json.member?, if_pos rfl]
  exact valueAt?_assemble ((apart_keptCells apart).below name) (below_within within name)
    (mem_below.mpr in_kept)

theorem valueAt?_field_of_left_out (inside : InAttribute name columns) (apart : AreApart columns)
    {column : ListColumn} (member : column ∈ columns) {path : String}
    (selector_eq : column.selector = ⟨name, some path⟩) (left_out : ¬IsKept showNull (column.cell row)) :
    valueAt? (name :: pieces '.' path) (.object (objectOf showNull columns row).fields) = none := by
  obtain ⟨depth, within⟩ := exists_within showNull columns row
  rw [fields_in_attribute inside apart within]
  split_ifs with none_kept
  · rfl
  · have free : ∀ entry ∈ below name (keptCells showNull columns row),
        Apart entry.1 (pieces '.' path) := by
      intro entry entry_in
      obtain ⟨other, other_in, other_path, other_eq, other_kept, place_is⟩ :=
        exists_of_mem_below inside entry_in
      have differs : other ≠ column := by
        rintro rfl
        exact left_out other_kept
      have : Std.Symm fun first second : ListColumn => Apart first.place second.place :=
        ⟨fun _ _ both => ⟨both.2, both.1⟩⟩
      have both : Apart other.place column.place := List.Pairwise.forall apart other_in member differs
      rw [place_eq other_eq, place_eq selector_eq, ← place_is] at both
      exact both.of_cons
    rw [valueAt?, Json.member?, if_pos rfl]
    exact valueAt?_assemble_of_apart (pieces_ne_nil '.' path) (below_within within name) free

theorem exists_of_isLeaf_field (inside : InAttribute name columns) (apart : AreApart columns)
    {place : List String} {value : Json} (place_ne : place ≠ []) (leaf : value.IsLeaf)
    (found : valueAt? place (.object (objectOf showNull columns row).fields) = some value) :
    ∃ column ∈ columns, ∃ path, column.selector = ⟨name, some path⟩ ∧
      IsKept showNull (column.cell row) ∧ name :: pieces '.' path <+: place := by
  obtain ⟨depth, within⟩ := exists_within showNull columns row
  obtain ⟨first, rest, rfl⟩ := List.exists_cons_of_ne_nil place_ne
  rw [fields_in_attribute inside apart within] at found
  split_ifs at found with none_kept
  · cases found
  · rw [valueAt?, Json.member?] at found
    split_ifs at found with is_name
    · subst is_name
      have filled := below_ne_nil none_kept (starts_keptCells inside)
      obtain ⟨entry, entry_in, in_front⟩ :=
        exists_of_isLeaf (below_within within name) filled found leaf
      obtain ⟨column, member, path, selector_eq, kept, place_is⟩ := exists_of_mem_below inside entry_in
      refine ⟨column, member, path, selector_eq, kept, List.cons_prefix_cons.mpr ⟨rfl, ?_⟩⟩
      exact place_is ▸ in_front
    · cases found

theorem member?_field_eq_none_iff (inside : InAttribute name columns) (apart : AreApart columns) :
    Json.member? name (objectOf showNull columns row).fields = none ↔
      ∀ column ∈ columns, ¬IsKept showNull (column.cell row) := by
  obtain ⟨depth, within⟩ := exists_within showNull columns row
  rw [fields_in_attribute inside apart within, ← keptCells_eq_nil_iff]
  split_ifs with none_kept
  · simp [none_kept, Json.member?]
  · simp [none_kept, Json.member?]

theorem same_fields (inside : InAttribute name columns) (apart : AreApart columns)
    {others : List ListColumn} (permuted : columns.Perm others) :
    Json.Same (.object (objectOf showNull columns row).fields)
      (.object (objectOf showNull others row).fields) := by
  obtain ⟨depth, within⟩ := exists_within showNull columns row
  have kept_permuted : (keptCells showNull columns row).Perm (keptCells showNull others row) :=
    permuted.filterMap _
  have others_inside : InAttribute name others :=
    fun column member => inside column (permuted.mem_iff.mpr member)
  have others_apart : AreApart others :=
    permuted.pairwise apart fun both => ⟨both.2, both.1⟩
  have others_within : ∀ entry ∈ keptCells showNull others row, entry.1.length ≤ depth + 1 :=
    fun entry member => within entry (kept_permuted.mem_iff.mpr member)
  rw [fields_in_attribute inside apart within, fields_in_attribute others_inside others_apart others_within]
  by_cases none_kept : keptCells showNull columns row = []
  · rw [none_kept] at kept_permuted
    rw [if_pos none_kept, if_pos (List.nil_perm.mp kept_permuted)]
    exact .refl _
  · have others_kept : keptCells showNull others row ≠ [] :=
      fun empty => none_kept (List.perm_nil.mp (empty ▸ kept_permuted))
    rw [if_neg none_kept, if_neg others_kept]
    have same := same_assemble ((apart_keptCells apart).below name) (below_within within name)
      (kept_permuted.filterMap _)
    exact .inside [] name [] same

/-- Columns in one attribute, none of them inside another one, are put together without loss. Each cell
that is shown stands at its path in the attribute, each other path is free, and all that is no object
with members lies in one of these cells. The attribute is there if a cell is, and the order of the
columns only changes the order of members. -/
theorem objectOf_renests (name : String) (columns : List ListColumn) (inside : InAttribute name columns)
    (apart : AreApart columns) (row : Row) (showNull : Bool) :
    (∀ column ∈ columns, ∀ path, column.selector = ⟨name, some path⟩ →
      (IsKept showNull (column.cell row) → valueAt? (name :: pieces '.' path)
        (.object (objectOf showNull columns row).fields) = some (column.cell row)) ∧
      (¬IsKept showNull (column.cell row) → valueAt? (name :: pieces '.' path)
        (.object (objectOf showNull columns row).fields) = none)) ∧
    (∀ place value, place ≠ [] → value.IsLeaf →
      valueAt? place (.object (objectOf showNull columns row).fields) = some value →
        ∃ column ∈ columns, ∃ path, column.selector = ⟨name, some path⟩ ∧
          IsKept showNull (column.cell row) ∧ name :: pieces '.' path <+: place) ∧
    (Json.member? name (objectOf showNull columns row).fields = none ↔
      ∀ column ∈ columns, ¬IsKept showNull (column.cell row)) ∧
    ∀ others : List ListColumn, columns.Perm others →
      Json.Same (.object (objectOf showNull columns row).fields)
        (.object (objectOf showNull others row).fields) := by
  refine ⟨fun column member path selector_eq => ⟨fun kept => ?_, fun left_out => ?_⟩,
    fun place value place_ne leaf found => ?_, ?_, fun others permuted => ?_⟩
  · exact valueAt?_field_of_kept inside apart member selector_eq kept
  · exact valueAt?_field_of_left_out inside apart member selector_eq left_out
  · exact exists_of_isLeaf_field inside apart place_ne leaf found
  · exact member?_field_eq_none_iff inside apart
  · exact same_fields inside apart permuted

/-- Three places in the metadata of a station, of which two share their first name. -/
def metadataColumns : List ListColumn :=
  [⟨"smetadata.a.b", ⟨"smetadata", some "a.b"⟩⟩, ⟨"smetadata.a..c", ⟨"smetadata", some "a..c"⟩⟩,
    ⟨"smetadata.d", ⟨"smetadata", some "d"⟩⟩]

/-- Cells in the metadata of a station, one of them null. -/
def metadataRow : Row :=
  [("smetadata.d", .null), ("smetadata.a..c", .string "x"), ("smetadata.a.b", .bool true)]

/-- The columns are put together again, a name without characters among the names on the way. -/
theorem objectOf_metadata :
    InAttribute "smetadata" metadataColumns ∧ AreApart metadataColumns ∧
      valueAt? ["smetadata", "a", "", "c"] (.object (objectOf false metadataColumns metadataRow).fields) =
        some (.string "x") ∧
      valueAt? ["smetadata", "d"] (.object (objectOf false metadataColumns metadataRow).fields) = none ∧
      (∃ column ∈ metadataColumns, ∃ path, column.selector = ⟨"smetadata", some path⟩ ∧
        IsKept false (column.cell metadataRow) ∧
          "smetadata" :: pieces '.' path <+: ["smetadata", "a", "", "c"]) ∧
      Json.Same (.object (objectOf false metadataColumns metadataRow).fields)
        (.object (objectOf false metadataColumns.reverse metadataRow).fields) := by
  have inside : InAttribute "smetadata" metadataColumns := by
    simp [InAttribute, metadataColumns]
  have apart : AreApart metadataColumns := by decide
  obtain ⟨cells, leaves, -, same⟩ :=
    objectOf_renests "smetadata" metadataColumns inside apart metadataRow false
  have kept : valueAt? ["smetadata", "a", "", "c"]
      (.object (objectOf false metadataColumns metadataRow).fields) = some (.string "x") :=
    (cells ⟨"smetadata.a..c", ⟨"smetadata", some "a..c"⟩⟩ (by simp [metadataColumns]) "a..c" rfl).1 nofun
  have left_out : valueAt? ["smetadata", "d"]
      (.object (objectOf false metadataColumns metadataRow).fields) = none :=
    (cells ⟨"smetadata.d", ⟨"smetadata", some "d"⟩⟩ (by simp [metadataColumns]) "d" rfl).2
      fun shown => Bool.false_ne_true (shown rfl)
  have leaf : (Json.string "x").IsLeaf := by
    intro member members is_object
    cases is_object
  exact ⟨inside, apart, kept, left_out, leaves _ _ (List.cons_ne_nil _ _) leaf kept,
    same _ metadataColumns.reverse_perm.symm⟩

end Columns

end Tree

end StationGateway
