import Mathlib.Data.List.Induction
import StationGateway.Proofs.Order.FirstOccurrence
import StationGateway.Proofs.Order.Gather
import StationGateway.Proofs.Text.Split
import StationGateway.Tree.Cells

/-!
# Nested cells

What the object of some cells is, said without filling it: the cells whose places begin with one name
make up the member of that name. Cells none of which lies inside another can be set one after the
other. -/

namespace StationGateway.Tree

open StationGateway.Order Text

/-! ## Values at places -/

/-- Values and where each of them stands in an object. -/
abbrev Placed := List (List String × Json)

/-- The names that places begin with, in the order of their first appearance. -/
def headsOf (placed : Placed) : List String :=
  (placed.filterMap fun entry => entry.1.head?).eraseDups

/-- The values whose places begin with a name, and where they stand below it. -/
def below (head : String) (placed : Placed) : Placed :=
  placed.filterMap fun entry =>
    match entry.1 with
    | [] => none
    | first :: rest => if first = head then some (rest, entry.2) else none

/-- The value that has the given values at their places, at most `depth` names deep. -/
def assemble : Nat → Placed → Json
  | _, [([], value)] => value
  | 0, _ => .object []
  | depth + 1, placed =>
      .object ((headsOf placed).map fun head => (head, assemble depth (below head placed)))

/-- Whether neither of two places lies inside the other. -/
def Apart (first second : List String) : Prop :=
  ¬first <+: second ∧ ¬second <+: first

instance (first second : List String) : Decidable (Apart first second) :=
  inferInstanceAs (Decidable (_ ∧ _))

example : assemble 2 [(["a", "b"], .null), (["c"], .bool true), (["a", "d"], .bool false)] =
    .object [("a", .object [("b", .null), ("d", .bool false)]), ("c", .bool true)] := by
  rfl

section Assemble

variable {placed : Placed} {head : String} {rest : List String} {value : Json}

theorem mem_headsOf : head ∈ headsOf placed ↔ ∃ entry ∈ placed, entry.1.head? = some head := by
  rw [headsOf, List.mem_eraseDups, List.mem_filterMap]

theorem headsOf_append (placed : Placed) (head : String) (rest : List String) (value : Json) :
    headsOf (placed ++ [(head :: rest, value)]) =
      if head ∈ headsOf placed then headsOf placed else headsOf placed ++ [head] := by
  have names_eq : (placed ++ [(head :: rest, value)]).filterMap (fun entry => entry.1.head?) =
      placed.filterMap (fun entry => entry.1.head?) ++ [head] := by
    rw [List.filterMap_append]
    rfl
  simp only [headsOf, names_eq, eraseDups_concat, List.mem_eraseDups]

theorem nodup_headsOf (placed : Placed) : (headsOf placed).Nodup :=
  nodup_eraseDups _

theorem below_append (placed more : Placed) (head : String) :
    below head (placed ++ more) = below head placed ++ below head more :=
  List.filterMap_append

theorem mem_below {entry : List String × Json} :
    entry ∈ below head placed ↔ (head :: entry.1, entry.2) ∈ placed := by
  rw [below, List.mem_filterMap]
  constructor
  · rintro ⟨⟨place, value⟩, member, taken⟩
    cases place with
    | nil => cases taken
    | cons first rest =>
        dsimp only at taken
        split_ifs at taken with is_head
        obtain rfl := Option.some.inj taken
        exact is_head ▸ member
  · intro member
    exact ⟨_, member, if_pos rfl⟩

theorem below_eq_nil (absent : head ∉ headsOf placed) : below head placed = [] := by
  refine List.eq_nil_iff_forall_not_mem.mpr fun entry member => absent ?_
  exact mem_headsOf.mpr ⟨_, mem_below.mp member, rfl⟩

/-- Values of which none stands at the object itself make up an object. -/
theorem assemble_eq_object (depth : Nat) (inside : ∀ entry ∈ placed, entry.1 ≠ []) :
    assemble (depth + 1) placed =
      .object ((headsOf placed).map fun head => (head, assemble depth (below head placed))) := by
  match placed with
  | [] => rfl
  | [([], value)] => exact absurd rfl (inside _ List.mem_cons_self)
  | [(head :: rest, value)] => rfl
  | ([], value) :: second :: others => rfl
  | (head :: rest, value) :: second :: others => rfl

theorem assemble_nil (depth : Nat) : assemble depth [] = .object [] := by
  cases depth with
  | zero => rfl
  | succ depth => rfl

@[simp] theorem assemble_alone (depth : Nat) (value : Json) : assemble depth [([], value)] = value := by
  cases depth with
  | zero => rfl
  | succ depth => rfl

theorem member?_eq_find? (name : String) (members : List (String × Json)) :
    Json.member? name members = find? name members := by
  induction members with
  | nil => rfl
  | cons member rest induction => simp only [Json.member?, find?, induction, eq_comm]

theorem member?_map_keys (image : String → Json) (key : String) (keys : List String) :
    Json.member? key (keys.map fun key => (key, image key)) =
      if key ∈ keys then some (image key) else none := by
  rw [member?_eq_find?, find?_map_keys]

/-- Setting a member replaces its value or adds it after the others. -/
theorem setMember_map_keys (image : String → Json) {key : String} (value : Json) {keys : List String}
    (nodup : keys.Nodup) :
    Json.setMember key value (keys.map fun key => (key, image key)) =
      (if key ∈ keys then keys else keys ++ [key]).map fun other =>
        (other, if other = key then value else image other) := by
  induction keys with
  | nil => simp [Json.setMember]
  | cons first rest induction =>
      obtain ⟨first_new, rest_nodup⟩ := List.nodup_cons.mp nodup
      rw [List.map_cons, Json.setMember]
      by_cases is_first : first = key
      · subst is_first
        have rest_kept : (rest.map fun other => (other, if other = first then value else image other)) =
            rest.map fun other => (other, image other) := by
          refine List.map_congr_left fun other member => ?_
          have other_ne : other ≠ first := fun same => first_new (same ▸ member)
          rw [if_neg other_ne]
        rw [if_pos rfl, if_pos List.mem_cons_self, List.map_cons, if_pos rfl, rest_kept]
      · rw [if_neg is_first, induction rest_nodup]
        by_cases is_old : key ∈ rest
        · rw [if_pos is_old, if_pos (List.mem_cons_of_mem first is_old), List.map_cons,
            if_neg is_first]
        · rw [if_neg is_old, if_neg (by simp [is_old, Ne.symm is_first]), List.cons_append,
            List.map_cons, if_neg is_first]

/-- One more value changes what stands below the name that its place begins with. -/
theorem assembled_append (image : Placed → Json) (placed : Placed) (head : String) (rest : List String)
    (value : Json) :
    ((headsOf (placed ++ [(head :: rest, value)])).map fun other =>
        (other, image (below other (placed ++ [(head :: rest, value)])))) =
      Json.setMember head (image (below head placed ++ [(rest, value)]))
        ((headsOf placed).map fun other => (other, image (below other placed))) := by
  rw [setMember_map_keys _ _ (nodup_headsOf placed), headsOf_append]
  refine List.map_congr_left fun other _ => ?_
  rw [below_append]
  by_cases is_head : other = head
  · subst is_head
    rw [if_pos rfl]
    simp [below]
  · rw [if_neg is_head]
    simp [below, Ne.symm is_head]

theorem Apart.of_cons {first second : List String} (apart : Apart (head :: first) (head :: second)) :
    Apart first second :=
  ⟨fun inside => apart.1 (List.cons_prefix_cons.mpr ⟨rfl, inside⟩),
    fun inside => apart.2 (List.cons_prefix_cons.mpr ⟨rfl, inside⟩)⟩

theorem not_apart_nil (place : List String) : ¬Apart [] place :=
  fun apart => apart.1 List.nil_prefix

/-- What stands below a name apart from a place there. -/
theorem apart_below (apart : ∀ entry ∈ placed, Apart entry.1 (head :: rest)) :
    ∀ entry ∈ below head placed, Apart entry.1 rest :=
  fun _ member => (apart _ (mem_below.mp member)).of_cons

/-- Nothing stands below a name apart from that name itself. -/
theorem below_eq_nil_of_apart (apart : ∀ entry ∈ placed, Apart entry.1 [head]) :
    below head placed = [] :=
  List.eq_nil_iff_forall_not_mem.mpr fun entry member =>
    (apart_below apart entry member).2 List.nil_prefix

/-- Setting a value at a place apart from all others. -/
theorem nest_assemble {depth : Nat} {place : List String} (place_ne : place ≠ [])
    (apart : ∀ entry ∈ placed, Apart entry.1 place) (within : place.length ≤ depth) :
    nest value place (assemble depth placed) = assemble depth (placed ++ [(place, value)]) := by
  induction place generalizing placed depth with
  | nil => exact absurd rfl place_ne
  | cons head rest induction =>
      obtain ⟨depth, rfl⟩ := Nat.exists_eq_add_one_of_ne_zero (Nat.ne_zero_of_lt within)
      have inside : ∀ entry ∈ placed, entry.1 ≠ [] := by
        intro entry member is_nil
        exact not_apart_nil _ (is_nil ▸ apart entry member)
      have all_inside : ∀ entry ∈ placed ++ [(head :: rest, value)], entry.1 ≠ [] := by
        intro entry member
        rcases List.mem_append.mp member with is_old | is_new
        · exact inside entry is_old
        · rw [List.mem_singleton.mp is_new]
          exact List.cons_ne_nil _ _
      rw [assemble_eq_object depth inside, assemble_eq_object depth all_inside, assembled_append]
      cases rest with
      | nil => rw [nest, below_eq_nil_of_apart apart, List.nil_append, assemble_alone]
      | cons next rest =>
          have inner_eq : (Json.member? head ((headsOf placed).map fun other =>
              (other, assemble depth (below other placed)))).getD (.object []) =
                assemble depth (below head placed) := by
            rw [member?_map_keys]
            split_ifs with is_old
            · rfl
            · rw [below_eq_nil is_old, assemble_nil]
              rfl
          have deeper := induction (List.cons_ne_nil next rest) (apart_below apart)
            (Nat.le_of_succ_le_succ within)
          rw [nest, inner_eq, deeper]

end Assemble

/-! ## Cells of a row -/

theorem pieces_ne_nil (separator : Char) (text : String) : pieces separator text ≠ [] := by
  rw [pieces, ne_eq, List.map_eq_nil_iff]
  exact splitOn_ne_nil separator text.toList

/-- Where the cell of a column stands in an object: under the name of the column, or on its path into
an attribute. -/
def ListColumn.place (column : ListColumn) : List String :=
  match column.selector.path with
  | none => [column.label]
  | some path => column.selector.name :: pieces '.' path

/-- The cells of a row in some columns but the nulls, each at its place. -/
def placedCells (columns : List ListColumn) (row : Row) : Placed :=
  columns.filterMap fun column =>
    let cell := (Json.member? column.label row).getD .null
    if cell.isNull then none else some (column.place, cell)

/-- The members of the object that has the given values at their places, by ascending name. -/
def membersOf (depth : Nat) (placed : Placed) : List (String × Json) :=
  (ofList (headsOf placed)).map fun head => (head, assemble depth (below head placed))

/-- What a row shows of a list. -/
def cellsOf (list : TargetList) (row : Row) : List (String × Json) :=
  let placed := placedCells (columnsOf list row) row
  membersOf ((placed.map fun entry => entry.1.length).max?.getD 0) placed

theorem ascending_membersOf (depth : Nat) (placed : Placed) : Ascending (membersOf depth placed) :=
  ascending_map_keys (pairwise_ofList _) _

theorem find?_membersOf (depth : Nat) (placed : Placed) (head : String) :
    find? head (membersOf depth placed) =
      if head ∈ headsOf placed then some (assemble depth (below head placed)) else none := by
  rw [membersOf, find?_map_keys]
  by_cases is_head : head ∈ headsOf placed
  · rw [if_pos is_head, if_pos (mem_ofList.mpr is_head)]
  · rw [if_neg is_head, if_neg fun member => is_head (mem_ofList.mp member)]

theorem put_membersOf (depth : Nat) (placed : Placed) (head : String) (rest : List String)
    (value : Json) :
    put head (assemble depth (below head placed ++ [(rest, value)])) (membersOf depth placed) =
      membersOf depth (placed ++ [(head :: rest, value)]) := by
  refine eq_of_find?_eq ((ascending_membersOf depth placed).put head _)
    (ascending_membersOf depth _) fun other => ?_
  have heads_iff : other ∈ headsOf (placed ++ [(head :: rest, value)]) ↔
      other = head ∨ other ∈ headsOf placed := by
    rw [headsOf_append]
    split_ifs with is_old
    · exact ⟨.inr, fun either => either.elim (fun same => same ▸ is_old) id⟩
    · rw [List.mem_append, List.mem_singleton, or_comm]
  rw [find?_put, find?_membersOf, find?_membersOf, below_append]
  by_cases is_head : other = head
  · rw [if_pos is_head, if_pos (heads_iff.mpr (.inl is_head)), is_head]
    simp [below]
  · have below_new : below other [(head :: rest, value)] = [] := by simp [below, Ne.symm is_head]
    rw [if_neg is_head, below_new, List.append_nil]
    simp only [heads_iff, is_head, false_or]

/-- A cell at a place apart from those of the others. -/
theorem fields_addCell {depth : Nat} {placed : Placed} {draft : Draft} {column : ListColumn}
    {cell : Json} (fields_eq : draft.fields = membersOf depth placed)
    (apart : ∀ entry ∈ placed, Apart entry.1 column.place) (within : column.place.length ≤ depth + 1) :
    (draft.addCell column cell).fields = membersOf depth (placed ++ [(column.place, cell)]) := by
  rw [Draft.addCell]
  rw [ListColumn.place] at apart within ⊢
  cases path_eq : column.selector.path with
  | none =>
      rw [path_eq] at apart
      have set := put_membersOf depth placed column.label [] cell
      rw [below_eq_nil_of_apart apart, List.nil_append, assemble_alone] at set
      rw [fields_eq]
      exact set
  | some path =>
      rw [path_eq] at apart within
      have whole_eq : (find? column.selector.name (membersOf depth placed)).getD (.object []) =
          assemble depth (below column.selector.name placed) := by
        rw [find?_membersOf]
        split_ifs with is_head
        · rfl
        · rw [below_eq_nil is_head, assemble_nil]
          rfl
      dsimp only
      rw [fields_eq, whole_eq, nest_assemble (pieces_ne_nil '.' path) (apart_below apart)
        (Nat.le_of_succ_le_succ within)]
      exact put_membersOf depth placed column.selector.name (pieces '.' path) cell

/-- Whether no cell of some columns lies inside another one. -/
def AreApart (columns : List ListColumn) : Prop :=
  columns.Pairwise fun first second => Apart first.place second.place

instance (columns : List ListColumn) : Decidable (AreApart columns) :=
  inferInstanceAs (Decidable (columns.Pairwise _))

/-- The cells of a row in some columns, each at its place, but the nulls that are left out. -/
def keptCells (showNull : Bool) (columns : List ListColumn) (row : Row) : Placed :=
  columns.filterMap fun column =>
    let cell := (Json.member? column.label row).getD .null
    if cell.isNull && !showNull then none else some (column.place, cell)

theorem keptCells_false (columns : List ListColumn) (row : Row) :
    keptCells false columns row = placedCells columns row := by
  simp [keptCells, placedCells]

theorem keptCells_append (showNull : Bool) (columns : List ListColumn) (column : ListColumn) (row : Row) :
    keptCells showNull (columns ++ [column]) row = keptCells showNull columns row ++
      (if ((Json.member? column.label row).getD .null).isNull && !showNull then []
        else [(column.place, (Json.member? column.label row).getD .null)]) := by
  rw [keptCells, List.filterMap_append, List.filterMap_cons, List.filterMap_nil]
  dsimp only
  split_ifs with left_out
  · rfl
  · rfl

theorem mem_keptCells {showNull : Bool} {columns : List ListColumn} {row : Row}
    {entry : List String × Json} :
    entry ∈ keptCells showNull columns row ↔ ∃ column ∈ columns,
      (((Json.member? column.label row).getD .null).isNull && !showNull) = false ∧
        entry = (column.place, (Json.member? column.label row).getD .null) := by
  rw [keptCells, List.mem_filterMap]
  constructor
  · rintro ⟨column, member, taken⟩
    dsimp only at taken
    split_ifs at taken with left_out
    exact ⟨column, member, Bool.eq_false_of_not_eq_true left_out, (Option.some.inj taken).symm⟩
  · rintro ⟨column, member, kept, rfl⟩
    exact ⟨column, member, if_neg (by simp [kept])⟩

/-- The object of one more column has its cell unless it is a null that is left out. -/
theorem objectOf_append (showNull : Bool) (columns : List ListColumn) (column : ListColumn) (row : Row) :
    objectOf showNull (columns ++ [column]) row =
      if ((Json.member? column.label row).getD .null).isNull && !showNull then objectOf showNull columns row
      else (objectOf showNull columns row).addCell column
        ((Json.member? column.label row).getD .null) := by
  rw [objectOf, List.foldl_append, ← objectOf, List.foldl_cons, List.foldl_nil]

/-- The object of a row is made up of the cells that are kept, if none lies inside another one. -/
theorem fields_objectOf {showNull : Bool} {depth : Nat} {columns : List ListColumn}
    (apart : AreApart columns) (row : Row)
    (within : ∀ entry ∈ keptCells showNull columns row, entry.1.length ≤ depth + 1) :
    (objectOf showNull columns row).fields = membersOf depth (keptCells showNull columns row) := by
  induction columns using List.reverseRecOn with
  | nil => rfl
  | append_singleton columns column induction =>
      obtain ⟨columns_apart, -, apart_new⟩ := List.pairwise_append.mp apart
      rw [keptCells_append] at within ⊢
      have before := induction columns_apart fun entry member =>
        within entry (List.mem_append_left _ member)
      rw [objectOf_append]
      split_ifs at within ⊢ with left_out
      · rw [List.append_nil]
        exact before
      · refine fields_addCell before (fun entry member => ?_)
          (within _ (List.mem_append_right _ List.mem_cons_self))
        obtain ⟨other, in_columns, -, rfl⟩ := mem_keptCells.mp member
        exact apart_new other in_columns column List.mem_cons_self

/-- A row shows of a list what the cells of its columns make up, if none lies inside another one. -/
theorem cellsOf_eq {list : TargetList} {row : Row} (apart : AreApart (columnsOf list row)) :
    (objectOf false (columnsOf list row) row).fields = cellsOf list row := by
  rw [cellsOf, ← keptCells_false]
  refine fields_objectOf apart row fun entry member => Nat.le_succ_of_le ?_
  exact List.le_max?_getD_of_mem (List.mem_map_of_mem member)

theorem columnsOf_congr {row other : Row} (same : row.map (·.1) = other.map (·.1))
    (list : TargetList) : columnsOf list row = columnsOf list other := by
  induction row generalizing other with
  | nil => rw [List.map_eq_nil_iff.mp same.symm]
  | cons cell row induction =>
      obtain ⟨⟨label, _⟩, others, rfl, rfl, rest_eq⟩ := List.map_eq_cons_iff.mp same.symm
      have rest_columns := induction rest_eq.symm
      rw [columnsOf, columnsOf] at rest_columns ⊢
      rw [List.filterMap_cons, List.filterMap_cons, rest_columns]

end StationGateway.Tree
