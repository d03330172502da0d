import Mathlib.Data.List.Basic
import StationGateway.Proofs.Order.Ascending
import StationGateway.Tree.Growth

/-!
# What a tree may show

An object of a list shows fields and what other lists attach to it. Its fields are the columns that
rows have for the list, places inside a value put back to their paths, and the fields that it takes
from the lists merged into it. What is attached stands under the name that its list has for it, or,
as an entry of a map, under a key of a row. -/

namespace StationGateway.Tree

open StationGateway.Order Text

/-! ## Values of columns -/

/-- Whether a value is another one or stands somewhere inside of it. -/
inductive PartOf (part : Json) : Json → Prop
  | whole : PartOf part part
  | member {value : Json} {name : String} {members : List (String × Json)}
      (within : (name, value) ∈ members) (below : PartOf part value) : PartOf part (.object members)
  | item {value : Json} {items : List Json} (within : value ∈ items)
      (below : PartOf part value) : PartOf part (.array items)

theorem PartOf.trans {part value whole : Json} (inner : PartOf part value)
    (outer : PartOf value whole) : PartOf part whole := by
  induction outer with
  | whole => exact inner
  | member within _ induction => exact .member within induction
  | item within _ induction => exact .item within induction

/-- A value that has been made from cells: a cell, or an object with the members of a cell, or with
none, to which cells were added at segments of paths. -/
inductive MadeOf (cell : Json → Prop) (segment : String → Prop) : Json → Prop
  | cell {value : Json} (found : cell value) : MadeOf cell segment value
  | object {members : List (String × Json)} (own : List (String × Json))
      (known : own = [] ∨ cell (.object own))
      (named : ∀ member ∈ members, member.1 ∈ own.map (·.1) ∨ segment member.1)
      (made : ∀ member ∈ members, MadeOf cell segment member.2) :
      MadeOf cell segment (.object members)

/-- The name of the field that shows a column: the column itself, or the attribute inside of which it
is a place. -/
def ListColumn.field (column : ListColumn) : String :=
  if column.selector.path.isSome then column.selector.name else column.label

/-- Whether a value is in a cell that rows have for a field, or the null that is shown for a cell that
a row lacks. -/
def IsCell (showNull : Bool) (columns : List ListColumn) (rows : List Row) (field : String)
    (value : Json) : Prop :=
  (∃ column ∈ columns, column.field = field ∧
      ∃ row ∈ rows, ∃ cell, Json.member? column.label row = some cell ∧ PartOf value cell) ∨
    showNull = true ∧ value = .null

/-- Whether a name is a segment of the path of a column of a field. -/
def IsSegment (columns : List ListColumn) (field segment : String) : Prop :=
  ∃ column ∈ columns, column.field = field ∧
    ∃ path, column.selector.path = some path ∧ segment ∈ pieces '.' path

/-- Whether a field with a value shows columns of rows. -/
def ShowsColumns (showNull : Bool) (columns : List ListColumn) (rows : List Row) (field : String)
    (value : Json) : Prop :=
  (∃ column ∈ columns, column.field = field) ∧
    MadeOf (IsCell showNull columns rows field) (IsSegment columns field) value

theorem mem_setMember {name : String} {value : Json} {members : List (String × Json)}
    {member : String × Json} (found : member ∈ Json.setMember name value members) :
    member = (name, value) ∨ member ∈ members := by
  induction members with
  | nil => exact .inl (List.mem_singleton.mp found)
  | cons first rest induction =>
      rw [Json.setMember] at found
      split_ifs at found with same
      · rcases List.mem_cons.mp found with is_new | in_rest
        · exact .inl is_new
        · exact .inr (List.mem_cons_of_mem first in_rest)
      · rcases List.mem_cons.mp found with is_first | in_rest
        · exact .inr (is_first ▸ List.mem_cons_self)
        · exact (induction in_rest).imp_right (List.mem_cons_of_mem first)

theorem mem_of_member? {name : String} {value : Json} {members : List (String × Json)}
    (found : Json.member? name members = some value) : (name, value) ∈ members := by
  induction members with
  | nil => cases found
  | cons first rest induction =>
      obtain ⟨key, old⟩ := first
      rw [Json.member?] at found
      split_ifs at found with same
      · obtain rfl := Option.some.inj found
        exact same ▸ List.mem_cons_self
      · exact List.mem_cons_of_mem _ (induction found)

namespace MadeOf

variable {cell : Json → Prop} {segment : String → Prop}

theorem made_nil (cell : Json → Prop) (segment : String → Prop) :
    MadeOf cell segment (.object []) :=
  .object [] (.inl rfl) (fun _ within => absurd within List.not_mem_nil)
    fun _ within => absurd within List.not_mem_nil

/-- The members of an object that has been made of cells. -/
theorem exists_own (closed : ∀ own, cell (.object own) → ∀ member ∈ own, cell member.2)
    {members : List (String × Json)} (made : MadeOf cell segment (.object members)) :
    ∃ own, (own = [] ∨ cell (.object own)) ∧
      (∀ member ∈ members, member.1 ∈ own.map (·.1) ∨ segment member.1) ∧
      ∀ member ∈ members, MadeOf cell segment member.2 := by
  cases made with
  | cell found =>
      refine ⟨members, .inr found, fun member within => ?_, fun member within => ?_⟩
      · exact .inl (List.mem_map_of_mem within)
      · exact .cell (closed members found member within)
  | object own known named made => exact ⟨own, known, named, made⟩

theorem setMember (closed : ∀ own, cell (.object own) → ∀ member ∈ own, cell member.2)
    {members : List (String × Json)} (made : MadeOf cell segment (.object members)) {name : String}
    (is_segment : segment name) {value : Json} (value_made : MadeOf cell segment value) :
    MadeOf cell segment (.object (Json.setMember name value members)) := by
  obtain ⟨own, known, named, members_made⟩ := made.exists_own closed
  refine .object own known (fun member found => ?_) fun member found => ?_
  · rcases mem_setMember found with rfl | within
    · exact .inr is_segment
    · exact named member within
  · rcases mem_setMember found with rfl | within
    · exact value_made
    · exact members_made member within

/-- A value put to a path of segments keeps an object made of cells. -/
theorem nest (closed : ∀ own, cell (.object own) → ∀ member ∈ own, cell member.2) {value : Json}
    (value_made : MadeOf cell segment value) {path : List String}
    (segments : ∀ name ∈ path, segment name) {root : Json} (made : MadeOf cell segment root) :
    MadeOf cell segment (Tree.nest value path root) := by
  induction path, root using Tree.nest.induct with
  | case1 last members =>
      rw [Tree.nest]
      exact made.setMember closed (segments last List.mem_cons_self) value_made
  | case2 first next rest members inner induction =>
      rw [Tree.nest]
      refine made.setMember closed (segments first List.mem_cons_self) ?_
      refine induction (fun name within => segments name (List.mem_cons_of_mem first within)) ?_
      obtain ⟨own, known, named, members_made⟩ := made.exists_own closed
      cases found : Json.member? first members with
      | none =>
          have inner_eq : inner = .object [] := by simp only [inner, found, Option.getD_none]
          exact inner_eq ▸ made_nil cell segment
      | some inside =>
          have inner_eq : inner = inside := by simp only [inner, found, Option.getD_some]
          exact inner_eq ▸ members_made _ (mem_of_member? found)
  | case3 path root not_last not_further =>
      rw [Tree.nest]
      · exact made
      · exact not_last
      · exact not_further

end MadeOf

section Objects

variable {showNull : Bool} {columns : List ListColumn} {rows : List Row} {field : String}

theorem isCell_member {own : List (String × Json)}
    (found : IsCell showNull columns rows field (.object own)) {member : String × Json}
    (within : member ∈ own) : IsCell showNull columns rows field member.2 := by
  rcases found with ⟨column, column_in, same, row, row_in, cell, cell_eq, inside⟩ | ⟨_, is_null⟩
  · have inner : PartOf member.2 (.object own) := .member within .whole
    exact .inl ⟨column, column_in, same, row, row_in, cell, cell_eq, inner.trans inside⟩
  · cases is_null

/-- One more cell of a row. -/
theorem showsColumns_addCell {draft : Draft}
    (shown : ∀ entry ∈ draft.fields, ShowsColumns showNull columns rows entry.1 entry.2)
    {column : ListColumn} (column_in : column ∈ columns) {cell : Json}
    (is_cell : IsCell showNull columns rows column.field cell) :
    ∀ entry ∈ (draft.addCell column cell).fields,
      ShowsColumns showNull columns rows entry.1 entry.2 := by
  intro entry member
  rw [Draft.addCell] at member
  split at member
  next path_eq =>
    rcases mem_put member with rfl | in_draft
    · have field_eq : column.field = column.label := by rw [ListColumn.field, path_eq]; rfl
      exact ⟨⟨column, column_in, field_eq⟩, .cell (field_eq ▸ is_cell)⟩
    · exact shown entry in_draft
  next path path_eq =>
    rcases mem_put member with rfl | in_draft
    · have field_eq : column.field = column.selector.name := by rw [ListColumn.field, path_eq]; rfl
      refine ⟨⟨column, column_in, field_eq⟩, ?_⟩
      rw [← field_eq]
      refine MadeOf.nest (fun own found member within => isCell_member found within)
        (.cell is_cell) (fun name within => ⟨column, column_in, rfl, path, path_eq, within⟩) ?_
      cases found : find? column.field draft.fields with
      | none => exact MadeOf.made_nil _ _
      | some whole => exact (shown (column.field, whole) (mem_of_find? found)).2
    · exact shown entry in_draft

/-- The fields of the object that a row has for a list show columns. -/
theorem showsColumns_objectOf {row : Row} (row_in : row ∈ rows) :
    ∀ entry ∈ (objectOf showNull columns row).fields,
      ShowsColumns showNull columns rows entry.1 entry.2 := by
  rw [objectOf]
  refine List.foldlRecOn (motive := fun draft : Draft => ∀ entry ∈ draft.fields,
    ShowsColumns showNull columns rows entry.1 entry.2) columns _ ?_
      fun draft shown column column_in => ?_
  · intro entry member
    cases member
  · dsimp only
    split_ifs with left_out
    · exact shown
    · refine showsColumns_addCell shown column_in ?_
      cases found : Json.member? column.label row with
      | some cell => exact .inl ⟨column, column_in, rfl, row, row_in, cell, found, .whole⟩
      | none =>
          rw [found] at left_out
          exact .inr ⟨by simpa [Json.isNull] using left_out, rfl⟩

end Objects

/-! ## Values of lists -/

/-- What a tree is made from: its lists and rows, and whether nulls are shown. -/
structure Material where
  /-- The lists of all levels. -/
  lists : List TargetList
  /-- The rows. -/
  rows : List Row
  /-- Whether nulls and empty objects are kept. -/
  showNull : Bool

namespace Material

variable (material : Material)

/-- The columns that the rows have for a list; all rows are taken to have those of the first one. -/
def columns (list : TargetList) : List ListColumn :=
  columnsOf list (material.rows.headD [])

/-- A list whose objects attach to those of an owner in some way under some name. -/
structure Hangs (list : TargetList) (attachment : Attachment) (owner target : Option String) :
    Prop where
  /-- It is a list of the tree. -/
  within : list ∈ material.lists
  /-- It attaches in this way. -/
  attachment : list.lookUp.attachment = attachment
  /-- It attaches to this owner. -/
  owner : list.lookUp.parentList = owner
  /-- It attaches under this name. -/
  target : list.lookUp.parentTarget = target

/-- Whether a text is the key that a row has for a list. -/
def IsKey (list : TargetList) (key : String) : Prop :=
  ∃ column, list.lookUp.key = some column ∧
    ∃ row ∈ material.rows, Json.member? column row = some (.string key)

/-- Whether an object of an owner has a field with a value: a column of its own list, or what a list
that is merged into it has under the same name, or, where nulls are shown, null in place of that. -/
inductive HasField : Option String → String → Json → Prop
  | own {list : TargetList} {name : String} {value : Json} (within : list ∈ material.lists)
      (shown : ShowsColumns material.showNull (material.columns list) material.rows name value) :
      HasField (some list.name) name value
  | merged {list : TargetList} {owner : Option String} {name : String} {value : Json}
      (hangs : material.Hangs list .merge owner (some name))
      (below : HasField (some list.name) name value) : HasField owner name value
  | filled {list : TargetList} {owner : Option String} {name : String}
      (hangs : material.Hangs list .merge owner (some name)) (nulls : material.showNull = true) :
      HasField owner name .null

mutual

/-- Whether a value is an object of an owner that shows nothing but what there is. -/
inductive Shows : Option String → Json → Prop
  | object {owner : Option String} {members : List (String × Json)}
      (explained : ∀ name value, (name, value) ∈ members → ShowsMember owner name value) :
      Shows owner (.object members)

/-- Whether an object of an owner may have a member: a field, an object that is attached as the one
under its name, an entry of its own, a map or a list. -/
inductive ShowsMember : Option String → String → Json → Prop
  | field {owner : Option String} {name : String} {value : Json}
      (has : material.HasField owner name value) : ShowsMember owner name value
  | inline {list : TargetList} {owner : Option String} {name : String} {value : Json}
      (hangs : material.Hangs list .inline owner (some name))
      (below : Shows (some list.name) value) : ShowsMember owner name value
  | entry {list : TargetList} {owner : Option String} {name : String} {value : Json}
      (hangs : material.Hangs list .map owner none) (is_key : material.IsKey list name)
      (below : Shows (some list.name) value) : ShowsMember owner name value
  | map {list : TargetList} {owner : Option String} {name : String}
      {entries : List (String × Json)} (hangs : material.Hangs list .map owner (some name))
      (keys : ∀ key value, (key, value) ∈ entries → material.IsKey list key)
      (below : ∀ key value, (key, value) ∈ entries → Shows (some list.name) value) :
      ShowsMember owner name (.object entries)
  | list {list : TargetList} {owner : Option String} {name : String} {items : List Json}
      (hangs : material.Hangs list .list owner (some name))
      (below : ∀ item ∈ items, Shows (some list.name) item) : ShowsMember owner name (.array items)

end

/-- Whether a name is selected: a key that a row has for a map, the name under which a list attaches
as an object, as a map or as a list, a segment of the path of a column, or a column's own name. -/
def Selects (name : String) : Prop :=
  (∃ list ∈ material.lists, list.lookUp.attachment = .map ∧ material.IsKey list name) ∨
    (∃ list ∈ material.lists, list.lookUp.attachment ≠ .merge ∧ list.lookUp.parentTarget = some name) ∨
    (∃ list ∈ material.lists, ∃ field, IsSegment (material.columns list) field name) ∨
    ∃ list ∈ material.lists, ∃ column ∈ material.columns list, column.field = name

variable {material} {owner : Option String} {name : String} {value : Json}

theorem HasField.selects (has : material.HasField owner name value) :
    material.Selects name ∨ material.showNull = true ∧ value = .null ∧
      ∃ list ∈ material.lists, list.lookUp.attachment = .merge ∧
        list.lookUp.parentTarget = some name := by
  induction has with
  | own within shown =>
      obtain ⟨column, column_in, field_eq⟩ := shown.1
      exact .inl (.inr (.inr (.inr ⟨_, within, column, column_in, field_eq⟩)))
  | merged hangs below induction => exact induction
  | filled hangs nulls => exact .inr ⟨nulls, rfl, _, hangs.within, hangs.attachment, hangs.target⟩

/-- Every name in an object is selected, except for that of a null in place of a merged field. -/
theorem ShowsMember.selects (shows : material.ShowsMember owner name value) :
    material.Selects name ∨ material.showNull = true ∧ value = .null ∧
      ∃ list ∈ material.lists, list.lookUp.attachment = .merge ∧
        list.lookUp.parentTarget = some name := by
  have of_hangs : ∀ {list : TargetList} {attachment : Attachment},
      material.Hangs list attachment owner (some name) → attachment ≠ .merge →
        material.Selects name := fun hangs not_merge =>
    .inr (.inl ⟨_, hangs.within, hangs.attachment ▸ not_merge, hangs.target⟩)
  cases shows with
  | field has => exact has.selects
  | inline hangs below => exact .inl (of_hangs hangs (by decide))
  | entry hangs is_key below => exact .inl (.inl ⟨_, hangs.within, hangs.attachment, is_key⟩)
  | map hangs keys below => exact .inl (of_hangs hangs (by decide))
  | list hangs below => exact .inl (of_hangs hangs (by decide))

end Material

end StationGateway.Tree
