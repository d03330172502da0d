import Mathlib
import StationGateway.Proofs.Expansion.Alike
import StationGateway.Proofs.Statement.References

/-!
# Columns in conditions

Which qualified columns a text names, and which columns a compiled filter reads: for each comparison
the column of its attribute, in the preferred list if that defines it. -/

namespace StationGateway

open Text StationGateway.Filter Outcome

namespace Sql

/-! ## Qualified columns of texts -/

/-- Whether a character belongs to a qualified name. -/
def isColumnChar (char : Char) : Bool :=
  Statement.isNamePart char || char == '.'

/-- A word that has been read backwards, if it is a qualified column. -/
def qualified (word : List Char) : List (List Char) :=
  if '.' ∈ word then [word.reverse] else []

/-- The qualified columns from a state on: whether a literal is open, and the word so far, backwards.
-/
def columnsFrom (quoted : Bool) (word : List Char) : List Char → List (List Char)
  | [] => qualified word
  | char :: rest =>
      if char = '\'' then qualified word ++ columnsFrom (!quoted) [] rest
      else if quoted then columnsFrom quoted [] rest
      else if isColumnChar char then columnsFrom quoted (char :: word) rest
      else qualified word ++ columnsFrom quoted [] rest

/-- The qualified columns that a text names outside literals. -/
def columnsIn (text : String) : List String :=
  (columnsFrom false [] text.toList).map String.ofList

/-- The table, or the name it goes by, that a column is qualified with. -/
def qualifier (column : String) : String :=
  String.ofList (column.toList.takeWhile fun char => char ≠ '.')

/-- A character that belongs to no name and opens no literal. -/
def IsGap (char : Char) : Prop :=
  char ≠ '\'' ∧ isColumnChar char = false

instance (char : Char) : Decidable (IsGap char) :=
  inferInstanceAs (Decidable (_ ∧ _))

/-- A text that ends outside literals is split from what is behind a gap. -/
theorem columnsFrom_append_gap {char : Char} (gap : IsGap char) {text : List Char} {quoted : Bool}
    (word : List Char) (closed : quoted = decide (Odd (text.count '\''))) (rest : List Char) :
    columnsFrom quoted word (text ++ char :: rest) =
      columnsFrom quoted word text ++ columnsFrom false [] rest := by
  induction text generalizing quoted word with
  | nil =>
      obtain rfl : quoted = false := by simpa using closed
      rw [List.nil_append, columnsFrom, columnsFrom, if_neg gap.1, gap.2]
      rfl
  | cons first text induction =>
      rw [List.cons_append, columnsFrom, columnsFrom]
      split_ifs with is_quote is_quoted in_name
      · have rest_closed : (!quoted) = decide (Odd (text.count '\'')) := by
          rw [closed, is_quote, List.count_cons_self]
          simp [Nat.odd_add_one, -Nat.not_odd_iff_even]
        rw [induction [] rest_closed, List.append_assoc]
      · exact induction [] (by rwa [List.count_cons_of_ne is_quote] at closed)
      · exact induction (first :: word) (by rwa [List.count_cons_of_ne is_quote] at closed)
      · rw [induction [] (by rwa [List.count_cons_of_ne is_quote] at closed), List.append_assoc]

section

variable {before after : String} {char : Char}

/-- The qualified columns on both sides of a gap. -/
theorem columnsIn_gap (closed : Statement.Closed before) (gap : IsGap char) :
    columnsIn (before ++ String.singleton char ++ after) = columnsIn before ++ columnsIn after := by
  have even : false = decide (Odd (before.toList.count '\'')) := by
    rw [eq_comm, decide_eq_false_iff_not, Nat.not_odd_iff_even]
    exact closed
  rw [columnsIn, String.toList_append, String.toList_append, String.toList_singleton,
    List.append_assoc, List.singleton_append, columnsFrom_append_gap gap [] even, List.map_append]
  rfl

/-- Closed texts joined by a word with gaps around it name what each of them does. -/
theorem mem_columnsIn_join {word : String} (word_closed : Statement.Closed word)
    (no_columns : columnsIn word = []) {texts : List String}
    (closed : ∀ text ∈ texts, Statement.Closed text) {column : String}
    (member : column ∈ columnsIn (join (" " ++ word ++ " ") texts)) :
    ∃ text ∈ texts, column ∈ columnsIn text := by
  have blank : IsGap ' ' := by decide
  have blank_closed : Statement.Closed " " := by decide
  induction texts with
  | nil => cases member
  | cons text rest induction =>
      have text_closed := closed text List.mem_cons_self
      cases rest with
      | nil => exact ⟨text, List.mem_cons_self, member⟩
      | cons next others =>
          have regroup : text ++ (" " ++ word ++ " ") ++ join (" " ++ word ++ " ") (next :: others) =
              text ++ " " ++ (word ++ " " ++ join (" " ++ word ++ " ") (next :: others)) := by
            simp only [String.append_assoc]
          have outer := @columnsIn_gap text
            (word ++ " " ++ join (" " ++ word ++ " ") (next :: others)) ' ' text_closed blank
          have inner := @columnsIn_gap word (join (" " ++ word ++ " ") (next :: others)) ' '
            word_closed blank
          have single : String.singleton ' ' = " " := rfl
          rw [single] at outer inner
          rw [join_cons_of_ne_nil _ _ (List.cons_ne_nil next others), regroup, outer, inner,
            no_columns, List.nil_append, List.mem_append] at member
          rcases member with in_text | in_rest
          · exact ⟨text, List.mem_cons_self, in_text⟩
          · obtain ⟨found, found_in, in_found⟩ := induction (fun other other_in =>
              closed other (List.mem_cons_of_mem text other_in)) in_rest
            exact ⟨found, List.mem_cons_of_mem text found_in, in_found⟩

/-- A text in parentheses names what it does without them. -/
theorem columnsIn_group {text : String} (closed : Statement.Closed text) :
    columnsIn ("(" ++ text ++ ")") = columnsIn text := by
  have opening : IsGap '(' := by decide
  have ending : IsGap ')' := by decide
  have nothing : columnsIn "" = [] := rfl
  have front := @columnsIn_gap "" (text ++ ")") '(' Statement.closed_empty opening
  have back := @columnsIn_gap text "" ')' closed ending
  have open_mark : String.singleton '(' = "(" := rfl
  have end_mark : String.singleton ')' = ")" := rfl
  rw [String.empty_append, nothing, List.nil_append, open_mark] at front
  rw [String.append_empty, nothing, List.append_nil, end_mark] at back
  rw [String.append_assoc, front, back]

end

end Sql

/-! ## Columns of predicates -/

/-- The columns that a piece of a comparison names. Paths stand in literals, and values are referred
to by name. -/
def Piece.columns : Piece → List String
  | .text kept => Sql.columnsIn kept
  | .column expression => Sql.columnsIn expression
  | .path _ => []
  | .value _ => []

namespace Predicate

mutual

/-- The columns that a predicate names, in the order of the text. -/
def columns : Predicate → List String
  | all parts => columnsOf parts
  | any parts => columnsOf parts
  | comparison pieces => pieces.flatMap Piece.columns

/-- The columns that several predicates name. -/
def columnsOf : List Predicate → List String
  | [] => []
  | part :: rest => columns part ++ columnsOf rest

end

end Predicate

namespace Sql

/-- A text without points names no column. -/
theorem columnsIn_eq_nil {text : String} (no_point : '.' ∉ text.toList) : columnsIn text = [] := by
  have from_state : ∀ chars : List Char, '.' ∉ chars → ∀ quoted word, '.' ∉ word →
      columnsFrom quoted word chars = [] := by
    intro chars absent
    induction chars with
    | nil =>
        intro quoted word plain
        rw [columnsFrom, qualified, if_neg plain]
    | cons char rest induction =>
        obtain ⟨char_ne, rest_absent⟩ := not_or.mp (mt List.mem_cons.mpr absent)
        intro quoted word plain
        have next := induction rest_absent
        have no_word : qualified word = [] := by rw [qualified, if_neg plain]
        rw [columnsFrom]
        split_ifs with is_quote is_quoted in_name
        · rw [no_word, next _ _ List.not_mem_nil, List.append_nil]
        · exact next _ _ List.not_mem_nil
        · exact next _ _ (mt List.mem_cons.mp (not_or.mpr ⟨char_ne, plain⟩))
        · rw [no_word, next _ _ List.not_mem_nil, List.append_nil]
  rw [columnsIn, from_state text.toList no_point false [] List.not_mem_nil, List.map_nil]

end Sql

namespace Filter

/-- The text of the templates of the API names no column. -/
theorem point_notMem_symbols {template : String} (comparison : IsComparison template) :
    Symbol.char '.' ∉ symbols template.toList := by
  obtain ⟨place, place_mem, sign, sign_mem, ending, ending_mem, rfl⟩ := comparison
  have no_place : ∀ place ∈ columnPlaces, Symbol.char '.' ∉ symbols place.toList := by decide
  have no_sign : ∀ sign ∈ templateSigns, '.' ∉ sign.toList := by decide
  have no_ending : ∀ ending ∈ valuePlaces, Symbol.char '.' ∉ symbols ending.toList := by decide
  rw [symbols_comparison place_mem sign_mem]
  simp [no_place place place_mem, no_sign sign sign_mem, no_ending ending ending_mem]

/-- The text that a template keeps consists of its symbols. -/
theorem char_mem_symbols {template kept : String} (member : .text kept ∈ parseTemplate template)
    {char : Char} (char_in : char ∈ kept.toList) : Symbol.char char ∈ symbols template.toList := by
  rw [symbols, List.mem_flatMap]
  exact ⟨.text kept, member, List.mem_map_of_mem char_in⟩

end Filter

namespace Scope

variable {scope : Scope} {preferred : Option String}

mutual

/-- A compiled filter names the columns of its comparisons. -/
theorem exists_clause_of_compile (operators : scope.operators = .standard) {filter : Filter}
    {predicate : Predicate} (compiled : scope.compile preferred filter = .ok predicate)
    {column : String} (member : column ∈ predicate.columns) :
    ∃ clause ∈ filter.clauses, ∃ expression, scope.columnOf? preferred clause.key = some expression ∧
      column ∈ Sql.columnsIn expression := by
  cases filter with
  | all parts =>
      obtain ⟨predicates, compiled_parts, rfl⟩ := map_eq_ok_iff.mp compiled
      exact exists_clause_of_compileAll operators compiled_parts member
  | any parts =>
      obtain ⟨predicates, compiled_parts, rfl⟩ := map_eq_ok_iff.mp compiled
      exact exists_clause_of_compileAll operators compiled_parts member
  | clause comparison =>
      obtain ⟨expression, operator, found, applies, rfl⟩ := compileClause_eq_ok_iff.mp compiled
      have in_table := get?_of_operatorOf applies
      rw [operators] at in_table
      rw [Predicate.columns, List.mem_flatMap] at member
      obtain ⟨piece, piece_in, column_in⟩ := member
      obtain ⟨part, part_in, rfl⟩ := List.mem_map.mp piece_in
      refine ⟨comparison, List.mem_singleton.mpr rfl, expression, found, ?_⟩
      cases part with
      | column => exact column_in
      | text kept =>
          have no_point : '.' ∉ kept.toList := fun point =>
            point_notMem_symbols (isComparison_of_standard in_table) (char_mem_symbols part_in point)
          have nothing : column ∈ Sql.columnsIn kept := column_in
          rw [Sql.columnsIn_eq_nil no_point] at nothing
          cases nothing
      | path => cases column_in
      | value slice => cases column_in

theorem exists_clause_of_compileAll (operators : scope.operators = .standard) {parts : List Filter}
    {predicates : List Predicate} (compiled : scope.compileAll preferred parts = .ok predicates)
    {column : String} (member : column ∈ Predicate.columnsOf predicates) :
    ∃ clause ∈ Filter.clausesOf parts, ∃ expression,
      scope.columnOf? preferred clause.key = some expression ∧ column ∈ Sql.columnsIn expression := by
  cases parts with
  | nil =>
      obtain rfl := Except.ok.inj compiled
      cases member
  | cons part rest =>
      obtain ⟨first, others, compiled_part, compiled_rest, rfl⟩ := Scope.exists_of_compileAll_cons compiled
      rw [Predicate.columnsOf, List.mem_append] at member
      rcases member with in_first | in_rest
      · obtain ⟨clause, clause_in, found⟩ :=
          exists_clause_of_compile operators compiled_part in_first
        exact ⟨clause, List.mem_append_left _ clause_in, found⟩
      · obtain ⟨clause, clause_in, found⟩ :=
          exists_clause_of_compileAll operators compiled_rest in_rest
        exact ⟨clause, List.mem_append_right _ clause_in, found⟩

end

end Scope

/-! ## Columns of attributes -/

namespace Mobility

/-- The columns of attributes that are computed from a column of a table. -/
def computedColumns : List String :=
  ["st_transform(e.linegeometry, 4326)", "st_transform(loc.geometry, 4326)",
    "lower(ev.event_interval)", "upper(ev.event_interval)"]

private theorem columns_checked : ∀ list ∈ lists, ∀ field ∈ list.attributes,
    ∀ column ∈ field.column?, Sql.columnsIn column = [column] ∨ column ∈ computedColumns := by
  decide +kernel

theorem columnsIn_column {list : TargetList} (list_mem : list ∈ lists) {field : Attribute}
    (field_mem : field ∈ list.attributes) {column : String} (column_eq : field.column? = some column) :
    Sql.columnsIn column = [column] ∨ column ∈ computedColumns :=
  columns_checked list list_mem field field_mem column column_eq

end Mobility

end StationGateway
