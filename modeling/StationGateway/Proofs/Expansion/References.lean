import Mathlib
import StationGateway.Proofs.Expansion.Alike
import StationGateway.Proofs.Expansion.Gathered
import StationGateway.Proofs.Expansion.Meaning
import StationGateway.Proofs.Expansion.Outputs
import StationGateway.Proofs.Statement.References

/-!
# References of compiled filters and projections

A compiled filter refers to its values and to nothing else, and closes every literal. A projection of
a whole attribute refers to nothing. A projection of a place inside a value has its path in a label,
which is no literal, so the path may spell references. -/

namespace StationGateway

open Text StationGateway.Filter StationGateway.Sql Statement Outcome

/-! ## Literals and names -/

private theorem referencesFrom_quoted {text : List Char} (no_quote : '\'' ∉ text) (seen : List Char) :
    referencesFrom (.quoted seen) (text ++ ['\'']) = [] := by
  induction text generalizing seen with
  | nil => rfl
  | cons char rest induction =>
      obtain ⟨char_ne, rest_free⟩ := not_or.mp (mt List.mem_cons.mpr no_quote)
      rw [referencesFrom, List.cons_append, tokensFrom, stepToken, if_neg (Ne.symm char_ne)]
      exact induction rest_free _

/-- A literal refers to nothing. -/
theorem silent_literal {text : String} (no_quote : '\'' ∉ text.toList) : Silent ("'" ++ text ++ "'") := by
  have count_eq : text.toList.count '\'' = 0 := List.count_eq_zero.mpr no_quote
  refine ⟨?_, ?_⟩
  · rw [Closed, String.toList_append, String.toList_append, List.count_append, List.count_append,
      count_eq]
    decide
  · have written : ("'" ++ text ++ "'").toList = '\'' :: (text.toList ++ ['\'']) := by simp
    rw [references, written, referencesFrom, tokensFrom, stepToken, beginToken, if_pos rfl]
    exact referencesFrom_quoted no_quote ['\'']

private theorem referencesFrom_name {text : List Char} (parts : ∀ char ∈ text, isNamePart char = true)
    (seen : List Char) :
    referencesFrom (.name seen) text = [String.ofList (seen.reverse ++ text)] := by
  induction text generalizing seen with
  | nil => simp [referencesFrom, tokensFrom, endToken, Token.name?]
  | cons char rest induction =>
      rw [referencesFrom, tokensFrom, stepToken, if_pos (parts char List.mem_cons_self)]
      have rest_eq := induction (fun other member => parts other (List.mem_cons_of_mem char member))
        (char :: seen)
      rw [List.reverse_cons, List.append_assoc] at rest_eq
      exact rest_eq

/-- The reference to a value of a filter. -/
theorem references_valueName (number : Nat) :
    Closed (":" ++ Predicate.valueName number) ∧
      references (":" ++ Predicate.valueName number) = [Predicate.valueName number] := by
  have parts : ∀ char ∈ "where_".toList ++ (toString number).toList, isNamePart char = true := by
    intro char member
    rcases List.mem_append.mp member with in_word | in_digits
    · exact List.all_eq_true.mp (by decide) char in_word
    · have digit := isDigit_of_mem_toString in_digits
      simp [isNamePart, Char.isAlphanum, digit]
  have no_quote : '\'' ∉ "where_".toList ++ (toString number).toList := fun member =>
    absurd (parts _ member) (by decide)
  have written : (":" ++ Predicate.valueName number).toList =
      ':' :: 'p' :: ("where_".toList ++ (toString number).toList) := by
    simp [Predicate.valueName]
  refine ⟨?_, ?_⟩
  · rw [Closed, written, List.count_cons_of_ne (by decide), List.count_cons_of_ne (by decide),
      List.count_eq_zero.mpr no_quote]
    exact Even.zero
  · have named := referencesFrom_name parts ['p']
    have name_eq : String.ofList (['p'].reverse ++ ("where_".toList ++ (toString number).toList)) =
        Predicate.valueName number := by
      apply String.toList_injective
      simp [Predicate.valueName]
    rw [name_eq] at named
    have first_step : stepToken .plain ':' = ([], .colon) := by simp [stepToken, beginToken]
    have second_step : stepToken .colon 'p' = ([], .name ['p']) := by
      rw [stepToken, if_neg (by decide), if_pos (by decide)]
    rw [references, written, referencesFrom_cons, first_step, referencesFrom_cons, second_step]
    exact named

/-! ## Comparisons -/

section

variable {column path : String}

/-- A place inside a column refers to nothing if neither the column nor its path does. -/
theorem silent_place (column_silent : Silent column) (no_quote : '\'' ∉ path.toList) :
    Silent (column ++ "#>" ++ ("'" ++ ("\x7b" ++ path ++ "\x7d") ++ "'")) ∧
      Silent (column ++ "#>" ++ (">" ++ ("'" ++ ("\x7b" ++ path ++ "\x7d") ++ "'"))) := by
  have literal : Silent ("'" ++ ("\x7b" ++ path ++ "\x7d") ++ "'") :=
    silent_literal (by simpa using no_quote)
  have arrow : Separates "#>" := separates_of_isSeparator (by decide)
  have more : Separates ">" := separates_of_isSeparator (by decide)
  refine ⟨column_silent.append arrow literal, ?_⟩
  have deeper : Silent ("" ++ ">" ++ ("'" ++ ("\x7b" ++ path ++ "\x7d") ++ "'")) :=
    Silent.append silent_empty more literal
  rw [String.empty_append] at deeper
  exact column_silent.append arrow deeper

variable {filling : Filling}

/-- The column of a comparison, or the place inside its value, refers to nothing. -/
theorem silent_columnPlace (column_silent : Silent filling.column)
    (no_quote : '\'' ∉ filling.path.toList) {place : String} (member : place ∈ columnPlaces) :
    Silent (String.ofList (filling.fill (symbols place.toList))) := by
  obtain ⟨json_silent, text_silent⟩ := silent_place column_silent no_quote
  have in_group : ∀ cast : String, Silent cast →
      Silent ("" ++ "(" ++ (filling.column ++ "#>" ++
        ("'" ++ ("\x7b" ++ filling.path ++ "\x7d") ++ "'")) ++ ")" ++ cast) := by
    intro cast cast_silent
    obtain ⟨closed, same⟩ := references_group json_silent.1 silent_empty cast_silent
    exact ⟨closed, same.trans json_silent.2⟩
  have written : ∀ filled : String, filling.fill (symbols place.toList) = filled.toList →
      Silent filled → Silent (String.ofList (filling.fill (symbols place.toList))) := by
    intro filled filled_eq silent
    rwa [filled_eq, String.ofList_toList]
  simp only [columnPlaces, List.mem_cons, List.not_mem_nil, or_false] at member
  rcases member with rfl | rfl | rfl | rfl | rfl
  · refine written _ ?_ column_silent
    have found : symbols "%c".toList = [.column] := by decide
    rw [found]
    simp [Filling.fill, Filling.text]
  · refine written _ ?_ json_silent
    have found : symbols jsonPlace.toList =
        .column :: ("#>'\x7b".toList.map .char ++ .path :: "\x7d'".toList.map .char) := by decide
    rw [found]
    simp [Filling.fill, Filling.text]
  · refine written _ ?_ text_silent
    have found : symbols textPlace.toList =
        .column :: ("#>>'\x7b".toList.map .char ++ .path :: "\x7d'".toList.map .char) := by decide
    rw [found]
    simp [Filling.fill, Filling.text]
  · refine written _ ?_ (in_group "::double precision" (by decide))
    have found : symbols numberPlace.toList =
        .char '(' :: .column :: ("#>'\x7b".toList.map .char ++
          .path :: "\x7d')::double precision".toList.map .char) := by decide
    rw [found]
    simp [Filling.fill, Filling.text]
  · refine written _ ?_ (in_group "::boolean" (by decide))
    have found : symbols booleanPlace.toList =
        .char '(' :: .column :: ("#>'\x7b".toList.map .char ++
          .path :: "\x7d')::boolean".toList.map .char) := by decide
    rw [found]
    simp [Filling.fill, Filling.text]

/-- The operand of a comparison refers to its value, also in parentheses. -/
theorem references_valuePlace (closed : Closed filling.reference) {ending : String}
    (member : ending ∈ valuePlaces) :
    Closed (String.ofList (filling.fill (symbols ending.toList))) ∧
      references (String.ofList (filling.fill (symbols ending.toList))) =
        references filling.reference := by
  have in_group : ∀ before : String, Silent before →
      Closed (before ++ "(" ++ filling.reference ++ ")" ++ "") ∧
        references (before ++ "(" ++ filling.reference ++ ")" ++ "") =
          references filling.reference := fun before before_silent =>
    references_group closed before_silent silent_empty
  have written : ∀ filled : String, filling.fill (symbols ending.toList) = filled.toList →
      Closed filled ∧ references filled = references filling.reference →
        Closed (String.ofList (filling.fill (symbols ending.toList))) ∧
          references (String.ofList (filling.fill (symbols ending.toList))) =
            references filling.reference := by
    intro filled filled_eq same
    rwa [filled_eq, String.ofList_toList]
  simp only [valuePlaces, List.mem_cons, List.not_mem_nil, or_false] at member
  rcases member with rfl | rfl | rfl
  · refine written _ ?_ ⟨closed, rfl⟩
    have found : symbols "%v".toList = [.value none] := by decide
    rw [found]
    simp [Filling.fill, Filling.text]
  · refine written _ ?_ (in_group "" silent_empty)
    have found : symbols "(%v)".toList = [.char '(', .value none, .char ')'] := by decide
    rw [found]
    simp [Filling.fill, Filling.text]
  · refine written _ ?_ (in_group "ST_MakeEnvelope" (by decide))
    have found : symbols "ST_MakeEnvelope(%v)".toList =
        "ST_MakeEnvelope".toList.map .char ++ [.char '(', .value none, .char ')'] := by decide
    rw [found]
    simp [Filling.fill, Filling.text]

/-- A comparison with its places filled refers to its value. -/
theorem references_fill (column_silent : Silent filling.column)
    (no_quote : '\'' ∉ filling.path.toList) (closed : Closed filling.reference) {template : String}
    (comparison : IsComparison template) :
    Closed (String.ofList (filling.fill (symbols template.toList))) ∧
      references (String.ofList (filling.fill (symbols template.toList))) =
        references filling.reference := by
  obtain ⟨place, place_mem, sign, sign_mem, ending, ending_mem, rfl⟩ := comparison
  have signs_silent : ∀ sign ∈ templateSigns, Silent sign := by decide
  have blank : Separates " " := separates_of_isSeparator (by decide)
  have place_silent := silent_columnPlace column_silent no_quote place_mem
  obtain ⟨ending_closed, same⟩ := references_valuePlace closed ending_mem
  have whole : String.ofList (filling.fill (symbols (place ++ " " ++ sign ++ " " ++ ending).toList)) =
      String.ofList (filling.fill (symbols place.toList)) ++ " " ++ sign ++ " " ++
        String.ofList (filling.fill (symbols ending.toList)) := by
    apply String.toList_injective
    rw [symbols_comparison place_mem sign_mem, Filling.fill_append, Filling.fill_cons,
      Filling.fill_append, Filling.fill_chars, Filling.fill_cons]
    simp [Filling.text]
  have front := place_silent.append blank (signs_silent sign sign_mem)
  rw [whole]
  refine ⟨(front.1.append blank.1).append ending_closed, ?_⟩
  rw [blank.2 _ _ front.1, front.2, same]
  rfl

end

/-! ## Filters -/

private theorem colons_checked :
    ∀ list ∈ Mobility.lists, ∀ field ∈ list.attributes, ∀ column ∈ field.column?,
      ':' ∉ column.toList := by
  decide +kernel

/-- The columns of the API refer to nothing. -/
theorem silent_of_column {list : TargetList} (list_mem : list ∈ Mobility.lists) {field : Attribute}
    (field_mem : field ∈ list.attributes) {column : String} (column_eq : field.column? = some column) :
    Silent column := by
  have ordinary := Mobility.ordinary_of_column list_mem field_mem (by rw [column_eq]; rfl)
  have no_quote := ordinary.notMem_placeColumn (by decide : isMark '\'' = true)
  rw [Attribute.placeColumn, column_eq, Option.getD_some] at no_quote
  exact silent_of_tame (colons_checked list list_mem field field_mem column column_eq) no_quote

theorem silent_of_columnOf? {scope : Scope} (catalogue : scope.catalogue = Mobility.catalogue)
    {preferred : Option String} {key column : String}
    (found : scope.columnOf? preferred key = some column) : Silent column := by
  obtain ⟨list, list_mem, field, field_mem, column_eq⟩ := Scope.exists_field_of_columnOf? found
  rw [catalogue] at list_mem
  exact silent_of_column list_mem field_mem column_eq

section

variable {scope : Scope} {preferred : Option String}

/-- A compiled comparison refers to its value, unless this is the word `null`. -/
theorem references_of_compileClause
    (silent : ∀ key column, scope.columnOf? preferred key = some column → Silent column)
    (operators : scope.operators = .standard) {clause : Clause}
    (fine : clause.WellFormed scope.operators.isName) {predicate : Predicate}
    (compiled : scope.compileClause preferred clause = .ok predicate) (taken : Nat) :
    Closed (predicate.textFrom taken) ∧ references (predicate.textFrom taken) =
      (List.range' taken predicate.values.length).map Predicate.valueName := by
  obtain ⟨column, operator, found, -, comparison, written, count⟩ :=
    exists_filled_of_compileClause operators compiled taken
  have null_silent : Silent "null" := by decide
  have reference : Closed (clause.reference taken) ∧ references (clause.reference taken) =
      (List.range' taken clause.references).map Predicate.valueName := by
    rw [Clause.reference, Clause.references]
    split_ifs with is_null
    · exact null_silent
    · exact references_valueName taken
  have column_silent : Silent (clause.filling column taken).column := silent clause.key column found
  have no_quote : '\'' ∉ (clause.filling column taken).path.toList := quote_not_mem_pathText fine
  obtain ⟨closed, same⟩ := references_fill column_silent no_quote reference.1 comparison
  obtain ⟨group_closed, group_same⟩ := references_group closed
    silent_empty silent_empty
  rw [String.empty_append, String.append_empty] at group_closed group_same
  rw [written, count]
  exact ⟨group_closed, group_same.trans (same.trans reference.2)⟩

/-- Joined texts in parentheses refer to what each of them does. -/
theorem references_joined {separator : String} (separates : Separates separator)
    {texts : List String} (closed : ∀ text ∈ texts, Closed text) :
    Closed ("(" ++ join separator texts ++ ")") ∧
      references ("(" ++ join separator texts ++ ")") = texts.flatMap references := by
  obtain ⟨join_closed, join_same⟩ := references_join separates closed
  obtain ⟨group_closed, group_same⟩ := references_group join_closed silent_empty silent_empty
  rw [String.empty_append, String.append_empty] at group_closed group_same
  exact ⟨group_closed, group_same.trans join_same⟩

mutual

/-- If its columns refer to nothing, a compiled filter refers to its values by name, each of them once
and in order. -/
theorem references_of_compile
    (silent : ∀ key column, scope.columnOf? preferred key = some column → Silent column)
    (operators : scope.operators = .standard) {filter : Filter}
    (fine : filter.WellFormed scope.operators.isName) {predicate : Predicate}
    (compiled : scope.compile preferred filter = .ok predicate) (taken : Nat) :
    Closed (predicate.textFrom taken) ∧ references (predicate.textFrom taken) =
      (List.range' taken predicate.values.length).map Predicate.valueName := by
  cases filter with
  | all parts =>
      obtain ⟨predicates, compiled_parts, rfl⟩ := map_eq_ok_iff.mp compiled
      obtain ⟨closed, same⟩ :=
        references_of_compileAll silent operators fine.2 compiled_parts taken
      have separates : Separates " and " := separates_of_isSeparator (by decide)
      obtain ⟨joined_closed, joined_same⟩ := references_joined separates closed
      exact ⟨joined_closed, joined_same.trans same⟩
  | any parts =>
      obtain ⟨predicates, compiled_parts, rfl⟩ := map_eq_ok_iff.mp compiled
      obtain ⟨closed, same⟩ :=
        references_of_compileAll silent operators fine.2 compiled_parts taken
      have separates : Separates " or " := separates_of_isSeparator (by decide)
      obtain ⟨joined_closed, joined_same⟩ := references_joined separates closed
      exact ⟨joined_closed, joined_same.trans same⟩
  | clause comparison => exact references_of_compileClause silent operators fine compiled taken

theorem references_of_compileAll
    (silent : ∀ key column, scope.columnOf? preferred key = some column → Silent column)
    (operators : scope.operators = .standard) {parts : List Filter}
    (fine : AllWellFormed scope.operators.isName parts) {predicates : List Predicate}
    (compiled : scope.compileAll preferred parts = .ok predicates) (taken : Nat) :
    (∀ text ∈ Predicate.textsFrom taken predicates, Closed text) ∧
      (Predicate.textsFrom taken predicates).flatMap references =
        (List.range' taken (Predicate.valuesOf predicates).length).map Predicate.valueName := by
  cases parts with
  | nil =>
      obtain rfl := Except.ok.inj compiled
      exact ⟨fun _ member => absurd member List.not_mem_nil, rfl⟩
  | cons part rest =>
      obtain ⟨first, others, compiled_part, compiled_rest, rfl⟩ := Scope.exists_of_compileAll_cons compiled
      obtain ⟨closed, same⟩ :=
        references_of_compile silent operators fine.1 compiled_part taken
      obtain ⟨rest_closed, rest_same⟩ := references_of_compileAll silent operators fine.2
        compiled_rest (taken + first.values.length)
      refine ⟨List.forall_mem_cons.mpr ⟨closed, rest_closed⟩, ?_⟩
      rw [Predicate.textsFrom, List.flatMap_cons, same, rest_same, Predicate.valuesOf,
        List.length_append, ← List.map_append, List.range'_append_1]

end

end

/-! ## Projections -/

private theorem valueSlots_silent : ∀ slot ∈ Mobility.valueSlots,
    Silent slot.1 ∧ Silent slot.2.expression ∧ Silent slot.2.label := by
  decide +kernel

section

variable {list : TargetList} {field : Attribute}

/-- A column with a label refers to nothing if neither of them does. -/
theorem silent_output {output : Output} (expression : Silent output.expression)
    (label : Silent output.label) : Silent output.text := by
  have between : Separates " as " := separates_of_isSeparator (by decide)
  exact expression.append between label

/-- A column refers to nothing, also as a time or a geometry. -/
theorem silent_applyFormat {format : String} (known : format ∈ Mobility.columnFormats)
    {column : String} (column_silent : Silent column) : Silent (applyFormat format column) := by
  have blank : Separates " " := separates_of_isSeparator (by decide)
  have opening : Separates "(" := separates_of_isSeparator (by decide)
  have closing : Separates ")" := separates_of_isSeparator (by decide)
  have comma : Separates "," := separates_of_isSeparator (by decide)
  simp only [Mobility.columnFormats, List.mem_cons, List.not_mem_nil, or_false] at known
  rcases known with rfl | rfl | rfl
  · rwa [applyFormat_slot]
  · have function_silent : Silent "timezone('UTC'," := silent_ofList (by decide)
    have silent := (function_silent.append blank column_silent).append closing silent_empty
    rw [String.append_empty] at silent
    rwa [@applyFormat_eq _ ("timezone('UTC'," ++ " ") ")" (by decide +kernel) (by decide)]
  · have function_silent : Silent "st_asgeojson" := silent_ofList (by decide)
    have options_silent : Silent " 9, 3)::jsonb" := silent_ofList (by decide)
    have silent := (function_silent.append opening column_silent).append comma options_silent
    rw [String.append_assoc] at silent
    rwa [@applyFormat_eq _ ("st_asgeojson" ++ "(") ("," ++ " 9, 3)::jsonb") (by decide +kernel)
      (by decide)]

theorem silent_finalName (list_mem : list ∈ Mobility.lists) (field_mem : field ∈ list.attributes)
    (not_pointer : field.isPointer = false) : Silent field.finalName := by
  have ordinary := Mobility.ordinary_of_column list_mem field_mem
    (Mobility.isSome_column? list_mem field_mem not_pointer)
  exact silent_of_tame (ordinary.notMem_finalName (by decide)) (ordinary.notMem_finalName (by decide))

/-- A whole attribute is projected without references. -/
theorem silent_text_whole (list_mem : list ∈ Mobility.lists) (field_mem : field ∈ list.attributes)
    (not_pointer : field.isPointer = false) : Silent (Fragment.text ⟨field, none⟩) := by
  have outputs_silent : ∀ output ∈ field.outputs, Silent output.text := by
    by_cases is_value : field ∈ Mobility.valueFields
    · obtain ⟨column, -, -, outputs_eq, -⟩ := Mobility.outputs_of_value is_value
      rw [outputs_eq]
      intro output member
      obtain ⟨slot, slot_in, rfl⟩ := List.mem_map.mp member
      obtain ⟨column_silent, other_silent, label_silent⟩ := valueSlots_silent slot slot_in
      refine silent_output ?_ label_silent
      dsimp only
      split_ifs with is_column
      · exact is_column ▸ column_silent
      · exact other_silent
    · obtain ⟨-, -, outputs_eq⟩ := Mobility.outputs_of_plain list_mem field_mem is_value
      obtain ⟨column, column_eq⟩ :=
        Option.isSome_iff_exists.mp (Mobility.isSome_column? list_mem field_mem not_pointer)
      rw [outputs_eq]
      refine List.forall_mem_singleton.mpr (silent_output ?_ ?_)
      · rw [Attribute.projectedColumn?, column_eq]
        exact silent_applyFormat (Mobility.columnFormat_mem list_mem field_mem)
          (silent_of_column list_mem field_mem column_eq)
      · exact silent_finalName list_mem field_mem not_pointer
  have comma : Separates ", " := separates_of_isSeparator (by decide)
  rw [Mobility.text_eq_outputs list_mem field_mem not_pointer]
  have outputs_closed : ∀ text ∈ (Fragment.outputs ⟨field, none⟩).map Output.text, Closed text :=
    List.forall_mem_map.mpr fun output member => (outputs_silent output member).1
  obtain ⟨closed, same⟩ := references_join comma outputs_closed
  refine ⟨closed, same.trans (List.flatMap_eq_nil_iff.mpr fun text member => ?_)⟩
  obtain ⟨output, output_in, rfl⟩ := List.mem_map.mp member
  exact (outputs_silent output output_in).2

theorem count_commaPath (path : String) :
    (Selector.commaPath path).toList.count '\'' = path.toList.count '\'' := by
  rw [Attribute.toList_commaPath, List.count_eq_countP, List.count_eq_countP, List.countP_map]
  refine List.countP_congr fun char _ => ?_
  rw [Function.comp_apply, Attribute.commaChar]
  split_ifs with is_point
  · simp [is_point]
  · rfl

/-- A place is projected with every literal closed: its path stands in the path literal and in the
label, so that its quotes come twice. In a value without an inside they come once, and must close
each other. -/
theorem closed_text_place (list_mem : list ∈ Mobility.lists) (field_mem : field ∈ list.attributes)
    (not_pointer : field.isPointer = false) {path : String}
    (closed : field.scalarOnly = true → Closed path) : Closed (Fragment.text ⟨field, some path⟩) := by
  have name_closed := (silent_finalName list_mem field_mem not_pointer).1
  obtain ⟨column, column_eq⟩ :=
    Option.isSome_iff_exists.mp (Mobility.isSome_column? list_mem field_mem not_pointer)
  have column_closed := (silent_of_column list_mem field_mem column_eq).1
  have mark_closed : Closed "\"" := by decide
  have point_closed : Closed "." := by decide
  have front_closed := (mark_closed.append name_closed).append point_closed
  rw [Fragment.text]
  dsimp only
  cases scalar : field.scalarOnly with
  | true =>
      have null_closed : Closed "null::jsonb as " := by decide
      rw [if_pos rfl]
      exact null_closed.append ((front_closed.append (closed scalar)).append mark_closed)
  | false =>
      have opening : "#>'\x7b".toList.count '\'' = 1 := by decide
      have ending : "\x7d' as ".toList.count '\'' = 1 := by decide
      rw [Closed] at column_closed front_closed mark_closed ⊢
      rw [if_neg Bool.false_ne_true, column_eq, Option.getD_some]
      simp only [String.toList_append, List.count_append, opening, ending, count_commaPath] at *
      obtain ⟨columns, column_count⟩ := column_closed
      obtain ⟨fronts, front_count⟩ := front_closed
      obtain ⟨marks, mark_count⟩ := mark_closed
      exact ⟨columns + 1 + path.toList.count '\'' + fronts + marks, by omega⟩

/-- A place whose path has no colon is projected without references. -/
theorem references_text_place (list_mem : list ∈ Mobility.lists) (field_mem : field ∈ list.attributes)
    (not_pointer : field.isPointer = false) {path : String} (no_colon : ':' ∉ path.toList) :
    references (Fragment.text ⟨field, some path⟩) = [] := by
  have is_column := Mobility.isSome_column? list_mem field_mem not_pointer
  have ordinary := Mobility.ordinary_of_column list_mem field_mem is_column
  obtain ⟨column, column_eq⟩ := Option.isSome_iff_exists.mp is_column
  have name_tame : ':' ∉ field.finalName.toList := ordinary.notMem_finalName (by decide)
  have label_tame : ':' ∉ ("\"" ++ field.finalName ++ "." ++ path ++ "\"").toList := by
    simp [name_tame, no_colon]
  rw [Fragment.text]
  dsimp only
  cases scalar : field.scalarOnly with
  | true =>
      have null_silent : Silent "null::jsonb as" := silent_ofList (by decide)
      have blank : Separates " " := separates_of_isSeparator (by decide)
      have word_eq : "null::jsonb as " = "null::jsonb as" ++ " " := rfl
      rw [if_pos rfl, word_eq, blank.2 _ _ null_silent.1, null_silent.2,
        references_eq_nil label_tame]
      rfl
  | false =>
      have column_tame := colons_checked list list_mem field field_mem column column_eq
      have path_tame : ':' ∉ (Selector.commaPath path).toList := by
        rw [Attribute.toList_commaPath, List.mem_map]
        rintro ⟨char, member, char_eq⟩
        rw [Attribute.commaChar] at char_eq
        split_ifs at char_eq with is_point
        · cases char_eq
        · exact no_colon (char_eq ▸ member)
      rw [if_neg Bool.false_ne_true, column_eq, Option.getD_some]
      apply references_eq_nil
      rw [String.toList_append, List.mem_append, not_or]
      exact ⟨by simp [column_tame, path_tame], label_tame⟩

end

end StationGateway
