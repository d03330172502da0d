import Mathlib.Data.List.Chain
import StationGateway.Expansion.Basic
import StationGateway.Proofs.Sql.Skeleton
import StationGateway.Proofs.Text.Join

/-!
# Projections of places

A place inside the JSON value of an attribute is projected under a label that spells it out, from a
path literal that has commas for its points. Both hold the path as the client wrote it. So the path
stays inside of them exactly if it doubles the marks of those that it stands in; any other path
changes what the statement says.
-/

namespace StationGateway

open Text Sql

namespace Attribute

/-- The projection of a place inside an attribute. -/
def placeText (path : String) (field : Attribute) : String :=
  Fragment.text ⟨field, some path⟩

/-- The column that a place inside an attribute is taken from. -/
def placeColumn (field : Attribute) : String :=
  field.column?.getD "null"

/-- The projection of a place without the contents of its quoted spans. -/
def placeOutline (field : Attribute) : String :=
  (if field.scalarOnly then "null::jsonb" else field.placeColumn ++ "#>''") ++ " as \"\""

/-- Whether a path doubles the marks of the spans that it is projected in. The values of scalar
attributes have no inside, so these have no path literal. -/
def Encloses (path : String) (field : Attribute) : Prop :=
  Doubled '"' path.toList ∧ (field.scalarOnly = false → Doubled '\'' path.toList)

instance (path : String) (field : Attribute) : Decidable (field.Encloses path) :=
  inferInstanceAs (Decidable (_ ∧ (_ → _)))

/-- An attribute that is named by small letters and is a column of some table. -/
structure Ordinary (field : Attribute) : Prop where
  /-- It has a name. -/
  named : field.finalName.toList ≠ []
  /-- The name consists of small letters. -/
  letters : ∀ char ∈ field.finalName.toList, char.isLower = true
  /-- The column has no quoted spans. -/
  unmarked : ∀ char ∈ field.placeColumn.toList, isMark char = false
  /-- The column has no braces. -/
  unbraced : '\x7d' ∉ field.placeColumn.toList
  /-- The column is qualified by its table. -/
  qualified : '.' ∈ field.placeColumn.toList

section

variable {field : Attribute} {path : String}

theorem ne_of_isLower {char other : Char} (lower : char.isLower = true)
    (not_lower : other.isLower = false) : char ≠ other := by
  rintro rfl
  exact absurd lower (by simp [not_lower])

theorem Ordinary.notMem_finalName (ordinary : field.Ordinary) {char : Char}
    (not_lower : char.isLower = false) : char ∉ field.finalName.toList :=
  fun member => ne_of_isLower (ordinary.letters char member) not_lower rfl

theorem Ordinary.notMem_placeColumn (ordinary : field.Ordinary) {mark : Char}
    (is_mark : isMark mark = true) : mark ∉ field.placeColumn.toList := by
  intro member
  have unmarked := ordinary.unmarked mark member
  simp [is_mark] at unmarked

/-! ## Path literals -/

/-- A character of a dotted path in a path literal. -/
def commaChar (char : Char) : Char :=
  if char = '.' then ',' else char

theorem toList_commaPath (path : String) :
    (Selector.commaPath path).toList = path.toList.map commaChar :=
  String.toList_ofList

theorem point_notMem_commaPath (path : String) : '.' ∉ (Selector.commaPath path).toList := by
  rw [toList_commaPath, List.mem_map]
  rintro ⟨char, _, is_point⟩
  rw [commaChar] at is_point
  split_ifs at is_point with was_point
  · cases is_point
  · exact was_point is_point

theorem doubled_map_commaChar_iff {mark : Char} (is_mark : isMark mark = true)
    {text : List Char} : Doubled mark (text.map commaChar) ↔ Doubled mark text := by
  refine Doubled.map_iff fun char => ?_
  rw [commaChar]
  split_ifs with is_point
  · rw [is_point]
    constructor <;> rintro rfl <;> exact absurd is_mark (by decide)
  · rfl

/-! ## The text of one projection -/

/-- The label from the start of the path on, with what follows. -/
def labelEnd (path : String) (behind : List Char) : List Char :=
  path.toList ++ '"' :: behind

/-- The label, with what follows. -/
def placeLabel (field : Attribute) (path : String) (behind : List Char) : List Char :=
  '"' :: (field.finalName.toList ++ '.' :: labelEnd path behind)

/-- The path literal from the start of the path on, with the label and what follows. -/
def literalEnd (field : Attribute) (path : String) (behind : List Char) : List Char :=
  (Selector.commaPath path).toList ++
    '\x7d' :: '\'' :: " as ".toList ++ field.placeLabel path behind

theorem placeText_scalar (scalar : field.scalarOnly = true) (path : String) (behind : List Char) :
    (field.placeText path).toList ++ behind =
      "null::jsonb as ".toList ++ field.placeLabel path behind := by
  simp [placeText, Fragment.text, scalar, placeLabel, labelEnd]

theorem placeText_structured (structured : field.scalarOnly = false) (path : String)
    (behind : List Char) :
    (field.placeText path).toList ++ behind =
      field.placeColumn.toList ++ "#>".toList ++
        '\'' :: '\x7b' :: field.literalEnd path behind := by
  simp [placeText, Fragment.text, structured, placeColumn, literalEnd, placeLabel, labelEnd]

theorem placeOutline_scalar (scalar : field.scalarOnly = true) :
    field.placeOutline.toList = "null::jsonb as ".toList ++ ['"', '"'] := by
  simp [placeOutline, scalar]

theorem placeOutline_structured (structured : field.scalarOnly = false) :
    field.placeOutline.toList =
      field.placeColumn.toList ++ "#>".toList ++ '\'' :: '\'' :: " as ".toList ++ ['"', '"'] := by
  simp [placeOutline, structured]

theorem rest_placeLabel (ordinary : field.Ordinary) (path : String) (behind : List Char) :
    Span.outside.rest (field.placeLabel path behind) =
      '"' :: (Span.inside '"').rest (labelEnd path behind) := by
  have absent := ordinary.notMem_finalName (show '"'.isLower = false by decide)
  have name_doubled : Doubled '"' (field.finalName.toList ++ ['.']) :=
    .of_notMem (by simp [absent])
  have moved := Span.rest_inside_append name_doubled (labelEnd path behind)
  rw [List.append_assoc, List.singleton_append] at moved
  rw [placeLabel, Span.rest_outside_cons, show Span.opened '"' = .inside '"' from rfl, moved]

theorem rest_placeText_scalar (ordinary : field.Ordinary) (scalar : field.scalarOnly = true)
    (path : String) (behind : List Char) :
    Span.outside.rest ((field.placeText path).toList ++ behind) =
      "null::jsonb as ".toList ++ '"' :: (Span.inside '"').rest (labelEnd path behind) := by
  have unmarked : ∀ char ∈ "null::jsonb as ".toList, isMark char = false := by simp [isMark]
  rw [placeText_scalar scalar, Span.rest_outside_append unmarked, rest_placeLabel ordinary]

theorem rest_placeText_structured (ordinary : field.Ordinary)
    (structured : field.scalarOnly = false) (path : String) (behind : List Char) :
    Span.outside.rest ((field.placeText path).toList ++ behind) =
      field.placeColumn.toList ++ "#>".toList ++
        '\'' :: (Span.inside '\'').rest (field.literalEnd path behind) := by
  have sign_unmarked : ∀ char ∈ "#>".toList, isMark char = false := by simp [isMark]
  have unmarked : ∀ char ∈ field.placeColumn.toList ++ "#>".toList, isMark char = false := by
    intro char member
    rcases List.mem_append.mp member with in_column | in_sign
    · exact ordinary.unmarked char in_column
    · exact sign_unmarked char in_sign
  have brace_doubled : Doubled '\'' ['\x7b'] := .of_notMem (by decide)
  have moved := Span.rest_inside_append brace_doubled (field.literalEnd path behind)
  rw [List.singleton_append] at moved
  rw [placeText_structured structured, Span.rest_outside_append unmarked, Span.rest_outside_cons,
    show Span.opened '\'' = .inside '\'' from rfl, moved]

/-- The path literal ends behind a path that doubles its mark. -/
theorem rest_literalEnd (ordinary : field.Ordinary) (doubled : Doubled '\'' path.toList)
    (behind : List Char) :
    (Span.inside '\'').rest (field.literalEnd path behind) =
      '\'' :: " as ".toList ++ '"' :: (Span.inside '"').rest (labelEnd path behind) := by
  have path_doubled : Doubled '\'' (Selector.commaPath path).toList :=
    toList_commaPath path ▸ (doubled_map_commaChar_iff (by decide)).mpr doubled
  have brace_doubled : Doubled '\'' ['\x7d'] := .of_notMem (by decide)
  have label_start : " as ".toList = ' ' :: "as ".toList := rfl
  have label_unmarked : ∀ char ∈ " as ".toList, isMark char = false := by simp [isMark]
  calc
    (Span.inside '\'').rest (field.literalEnd path behind)
        = (Span.inside '\'').rest
            ('\x7d' :: '\'' :: (" as ".toList ++ field.placeLabel path behind)) := by
          rw [literalEnd, List.append_assoc, Span.rest_inside_append path_doubled]
          rfl
    _ = (Span.inside '\'').rest ('\'' :: (" as ".toList ++ field.placeLabel path behind)) :=
          Span.rest_inside_append brace_doubled _
    _ = '\'' :: Span.outside.rest (" as ".toList ++ field.placeLabel path behind) := by
          rw [label_start, List.cons_append, Span.rest_inside_mark_cons (by decide)]
    _ = '\'' :: " as ".toList ++ '"' :: (Span.inside '"').rest (labelEnd path behind) := by
          rw [Span.rest_outside_append label_unmarked, rest_placeLabel ordinary, List.cons_append]

/-- A label whose path ends with a lone mark stays open up to the next place where that mark stands,
and there no comma follows. -/
theorem exists_rest_placeText (ordinary : field.Ordinary) {before : List Char}
    (doubled : Doubled '"' before) (path_eq : path.toList = before ++ ['"'])
    (behind : List Char) :
    ∃ char text, char ≠ ',' ∧
      (Span.inside '"').rest (',' :: ' ' :: ((field.placeText path).toList ++ behind)) =
        '"' :: char :: text := by
  cases scalar : field.scalarOnly with
  | true =>
      obtain ⟨first, others, name_eq⟩ := List.exists_cons_of_ne_nil ordinary.named
      have first_lower := ordinary.letters first (name_eq ▸ List.mem_cons_self)
      have start_doubled : Doubled '"' (',' :: ' ' :: "null::jsonb as ".toList) :=
        .of_notMem (by simp)
      have moved := Span.rest_inside_append start_doubled
        ('"' :: first :: (others ++ '.' :: labelEnd path behind))
      rw [Span.rest_inside_mark_cons (ne_of_isLower first_lower (by decide)),
        Span.rest_outside_cons] at moved
      rw [placeText_scalar scalar, placeLabel, name_eq]
      exact ⟨first, _, ne_of_isLower first_lower (by decide), moved⟩
  | false =>
      have column_unquoted := ordinary.notMem_placeColumn (show isMark '"' = true by decide)
      have start_doubled : Doubled '"'
          (',' :: ' ' :: (field.placeColumn.toList ++ "#>".toList ++ ['\'', '\x7b'])) :=
        .of_notMem (by simp [column_unquoted])
      have before_doubled : Doubled '"' (before.map commaChar) :=
        (doubled_map_commaChar_iff (by decide)).mpr doubled
      have literal_eq : (Selector.commaPath path).toList = before.map commaChar ++ ['"'] := by
        rw [toList_commaPath, path_eq, List.map_append]
        rfl
      have text_eq : ',' :: ' ' :: ((field.placeText path).toList ++ behind) =
          (',' :: ' ' :: (field.placeColumn.toList ++ "#>".toList ++ ['\'', '\x7b'])) ++
            (before.map commaChar ++
              '"' :: '\x7d' :: ('\'' :: " as ".toList ++ field.placeLabel path behind)) := by
        rw [placeText_structured scalar, literalEnd, literal_eq]
        simp
      rw [text_eq, Span.rest_inside_append start_doubled, Span.rest_inside_append before_doubled,
        Span.rest_inside_mark_cons (by decide), Span.rest_outside_cons]
      exact ⟨'\x7d', _, by decide, rfl⟩

end

/-! ## Several projections -/

/-- Projections of one place inside several attributes, each after a comma. -/
def placeTexts (path : String) (fields : List Attribute) : List Char :=
  fields.flatMap fun field => ", ".toList ++ (field.placeText path).toList

/-- Such projections without the contents of their quoted spans. -/
def placeOutlines (fields : List Attribute) : List Char :=
  fields.flatMap fun field => ", ".toList ++ field.placeOutline.toList

section

variable {field : Attribute} {fields : List Attribute} {path : String}

theorem placeTexts_cons (path : String) (field : Attribute) (fields : List Attribute) :
    placeTexts path (field :: fields) =
      ',' :: ' ' :: ((field.placeText path).toList ++ placeTexts path fields) := by
  simp [placeTexts]

theorem placeOutlines_cons (field : Attribute) (fields : List Attribute) :
    placeOutlines (field :: fields) =
      ',' :: ' ' :: (field.placeOutline.toList ++ placeOutlines fields) := by
  simp [placeOutlines]

/-- A label whose path does not double its mark shows a character of the path, keeps what follows,
or ends where no comma follows. -/
theorem rest_labelEnd_ne (ordinary : ∀ field ∈ fields, field.Ordinary)
    (no_comma : ',' ∉ path.toList) (single : ¬Doubled '"' path.toList) :
    (Span.inside '"').rest (labelEnd path (placeTexts path fields)) ≠
      '"' :: placeOutlines fields := by
  intro same
  obtain ⟨before, doubled, path_eq | ⟨char, text, differs, path_eq⟩⟩ := Doubled.exists_of_not single
  · have reopened : (Span.inside '"').rest (labelEnd path (placeTexts path fields)) =
        (Span.inside '"').rest (placeTexts path fields) := by
      rw [labelEnd, path_eq, List.append_assoc, Span.rest_inside_append doubled]
      exact Span.rest_inside_append (.pair .nil) (placeTexts path fields)
    rw [reopened] at same
    cases fields with
    | nil => cases same
    | cons field others =>
        obtain ⟨char, text, not_comma, shown⟩ := exists_rest_placeText
          (ordinary field List.mem_cons_self) doubled path_eq (placeTexts path others)
        rw [placeTexts_cons, placeOutlines_cons, shown] at same
        injection same with _ same
        injection same with is_comma _
        exact not_comma is_comma
  · have left : (Span.inside '"').rest (labelEnd path (placeTexts path fields)) =
        '"' :: Span.outside.rest (char :: (text ++ '"' :: placeTexts path fields)) := by
      rw [labelEnd, path_eq, List.append_assoc, Span.rest_inside_append doubled, List.cons_append,
        List.cons_append, Span.rest_inside_mark_cons differs]
    rw [left, Span.rest_outside_cons] at same
    injection same with _ same
    cases fields with
    | nil => cases same
    | cons field others =>
        rw [placeOutlines_cons] at same
        injection same with is_comma _
        exact no_comma (by simp [path_eq, is_comma])

theorem rest_labelEnd_eq_iff (ordinary : ∀ field ∈ fields, field.Ordinary)
    (no_comma : ',' ∉ path.toList) :
    (Span.inside '"').rest (labelEnd path (placeTexts path fields)) = '"' :: placeOutlines fields ↔
      Doubled '"' path.toList ∧
        Span.outside.rest (placeTexts path fields) = placeOutlines fields := by
  by_cases doubled : Doubled '"' path.toList
  · have closed : (Span.inside '"').rest (labelEnd path (placeTexts path fields)) =
        '"' :: Span.outside.rest (placeTexts path fields) := by
      rw [labelEnd, Span.rest_inside_append doubled]
      cases fields with
      | nil => exact Span.rest_inside_mark_nil
      | cons field others => rw [placeTexts_cons, Span.rest_inside_mark_cons (by decide)]
    rw [closed, List.cons_inj_right]
    exact (and_iff_right doubled).symm
  · exact iff_of_false (rest_labelEnd_ne ordinary no_comma doubled) fun both => doubled both.1

/-! ## Outlines from a label on -/

/-- What an outline is followed by from behind its path literal on. -/
def labelOutline (fields : List Attribute) : List Char :=
  " as ".toList ++ '"' :: '"' :: placeOutlines fields

private theorem brace_notMem_placeOutline (ordinary : field.Ordinary) :
    '\x7d' ∉ field.placeOutline.toList := by
  cases scalar : field.scalarOnly with
  | true => simp [placeOutline_scalar scalar]
  | false => simp [placeOutline_structured scalar, ordinary.unbraced]

theorem brace_notMem_labelOutline (ordinary : ∀ field ∈ fields, field.Ordinary) :
    '\x7d' ∉ labelOutline fields := by
  intro member
  have in_outlines : '\x7d' ∈ placeOutlines fields := by simpa [labelOutline] using member
  obtain ⟨field, field_mem, found⟩ := List.mem_flatMap.mp in_outlines
  have in_outline : '\x7d' ∈ field.placeOutline.toList := by simpa using found
  exact brace_notMem_placeOutline (ordinary field field_mem) in_outline

/-- Whether a character may follow another in an outline: behind a mark of a label stands the other
one or a comma. -/
def LabelMarks (char next : Char) : Prop :=
  char = '"' → next = '"' ∨ next = ','

private theorem isChain_append_of_notMem {first second : List Char} (absent : '"' ∉ first)
    (chain : second.IsChain LabelMarks) : (first ++ second).IsChain LabelMarks := by
  induction first with
  | nil => exact chain
  | cons char others induction =>
      rw [List.mem_cons, not_or] at absent
      have rest_chain := induction absent.2
      rw [List.cons_append]
      cases rest_eq : others ++ second with
      | nil => exact .singleton char
      | cons next behind =>
          rw [rest_eq] at rest_chain
          exact List.isChain_cons_cons.mpr ⟨fun is_mark => absurd is_mark.symm absent.1, rest_chain⟩

private theorem isChain_marks (chain : (placeOutlines fields).IsChain LabelMarks) :
    ('"' :: '"' :: placeOutlines fields).IsChain LabelMarks := by
  refine List.isChain_cons_cons.mpr ⟨fun _ => .inl rfl, ?_⟩
  cases fields with
  | nil => exact .singleton '"'
  | cons field others =>
      rw [placeOutlines_cons] at chain ⊢
      exact List.isChain_cons_cons.mpr ⟨fun _ => .inr rfl, chain⟩

theorem isChain_placeOutlines (ordinary : ∀ field ∈ fields, field.Ordinary) :
    (placeOutlines fields).IsChain LabelMarks := by
  induction fields with
  | nil => exact .nil
  | cons field others induction =>
      have marks_chain := isChain_marks (induction fun other member =>
        ordinary other (List.mem_cons_of_mem field member))
      have column_unquoted := (ordinary field List.mem_cons_self).notMem_placeColumn
        (show isMark '"' = true by decide)
      rw [placeOutlines_cons]
      cases scalar : field.scalarOnly with
      | true =>
          rw [placeOutline_scalar scalar, List.append_assoc]
          have start_unquoted : '"' ∉ ',' :: ' ' :: "null::jsonb as ".toList := by simp
          exact isChain_append_of_notMem start_unquoted marks_chain
      | false =>
          have start_unquoted : '"' ∉ ',' :: ' ' ::
              (field.placeColumn.toList ++ "#>".toList ++ '\'' :: '\'' :: " as ".toList) := by
            simp [column_unquoted]
          rw [placeOutline_structured scalar, List.append_assoc]
          exact isChain_append_of_notMem start_unquoted marks_chain

theorem isChain_labelOutline (ordinary : ∀ field ∈ fields, field.Ordinary) :
    (labelOutline fields).IsChain LabelMarks :=
  isChain_append_of_notMem (by simp) (isChain_marks (isChain_placeOutlines ordinary))

private theorem exists_append_placeOutlines (ordinary : ∀ field ∈ fields, field.Ordinary) :
    ∃ before behind, placeOutlines fields = before ++ behind ∧ '\'' ∉ before ∧
      ('.' ∈ before ∨ behind = []) := by
  induction fields with
  | nil => exact ⟨[], [], rfl, List.not_mem_nil, .inr rfl⟩
  | cons field others induction =>
      have first_ordinary := ordinary field List.mem_cons_self
      rw [placeOutlines_cons]
      cases scalar : field.scalarOnly with
      | true =>
          obtain ⟨before, behind, others_eq, unquoted, qualified⟩ := induction fun other member =>
            ordinary other (List.mem_cons_of_mem field member)
          refine ⟨',' :: ' ' :: (field.placeOutline.toList ++ before), behind, by simp [others_eq],
            by simp [placeOutline_scalar scalar, unquoted], ?_⟩
          refine qualified.imp_left fun member => ?_
          exact List.mem_cons_of_mem _ (List.mem_cons_of_mem _ (List.mem_append_right _ member))
      | false =>
          have column_unquoted := first_ordinary.notMem_placeColumn
            (show isMark '\'' = true by decide)
          refine ⟨',' :: ' ' :: field.placeColumn.toList, "#>".toList ++
            '\'' :: '\'' :: " as ".toList ++ ['"', '"'] ++ placeOutlines others, ?_, ?_, .inl ?_⟩
          · simp [placeOutline_structured scalar]
          · simp [column_unquoted]
          · exact List.mem_cons_of_mem _ (List.mem_cons_of_mem _ first_ordinary.qualified)

/-- Before the first path literal in an outline from a label on stands a column with its table. -/
theorem exists_append_labelOutline (ordinary : ∀ field ∈ fields, field.Ordinary) :
    ∃ before behind, labelOutline fields = before ++ behind ∧ '\'' ∉ before ∧
      ('.' ∈ before ∨ behind = []) := by
  obtain ⟨before, behind, outlines_eq, unquoted, qualified⟩ := exists_append_placeOutlines ordinary
  refine ⟨" as ".toList ++ '"' :: '"' :: before, behind, ?_, ?_, ?_⟩
  · simp [labelOutline, outlines_eq]
  · simp [unquoted]
  · exact qualified.imp_left fun member => by simp [member]

/-- Text without points, outside of all spans and before the end of a path literal, leaves a brace,
the start of a label, or a literal without a column before it. -/
theorem rest_append_brace_ne (first_ordinary : field.Ordinary)
    (ordinary : ∀ field ∈ fields, field.Ordinary) {text : List Char} (no_point : '.' ∉ text)
    (behind : List Char) :
    Span.outside.rest
        (text ++ ('\x7d' :: '\'' :: " as ".toList ++ field.placeLabel path behind)) ≠
      labelOutline fields := by
  intro same
  have no_brace := brace_notMem_labelOutline ordinary
  rw [Span.rest_append] at same
  cases stands : Span.outside.after text with
  | outside =>
      rw [stands, List.cons_append, Span.rest_outside_cons] at same
      exact no_brace (same ▸ List.mem_append_right _ List.mem_cons_self)
  | ending mark =>
      have is_mark := Span.isMark_of_after_outside stands
      have differs : '\x7d' ≠ mark := by
        rintro rfl
        exact absurd is_mark (by decide)
      rw [stands, List.cons_append, Span.rest_cons, Span.shows, if_neg differs] at same
      exact no_brace (same ▸ by simp)
  | inside mark =>
      obtain ⟨is_mark, shown⟩ := Span.mem_shown_of_after_outside stands
      have mark_cases : mark = '\'' ∨ mark = '"' := by simpa [isMark] using is_mark
      rcases mark_cases with rfl | rfl
      · obtain ⟨before, others, outline_eq, unquoted, qualified⟩ :=
          exists_append_labelOutline ordinary
        rw [outline_eq] at same
        rcases List.append_eq_append_iff.mp same with
          ⟨middle, before_eq, _⟩ | ⟨middle, shown_eq, others_eq⟩
        · exact unquoted (before_eq ▸ List.mem_append_left middle shown)
        · rcases qualified with point | rfl
          · have point_shown := shown_eq ▸ List.mem_append_left middle point
            exact no_point (Span.mem_of_mem_shown_outside point_shown)
          · obtain ⟨rfl, _⟩ := List.append_eq_nil_iff.mp others_eq.symm
            rw [List.append_nil] at shown_eq
            exact unquoted (shown_eq ▸ shown)
      · obtain ⟨first, others, name_eq⟩ := List.exists_cons_of_ne_nil first_ordinary.named
        have first_lower := first_ordinary.letters first (name_eq ▸ List.mem_cons_self)
        have start_doubled : Doubled '"' ('\x7d' :: '\'' :: " as ".toList) :=
          .of_notMem (by simp)
        rw [stands, Span.rest_inside_append start_doubled, placeLabel, name_eq, List.cons_append,
          Span.rest_inside_mark_cons (ne_of_isLower first_lower (by decide)),
          Span.rest_outside_cons] at same
        have follows := List.isChain_iff_forall_rel_of_append_cons_cons.mp
          (isChain_labelOutline ordinary) same.symm
        rcases follows rfl with is_quote | is_comma
        · exact ne_of_isLower first_lower (by decide) is_quote
        · exact ne_of_isLower first_lower (by decide) is_comma

/-- What is left of a path literal that does not double its mark: a character that no outline has
there, a brace, the start of a label, or a literal without a column before it. -/
theorem rest_literalEnd_ne (first_ordinary : field.Ordinary)
    (ordinary : ∀ field ∈ fields, field.Ordinary) (single : ¬Doubled '\'' path.toList)
    (behind : List Char) :
    (Span.inside '\'').rest (field.literalEnd path behind) ≠ '\'' :: labelOutline fields := by
  have literal_single : ¬Doubled '\'' (Selector.commaPath path).toList := by
    rwa [toList_commaPath, doubled_map_commaChar_iff (by decide)]
  have label_start : " as ".toList = ' ' :: "as ".toList := rfl
  intro same
  obtain ⟨before, doubled, literal_eq | ⟨char, text, differs, literal_eq⟩⟩ :=
    Doubled.exists_of_not literal_single
  · rw [literalEnd, literal_eq, List.append_assoc, List.append_assoc,
      Span.rest_inside_append doubled, List.singleton_append, List.cons_append,
      Span.rest_inside_mark_cons (by decide), Span.rest_outside_cons, labelOutline, label_start]
      at same
    injection same with _ same
    injection same with is_brace _
    exact absurd is_brace (by decide)
  · have no_point : '.' ∉ char :: text := by
      have absent := point_notMem_commaPath path
      rw [literal_eq, List.mem_append, List.mem_cons, not_or, not_or] at absent
      exact absent.2.2
    rw [literalEnd, literal_eq, List.append_assoc, List.append_assoc,
      Span.rest_inside_append doubled, List.cons_append, List.cons_append,
      Span.rest_inside_mark_cons differs] at same
    injection same with _ same
    exact rest_append_brace_ne first_ordinary ordinary no_point behind same

theorem rest_literalEnd_eq_iff (first_ordinary : field.Ordinary)
    (ordinary : ∀ field ∈ fields, field.Ordinary) (no_comma : ',' ∉ path.toList) :
    (Span.inside '\'').rest (field.literalEnd path (placeTexts path fields)) =
        '\'' :: labelOutline fields ↔
      Doubled '\'' path.toList ∧ Doubled '"' path.toList ∧
        Span.outside.rest (placeTexts path fields) = placeOutlines fields := by
  by_cases doubled : Doubled '\'' path.toList
  · rw [rest_literalEnd first_ordinary doubled, labelOutline, List.cons_append,
      List.cons_inj_right, List.append_cancel_left_eq, List.cons_inj_right,
      rest_labelEnd_eq_iff ordinary no_comma]
    exact (and_iff_right doubled).symm
  · exact iff_of_false (rest_literalEnd_ne first_ordinary ordinary doubled _) fun both =>
      doubled both.1

/-! ## Outlines of projections -/

theorem rest_placeText_eq_iff (first_ordinary : field.Ordinary)
    (ordinary : ∀ field ∈ fields, field.Ordinary) (no_comma : ',' ∉ path.toList) :
    Span.outside.rest ((field.placeText path).toList ++ placeTexts path fields) =
        field.placeOutline.toList ++ placeOutlines fields ↔
      field.Encloses path ∧ Span.outside.rest (placeTexts path fields) = placeOutlines fields := by
  cases scalar : field.scalarOnly with
  | true =>
      rw [rest_placeText_scalar first_ordinary scalar, placeOutline_scalar scalar,
        List.append_assoc, List.append_cancel_left_eq, List.cons_append, List.cons_inj_right,
        List.singleton_append, rest_labelEnd_eq_iff ordinary no_comma]
      simp [Encloses, scalar]
  | false =>
      have outline_eq : field.placeOutline.toList ++ placeOutlines fields =
          field.placeColumn.toList ++ "#>".toList ++
            '\'' :: '\'' :: labelOutline fields := by
        simp [placeOutline_structured scalar, labelOutline]
      rw [rest_placeText_structured first_ordinary scalar, outline_eq,
        List.append_cancel_left_eq, List.cons_inj_right,
        rest_literalEnd_eq_iff first_ordinary ordinary no_comma]
      exact ⟨fun ⟨literal, label, same⟩ => ⟨⟨label, fun _ => literal⟩, same⟩,
        fun ⟨⟨label, literal⟩, same⟩ => ⟨literal scalar, label, same⟩⟩

/-- Exactly a path that doubles the marks of all spans it stands in leaves the outline. -/
theorem rest_placeTexts_eq_iff (ordinary : ∀ field ∈ fields, field.Ordinary)
    (no_comma : ',' ∉ path.toList) :
    Span.outside.rest (placeTexts path fields) = placeOutlines fields ↔
      ∀ field ∈ fields, field.Encloses path := by
  induction fields with
  | nil => exact iff_of_true rfl fun field member => absurd member List.not_mem_nil
  | cons field others induction =>
      have others_ordinary : ∀ other ∈ others, other.Ordinary := fun other member =>
        ordinary other (List.mem_cons_of_mem field member)
      rw [placeTexts_cons, placeOutlines_cons, Span.rest_outside_cons,
        show Span.opened ',' = .outside from rfl, Span.rest_outside_cons,
        show Span.opened ' ' = .outside from rfl, List.cons_inj_right, List.cons_inj_right,
        rest_placeText_eq_iff (ordinary field List.mem_cons_self) others_ordinary no_comma,
        induction others_ordinary, List.forall_mem_cons]

/-- The skeleton of several projections of one place is their outline exactly if the path doubles
the marks of all spans it stands in. -/
theorem skeleton_join_eq_iff (ordinary : ∀ field ∈ fields, field.Ordinary)
    (no_comma : ',' ∉ path.toList) :
    skeleton (join ", " (fields.map (placeText path))) = join ", " (fields.map placeOutline) ↔
      ∀ field ∈ fields, field.Encloses path := by
  rw [Span.skeleton_eq_iff, ← rest_placeTexts_eq_iff ordinary no_comma]
  by_cases filled : fields = []
  · subst filled
    exact iff_of_true rfl rfl
  · have texts_filled : fields.map (placeText path) ≠ [] := mt List.map_eq_nil_iff.mp filled
    have outlines_filled : fields.map placeOutline ≠ [] := mt List.map_eq_nil_iff.mp filled
    have texts_eq := toList_join_of_ne_nil ", " texts_filled
    have outlines_eq := toList_join_of_ne_nil ", " outlines_filled
    rw [List.flatMap_map] at texts_eq outlines_eq
    have unmarked : ∀ char ∈ ", ".toList, isMark char = false := by simp [isMark]
    rw [placeTexts, ← texts_eq, placeOutlines, ← outlines_eq, Span.rest_outside_append unmarked,
      List.append_cancel_left_eq]

end

end Attribute

end StationGateway
