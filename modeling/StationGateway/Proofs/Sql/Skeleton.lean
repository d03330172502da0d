import Mathlib.Data.List.Induction
import Mathlib.Data.String.Basic
import Mathlib.Tactic.SplitIfs

/-!
# Skeletons of statements

What is left of a text when the contents of its quoted spans are taken out: the marks of the spans
and all that stands between them. There are two marks, `'` for literals and `"` for identifiers, and
a mark that is written twice within its own span belongs to the contents. So contents leave the
skeleton alone exactly if each mark of the span that they have is doubled.
-/

namespace StationGateway.Sql

/-- Whether a character opens a quoted span. -/
def isMark (char : Char) : Bool :=
  char == '\'' || char == '"'

/-- Where a place in a text stands. -/
inductive Span where
  /-- Outside of all spans. -/
  | outside
  /-- Within a span, which ends at its mark. -/
  | inside (mark : Char)
  /-- After a mark within its own span, which ends here unless the mark is doubled. -/
  | ending (mark : Char)
  deriving DecidableEq, Repr

namespace Span

/-- Where a text stands after a character outside of all spans. -/
def opened (char : Char) : Span :=
  if isMark char then inside char else outside

/-- Where a text stands after one more character. -/
def next : Span → Char → Span
  | outside, char => opened char
  | inside mark, char => if char = mark then ending mark else inside mark
  | ending mark, char => if char = mark then inside mark else opened char

/-- What one more character adds to the skeleton. -/
def shows : Span → Char → List Char
  | outside, char => [char]
  | inside _, _ => []
  | ending mark, char => if char = mark then [] else [mark, char]

/-- Where a text stands after some more of it. -/
def after (span : Span) (text : List Char) : Span :=
  text.foldl next span

/-- What some more text adds to the skeleton. -/
def shown : Span → List Char → List Char
  | _, [] => []
  | span, char :: rest => span.shows char ++ (span.next char).shown rest

/-- What the end of a text adds to the skeleton. -/
def close : Span → List Char
  | ending mark => [mark]
  | _ => []

/-- What the rest of a text adds to the skeleton. -/
def rest (span : Span) (text : List Char) : List Char :=
  span.shown text ++ (span.after text).close

end Span

/-- A text without the contents of its quoted spans. -/
def skeleton (text : String) : String :=
  String.ofList (Span.outside.rest text.toList)

example : skeleton "m.json#>'\x7bx''y\x7d' as \"name.x''y\"" = "m.json#>'' as \"\"" := by
  decide +kernel

/-- The texts in which a mark is written twice wherever it is written. -/
inductive Doubled (mark : Char) : List Char → Prop where
  /-- The empty text. -/
  | nil : Doubled mark []
  /-- Some other character before such a text. -/
  | other {char : Char} {text : List Char} : char ≠ mark → Doubled mark text →
      Doubled mark (char :: text)
  /-- The mark, written twice, before such a text. -/
  | pair {text : List Char} : Doubled mark text → Doubled mark (mark :: mark :: text)

namespace Doubled

variable {mark : Char} {text : List Char}

theorem of_notMem (absent : mark ∉ text) : Doubled mark text := by
  induction text with
  | nil => exact nil
  | cons char rest induction =>
      rw [List.mem_cons, not_or] at absent
      exact other (Ne.symm absent.1) (induction absent.2)

theorem map_iff {function : Char → Char} (fixed : ∀ char, function char = mark ↔ char = mark) :
    Doubled mark (text.map function) ↔ Doubled mark text := by
  constructor
  · intro doubled
    generalize mapped_eq : text.map function = mapped at doubled
    induction doubled generalizing text with
    | nil => exact List.map_eq_nil_iff.mp mapped_eq ▸ nil
    | other differs _ induction =>
        obtain ⟨first, others, rfl, rfl, others_eq⟩ := List.map_eq_cons_iff.mp mapped_eq
        exact other (mt (fixed first).mpr differs) (induction others_eq)
    | pair _ induction =>
        obtain ⟨first, others, rfl, is_mark, others_eq⟩ := List.map_eq_cons_iff.mp mapped_eq
        obtain ⟨second, behind, rfl, again, behind_eq⟩ := List.map_eq_cons_iff.mp others_eq
        rw [(fixed first).mp is_mark, (fixed second).mp again]
        exact pair (induction behind_eq)
  · intro doubled
    induction doubled with
    | nil => exact nil
    | @other char _ differs _ induction => exact other (mt (fixed char).mp differs) induction
    | pair _ induction =>
        rw [List.map_cons, List.map_cons, (fixed mark).mpr rfl]
        exact pair induction

/-- Whether a mark is written twice wherever a text has it. -/
def holds (mark : Char) : List Char → Bool
  | [] => true
  | [char] => char != mark
  | first :: second :: rest =>
      if first = mark then second == mark && holds mark rest else holds mark (second :: rest)

theorem holds_iff : holds mark text = true ↔ Doubled mark text := by
  fun_induction holds mark text with
  | case1 => exact iff_of_true rfl nil
  | case2 char =>
      rw [bne_iff_ne]
      constructor
      · exact fun differs => other differs nil
      · rintro (_ | ⟨differs, _⟩)
        exact differs
  | case3 second rest induction =>
      rw [Bool.and_eq_true, beq_iff_eq, induction]
      constructor
      · rintro ⟨rfl, doubled⟩
        exact pair doubled
      · rintro (_ | ⟨differs, _⟩ | doubled)
        · exact absurd rfl differs
        · exact ⟨rfl, doubled⟩
  | case4 first second rest differs induction =>
      rw [induction]
      constructor
      · exact other differs
      · rintro (_ | ⟨_, doubled⟩ | _)
        · exact doubled
        · exact absurd rfl differs

instance (mark : Char) (text : List Char) : Decidable (Doubled mark text) :=
  decidable_of_iff _ holds_iff

/-- Text without the mark behind a text does not matter. -/
theorem append_iff {first second : List Char} (absent : mark ∉ second) :
    Doubled mark (first ++ second) ↔ Doubled mark first := by
  constructor
  · intro doubled
    generalize whole_eq : first ++ second = whole at doubled
    induction doubled generalizing first with
    | nil => exact (List.append_eq_nil_iff.mp whole_eq).1 ▸ nil
    | other differs _ induction =>
        cases first with
        | nil => exact nil
        | cons char others =>
            injection whole_eq with char_eq others_eq
            exact other (char_eq ▸ differs) (induction others_eq)
    | pair _ induction =>
        match first with
        | [] => exact nil
        | [char] =>
            injection whole_eq with _ second_eq
            change second = _ at second_eq
            exact absurd (second_eq ▸ List.mem_cons_self) absent
        | char :: next :: others =>
            injection whole_eq with char_eq whole_eq
            injection whole_eq with next_eq others_eq
            rw [char_eq, next_eq]
            exact pair (induction others_eq)
  · intro doubled
    induction doubled with
    | nil => exact of_notMem absent
    | other differs _ induction => exact other differs induction
    | pair _ induction => exact pair induction

/-- A text in which some mark is not doubled has a first such place: the mark stands at its end, or
another character follows. -/
theorem exists_of_not {mark : Char} {text : List Char} (single : ¬Doubled mark text) :
    ∃ before, Doubled mark before ∧ (text = before ++ [mark] ∨
      ∃ char behind, char ≠ mark ∧ text = before ++ mark :: char :: behind) := by
  match text with
  | [] => exact absurd nil single
  | [char] =>
      by_cases is_mark : char = mark
      · exact ⟨[], nil, .inl (by rw [is_mark, List.nil_append])⟩
      · exact absurd (other is_mark nil) single
  | first :: second :: rest =>
      by_cases is_mark : first = mark
      · by_cases again : second = mark
        · have rest_single : ¬Doubled mark rest := by
            intro doubled
            rw [is_mark, again] at single
            exact single (pair doubled)
          obtain ⟨before, doubled, place⟩ := exists_of_not rest_single
          refine ⟨mark :: mark :: before, pair doubled, ?_⟩
          rw [is_mark, again]
          simpa only [List.cons_append, List.cons.injEq, true_and] using place
        · exact ⟨[], nil, .inr ⟨second, rest, again, by rw [is_mark, List.nil_append]⟩⟩
      · have rest_single : ¬Doubled mark (second :: rest) := mt (other is_mark) single
        obtain ⟨before, doubled, place⟩ := exists_of_not rest_single
        refine ⟨first :: before, other is_mark doubled, ?_⟩
        simpa only [List.cons_append, List.cons.injEq, true_and] using place

end Doubled

namespace Span

variable {span : Span} {mark char : Char} {text text' first second : List Char}

@[simp]
theorem rest_nil : span.rest [] = span.close :=
  rfl

theorem rest_cons (span : Span) (char : Char) (text : List Char) :
    span.rest (char :: text) = span.shows char ++ (span.next char).rest text := by
  simp only [rest, shown, after, List.foldl_cons, List.append_assoc]

theorem rest_append (span : Span) (first second : List Char) :
    span.rest (first ++ second) = span.shown first ++ (span.after first).rest second := by
  induction first generalizing span with
  | nil => rfl
  | cons char others induction =>
      rw [List.cons_append, rest_cons, induction, shown, List.append_assoc]
      rfl

theorem skeleton_eq_iff {text outline : String} :
    skeleton text = outline ↔ outside.rest text.toList = outline.toList := by
  rw [skeleton, String.ofList_eq]

/-! ## Outside of spans -/

theorem rest_outside_cons (char : Char) (text : List Char) :
    outside.rest (char :: text) = char :: (opened char).rest text :=
  rest_cons outside char text

/-- Text without marks belongs to the skeleton. -/
theorem rest_outside_append (unmarked : ∀ char ∈ first, isMark char = false)
    (second : List Char) : outside.rest (first ++ second) = first ++ outside.rest second := by
  induction first with
  | nil => rfl
  | cons char others induction =>
      have char_unmarked := unmarked char List.mem_cons_self
      rw [List.cons_append, rest_outside_cons, opened, if_neg (by simp [char_unmarked]),
        induction fun other member => unmarked other (List.mem_cons_of_mem char member),
        List.cons_append]

/-! ## Inside spans -/

/-- Doubled contents leave no trace. -/
theorem rest_inside_append (doubled : Doubled mark first) (second : List Char) :
    (inside mark).rest (first ++ second) = (inside mark).rest second := by
  induction doubled with
  | nil => rfl
  | other differs _ induction =>
      rw [List.cons_append, rest_cons, next, if_neg differs, induction]
      rfl
  | pair _ induction =>
      rw [List.cons_append, List.cons_append, rest_cons, rest_cons, next, if_pos rfl, next,
        if_pos rfl, induction, shows, shows, if_pos rfl]
      rfl

/-- A mark before another character ends its span. -/
theorem rest_inside_mark_cons (differs : char ≠ mark) (text : List Char) :
    (inside mark).rest (mark :: char :: text) = mark :: outside.rest (char :: text) := by
  rw [rest_cons, rest_cons, next, if_pos rfl, next, if_neg differs, shows, shows, if_neg differs,
    rest_outside_cons]
  rfl

theorem rest_inside_mark_nil : (inside mark).rest [mark] = [mark] := by
  rw [rest_cons, next, if_pos rfl]
  rfl

/-! ## Anywhere -/

private theorem opened_ne_ending (char mark : Char) : opened char ≠ ending mark := by
  intro ends
  rw [opened] at ends
  split_ifs at ends

private theorem eq_of_opened_eq_inside (opens : opened char = inside mark) :
    isMark mark = true ∧ char = mark := by
  rw [opened] at opens
  split_ifs at opens with is_mark
  obtain rfl := Span.inside.inj opens
  exact ⟨is_mark, rfl⟩

private theorem eq_of_next_eq_ending (ends : span.next char = ending mark) :
    char = mark ∧ span = inside mark := by
  cases span with
  | outside => exact absurd ends (opened_ne_ending char mark)
  | inside open_mark =>
      rw [next] at ends
      split_ifs at ends with is_mark
      obtain rfl := Span.ending.inj ends
      exact ⟨is_mark, rfl⟩
  | ending last_mark =>
      rw [next] at ends
      split_ifs at ends with is_mark
      exact absurd ends (opened_ne_ending char mark)

private theorem shows_of_next (stays : span.next char = inside mark) :
    span = inside mark ∨ span = ending mark ∨ isMark mark = true ∧ mark ∈ span.shows char := by
  cases span with
  | outside =>
      obtain ⟨is_mark, rfl⟩ := eq_of_opened_eq_inside stays
      exact .inr (.inr ⟨is_mark, List.mem_cons_self⟩)
  | inside open_mark =>
      rw [next] at stays
      split_ifs at stays
      exact .inl stays
  | ending last_mark =>
      rw [next] at stays
      split_ifs at stays with is_mark
      · exact .inr (.inl (congrArg ending (Span.inside.inj stays)))
      · obtain ⟨opens, rfl⟩ := eq_of_opened_eq_inside stays
        refine .inr (.inr ⟨opens, ?_⟩)
        rw [shows, if_neg is_mark]
        exact List.mem_cons_of_mem _ List.mem_cons_self

private theorem mem_of_mem_shown (span : Span) (member : char ∈ span.shown text) :
    char ∈ text ∨ span = ending char := by
  induction text generalizing span with
  | nil => cases member
  | cons first others induction =>
      rw [shown, List.mem_append] at member
      rcases member with at_once | later
      · cases span with
        | outside => exact .inl (List.mem_singleton.mp at_once ▸ List.mem_cons_self)
        | inside mark => cases at_once
        | ending mark =>
            rw [shows] at at_once
            split_ifs at at_once with is_mark
            · cases at_once
            · rcases List.mem_cons.mp at_once with rfl | is_first
              · exact .inr rfl
              · exact .inl (List.mem_singleton.mp is_first ▸ List.mem_cons_self)
      · rcases induction (span.next first) later with in_others | ends
        · exact .inl (List.mem_cons_of_mem first in_others)
        · exact .inl ((eq_of_next_eq_ending ends).1 ▸ List.mem_cons_self)

/-- Text outside of spans shows none but its own characters. -/
theorem mem_of_mem_shown_outside (member : char ∈ outside.shown text) : char ∈ text := by
  rcases mem_of_mem_shown outside member with in_text | ends
  · exact in_text
  · cases ends

private theorem shows_of_after (span : Span) (within : span.after text = inside mark) :
    span = inside mark ∨ span = ending mark ∨ isMark mark = true ∧ mark ∈ span.shown text := by
  induction text generalizing span with
  | nil => exact .inl within
  | cons first others induction =>
      rcases induction (span.next first) within with stays | ends | ⟨is_mark, member⟩
      · rcases shows_of_next stays with was_inside | was_ending | ⟨is_mark, member⟩
        · exact .inl was_inside
        · exact .inr (.inl was_ending)
        · exact .inr (.inr ⟨is_mark, List.mem_append_left _ member⟩)
      · exact .inl (eq_of_next_eq_ending ends).2
      · exact .inr (.inr ⟨is_mark, List.mem_append_right _ member⟩)

/-- A text that stops within a span shows the mark that opened the span. -/
theorem mem_shown_of_after_outside (within : outside.after text = inside mark) :
    isMark mark = true ∧ mark ∈ outside.shown text := by
  rcases shows_of_after outside within with stays | ends | shows
  · cases stays
  · cases ends
  · exact shows

/-- A text that stops after a mark stood within its span before. -/
theorem isMark_of_after_outside (ends : outside.after text = ending mark) :
    isMark mark = true := by
  cases text using List.reverseRecOn with
  | nil => cases ends
  | append_singleton before last =>
      rw [after, List.foldl_append] at ends
      exact (mem_shown_of_after_outside (eq_of_next_eq_ending ends).2).1

end Span

end StationGateway.Sql
