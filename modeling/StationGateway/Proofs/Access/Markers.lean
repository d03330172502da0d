import Mathlib
import StationGateway.Proofs.Sql.Skeleton
import StationGateway.Proofs.Text.Blank
import StationGateway.Proofs.Text.Split

/-!
# Comments and quoted spans

Two hyphens or slashes outside of all quoted spans begin a comment, which ends with its line. Spans go
on over the ends of lines. So a text is read line by line once it is known where each line begins,
and blanks at the ends of lines and blank lines make no difference to what stands where. -/

namespace StationGateway.Access

open Text Sql

/-! ## Comments and spans -/

/-- Whether a character and the rest of its text begin with two hyphens or slashes. -/
def IsMarker (char : Char) (rest : List Char) : Prop :=
  (char = '-' ∨ char = '/') ∧ rest.head? = some char

instance (char : Char) (rest : List Char) : Decidable (IsMarker char rest) :=
  inferInstanceAs (Decidable (_ ∧ _))

/-- Where a place of a text stands. -/
inductive Place where
  /-- In the text proper, outside of quoted spans or within one. -/
  | code (span : Span)
  /-- Within a comment. -/
  | comment
  deriving DecidableEq, Repr

namespace Place

/-- Where a text begins. -/
def start : Place :=
  code .outside

/-- Whether a marker at this place is quoted. -/
def isQuoted : Place → Bool
  | code (.inside _) => true
  | _ => false

/-- Whether a marker at this place begins a comment. -/
def isBare : Place → Bool
  | code (.inside _) => false
  | code _ => true
  | comment => false

/-- The place after one more character, which the rest of the text follows. -/
def step : Place → Char → List Char → Place
  | comment, char, _ => if char = '\n' then start else comment
  | code span, char, rest =>
      if (code span).isBare ∧ IsMarker char rest then comment else code (span.next char)

/-- The place after some text. -/
def after (place : Place) : List Char → Place
  | [] => place
  | char :: rest => (place.step char rest).after rest

/-- The place where the next line begins. -/
def nextLine (place : Place) (line : List Char) : Place :=
  (place.after line).step '\n' []

/-- The text without its comments. -/
def uncommented (place : Place) : List Char → List Char
  | [] => []
  | char :: rest =>
      match place.step char rest with
      | comment => uncommented comment rest
      | code span => char :: uncommented (code span) rest

/-- The hyphens and slashes with which markers begin, of those at some places of a text. -/
def markers (counts : Place → Bool) (place : Place) : List Char → List Char
  | [] => []
  | char :: rest =>
      (if counts place ∧ IsMarker char rest then [char] else []) ++
        markers counts (place.step char rest) rest

/-- Lines with the places where they begin. -/
def lines (place : Place) : List (List Char) → List (Place × List Char)
  | [] => []
  | line :: rest => (place, line) :: lines (place.nextLine line) rest

end Place

/-- Lines without blanks at their ends and without blank ones among them. -/
def tidy (lines : List (List Char)) : List (List Char) :=
  (lines.map dropBlanksRight).filter fun line => !isBlankText line

/-! ## What a marker is -/

variable {char : Char} {rest tail line text blanks : List Char} {place : Place} {span : Span}
  {counts : Place → Bool}

theorem IsMarker.isMark_eq_false (marker : IsMarker char rest) : isMark char = false := by
  rcases marker.1 with rfl | rfl <;> rfl

theorem IsMarker.isBlank_eq_false (marker : IsMarker char rest) : isBlank char = false := by
  rcases marker.1 with rfl | rfl <;> rfl

theorem not_isMarker_of_isBlank (blank : isBlank char = true) : ¬IsMarker char rest := fun marker => by
  simp [marker.isBlank_eq_false] at blank

theorem isMark_eq_false_of_isBlank (blank : isBlank char = true) : isMark char = false := by
  rw [Bool.eq_false_iff]
  intro is_mark
  rw [isMark, Bool.or_eq_true, beq_iff_eq, beq_iff_eq] at is_mark
  rcases is_mark with rfl | rfl <;> simp [isBlank] at blank

theorem isBlank_of_mem_head? (blank : ∀ char ∈ blanks, isBlank char = true) :
    ∀ next ∈ blanks.head?, isBlank next = true := fun next head =>
  blank next (List.mem_of_mem_head? head)

/-- A text that begins with a blank makes no marker of the character before it. -/
theorem isMarker_append (blank : ∀ next ∈ tail.head?, isBlank next = true) :
    IsMarker char (rest ++ tail) ↔ IsMarker char rest := by
  cases rest with
  | cons next others => exact Iff.rfl
  | nil =>
      constructor
      · intro marker
        have char_blank := blank char marker.2
        exact absurd marker (not_isMarker_of_isBlank char_blank)
      · exact fun marker => nomatch marker.2

/-! ## Along a text -/

namespace Place

theorem step_append (blank : ∀ next ∈ tail.head?, isBlank next = true) (place : Place) (char : Char)
    (rest : List Char) : place.step char (rest ++ tail) = place.step char rest := by
  cases place with
  | comment => rfl
  | code span => simp only [step, isMarker_append blank]

theorem after_append (blank : ∀ next ∈ tail.head?, isBlank next = true) (place : Place)
    (front : List Char) : place.after (front ++ tail) = (place.after front).after tail := by
  induction front generalizing place with
  | nil => rfl
  | cons char rest induction =>
      rw [List.cons_append, after, step_append blank, induction]
      rfl

theorem markers_append (blank : ∀ next ∈ tail.head?, isBlank next = true) (place : Place)
    (front : List Char) : place.markers counts (front ++ tail) =
      place.markers counts front ++ (place.after front).markers counts tail := by
  induction front generalizing place with
  | nil => rfl
  | cons char rest induction =>
      rw [List.cons_append, markers, step_append blank, induction, markers, List.append_assoc]
      simp only [isMarker_append blank, after]

theorem uncommented_append (blank : ∀ next ∈ tail.head?, isBlank next = true) (place : Place)
    (front : List Char) : place.uncommented (front ++ tail) =
      place.uncommented front ++ (place.after front).uncommented tail := by
  induction front generalizing place with
  | nil => rfl
  | cons char rest induction =>
      rw [List.cons_append, uncommented, step_append blank, uncommented, after]
      cases place.step char rest with
      | comment => exact induction comment
      | code span => exact congrArg (char :: ·) (induction (code span))

theorem step_newline (place : Place) (rest : List Char) :
    place.step '\n' rest = place.step '\n' [] := by
  cases place with
  | comment => rfl
  | code span =>
      have no_marker : ∀ others, ¬IsMarker '\n' others := fun _ => not_isMarker_of_isBlank rfl
      simp only [step, no_marker]

/-- The end of a line is in no comment. -/
theorem exists_step_newline (place : Place) : ∃ span, place.step '\n' [] = code span := by
  cases place with
  | comment => exact ⟨_, rfl⟩
  | code span =>
      have no_marker : ¬IsMarker '\n' [] := not_isMarker_of_isBlank rfl
      exact ⟨_, if_neg (mt And.right no_marker)⟩

theorem markers_newline (place : Place) (rest : List Char) :
    place.markers counts ('\n' :: rest) = (place.step '\n' []).markers counts rest := by
  have no_marker : ¬IsMarker '\n' rest := not_isMarker_of_isBlank rfl
  rw [markers, if_neg (mt And.right no_marker), List.nil_append, step_newline]

theorem uncommented_newline (place : Place) (rest : List Char) :
    place.uncommented ('\n' :: rest) = '\n' :: (place.step '\n' []).uncommented rest := by
  obtain ⟨span, step_eq⟩ := place.exists_step_newline
  rw [uncommented, step_newline, step_eq]

private theorem head_newline (rest : List Char) :
    ∀ next ∈ ('\n' :: rest).head?, isBlank next = true := by
  rintro _ ⟨⟩
  rfl

/-- The markers of a text are those of its lines. -/
theorem markers_eq_flatMap (place : Place) (text : List Char) :
    place.markers counts text =
      (place.lines (splitOn '\n' text)).flatMap fun entry => entry.1.markers counts entry.2 := by
  induction text using pieceInduction '\n' generalizing place with
  | last line no_newline =>
      rw [splitOn_eq_singleton no_newline]
      exact (List.append_nil _).symm
  | more line rest no_newline induction =>
      rw [markers_append (head_newline rest), markers_newline, induction,
        splitOn_append no_newline]
      rfl

theorem newline_notMem_uncommented (no_newline : '\n' ∉ line) (place : Place) :
    '\n' ∉ place.uncommented line := by
  induction line generalizing place with
  | nil => exact no_newline
  | cons char rest induction =>
      rw [List.mem_cons, not_or] at no_newline
      rw [uncommented]
      cases place.step char rest with
      | comment => exact induction no_newline.2 comment
      | code span => exact List.not_mem_cons_of_ne_of_not_mem no_newline.1 (induction no_newline.2 _)

/-- Comments are taken out line by line. -/
theorem splitOn_uncommented (place : Place) (text : List Char) :
    splitOn '\n' (place.uncommented text) =
      (place.lines (splitOn '\n' text)).map fun entry => entry.1.uncommented entry.2 := by
  induction text using pieceInduction '\n' generalizing place with
  | last line no_newline =>
      rw [splitOn_eq_singleton no_newline,
        splitOn_eq_singleton (newline_notMem_uncommented no_newline place)]
      rfl
  | more line rest no_newline induction =>
      rw [uncommented_append (head_newline rest), uncommented_newline,
        splitOn_append (newline_notMem_uncommented no_newline place), induction,
        splitOn_append no_newline]
      rfl

/-! ## Blanks and marks -/

/-- Whether the span of a place has one of the two marks. -/
def Marked : Place → Prop
  | code (.inside mark) => isMark mark = true
  | code (.ending mark) => isMark mark = true
  | _ => True

private theorem marked_opened (char : Char) : (code (Span.opened char)).Marked := by
  rw [Span.opened]
  split_ifs with is_mark
  · exact is_mark
  · trivial

theorem Marked.step (marked : place.Marked) (char : Char) (rest : List Char) :
    (place.step char rest).Marked := by
  match place with
  | comment =>
      rw [Place.step]
      split_ifs <;> trivial
  | code .outside =>
      rw [Place.step]
      split_ifs
      · trivial
      · exact marked_opened char
  | code (.inside mark) =>
      rw [Place.step, if_neg (fun bare => nomatch bare.1), Span.next]
      split_ifs <;> exact marked
  | code (.ending mark) =>
      rw [Place.step, Span.next]
      split_ifs
      · trivial
      · exact marked
      · exact marked_opened char

theorem Marked.after (marked : place.Marked) (text : List Char) : (place.after text).Marked := by
  induction text generalizing place with
  | nil => exact marked
  | cons char rest induction => exact induction (marked.step char rest)

/-- A character that is no mark and begins no comment ends a span whose mark was the last character,
and changes no other. -/
theorem Marked.step_unmarked (marked : (code span).Marked) (unmarked : isMark char = false)
    (no_marker : ¬IsMarker char rest) :
    (code span).step char rest = code (if (code span).isQuoted then span else .outside) := by
  have opened_eq : Span.opened char = .outside := if_neg (by simp [unmarked])
  have differs : ∀ mark, isMark mark = true → char ≠ mark := by
    rintro _ is_mark rfl
    simp [unmarked] at is_mark
  rw [Place.step, if_neg (mt And.right no_marker)]
  cases span with
  | outside => exact congrArg code opened_eq
  | inside mark => exact congrArg code (if_neg (differs mark marked))
  | ending mark => exact congrArg code ((if_neg (differs mark marked)).trans opened_eq)

/-- A blank before the end of a line makes no difference to the next one. -/
theorem Marked.step_blank (marked : place.Marked) (blank : isBlank char = true) (rest : List Char) :
    (place.step char rest).step '\n' [] = place.step '\n' [] := by
  have no_marker : ∀ others, ¬IsMarker char others := fun _ => not_isMarker_of_isBlank blank
  have no_newline_marker : ¬IsMarker '\n' [] := not_isMarker_of_isBlank rfl
  have after_marked := marked.step char rest
  cases place with
  | comment =>
      rw [Place.step]
      split_ifs <;> rfl
  | code span =>
      have unmarked := isMark_eq_false_of_isBlank blank
      rw [marked.step_unmarked unmarked (no_marker rest)] at after_marked ⊢
      rw [after_marked.step_unmarked rfl no_newline_marker,
        marked.step_unmarked rfl no_newline_marker]
      cases span <;> rfl

/-- Whether a line can begin at a place: the end of a line makes no difference to it. -/
structure BeginsLine (place : Place) : Prop where
  marked : place.Marked
  stays : place.step '\n' [] = place

theorem beginsLine_start : start.BeginsLine :=
  ⟨trivial, rfl⟩

theorem Marked.beginsLine_nextLine (marked : place.Marked) (line : List Char) :
    (place.nextLine line).BeginsLine :=
  ⟨(marked.after line).step '\n' [], (marked.after line).step_blank rfl []⟩

/-- Blanks at the end of a line make no difference to the next one. -/
theorem Marked.nextLine_append (marked : place.Marked) (blank : ∀ char ∈ blanks, isBlank char = true)
    (front : List Char) : place.nextLine (front ++ blanks) = place.nextLine front := by
  rw [nextLine, nextLine, after_append (isBlank_of_mem_head? blank)]
  have front_marked := marked.after front
  generalize place.after front = reached at front_marked
  induction blanks generalizing reached with
  | nil => rfl
  | cons char rest induction =>
      obtain ⟨char_blank, rest_blank⟩ := List.forall_mem_cons.mp blank
      rw [Place.after, induction rest_blank (reached.step char rest) (front_marked.step char rest),
        front_marked.step_blank char_blank]

theorem markers_of_blank (blank : ∀ char ∈ blanks, isBlank char = true) (place : Place) :
    place.markers counts blanks = [] := by
  induction blanks generalizing place with
  | nil => rfl
  | cons char rest induction =>
      obtain ⟨char_blank, rest_blank⟩ := List.forall_mem_cons.mp blank
      have no_marker : ¬IsMarker char rest := not_isMarker_of_isBlank char_blank
      rw [markers, if_neg (mt And.right no_marker), List.nil_append, induction rest_blank]

/-- No marker is lost with the blanks at the end of a line. -/
theorem markers_dropBlanksRight (place : Place) (line : List Char) :
    place.markers counts (dropBlanksRight line) = place.markers counts line := by
  obtain ⟨blanks, line_eq, blank⟩ := exists_append_dropBlanksRight line
  conv_rhs =>
    rw [line_eq, markers_append (isBlank_of_mem_head? blank), markers_of_blank blank, List.append_nil]

theorem Marked.nextLine_dropBlanksRight (marked : place.Marked) (line : List Char) :
    place.nextLine (dropBlanksRight line) = place.nextLine line := by
  obtain ⟨blanks, line_eq, blank⟩ := exists_append_dropBlanksRight line
  conv_rhs => rw [line_eq, marked.nextLine_append blank]

end Place

/-! ## Tidy lines -/

theorem isBlankText_dropBlanksRight (line : List Char) :
    isBlankText (dropBlanksRight line) = isBlankText line := by
  obtain ⟨blanks, line_eq, blank⟩ := exists_append_dropBlanksRight line
  have blanks_eq : isBlankText blanks = true := List.all_eq_true.mpr blank
  conv_rhs => rw [line_eq, isBlankText, List.all_append]
  rw [← isBlankText, ← isBlankText, blanks_eq, Bool.and_true]

theorem isBlankText_of_mem (member : char ∈ line) (visible : isBlank char = false) :
    isBlankText line = false :=
  List.all_eq_false.mpr ⟨char, member, by simp [visible]⟩

/-- More visible text makes a difference to a line, whatever blanks stand at its end. -/
theorem dropBlanksRight_append_ne (visible : isBlank char = false) (rest : List Char) :
    dropBlanksRight (line ++ char :: rest) ≠ dropBlanksRight line := by
  intro same
  have filled := dropBlanksRight_ne_nil (List.mem_cons_self (a := char) (l := rest)) visible
  obtain ⟨blanks, line_eq, -⟩ := exists_append_dropBlanksRight line
  have length_eq := congrArg List.length line_eq
  rw [dropBlanksRight_append line List.mem_cons_self visible] at same
  have same_length := congrArg List.length same
  rw [List.length_append] at same_length length_eq
  have filled_length := List.length_pos_iff.mpr filled
  omega

theorem tidy_cons_of_blank (blank : isBlankText line = true) (others : List (List Char)) :
    tidy (line :: others) = tidy others := by
  rw [tidy, List.map_cons, List.filter_cons_of_neg]
  · rfl
  · simp [isBlankText_dropBlanksRight, blank]

theorem tidy_cons_of_visible (visible : isBlankText line = false) (others : List (List Char)) :
    tidy (line :: others) = dropBlanksRight line :: tidy others := by
  rw [tidy, List.map_cons, List.filter_cons_of_pos]
  · rfl
  · simp [isBlankText_dropBlanksRight, visible]

theorem mem_tidy {lines : List (List Char)} :
    line ∈ tidy lines ↔
      ∃ whole ∈ lines, isBlankText whole = false ∧ dropBlanksRight whole = line := by
  simp only [tidy, List.mem_filter, List.mem_map, Bool.not_eq_true']
  constructor
  · rintro ⟨⟨whole, member, rfl⟩, visible⟩
    exact ⟨whole, member, isBlankText_dropBlanksRight whole ▸ visible, rfl⟩
  · rintro ⟨whole, member, visible, rfl⟩
    exact ⟨⟨whole, member, rfl⟩, (isBlankText_dropBlanksRight whole).trans visible⟩

theorem tidy_tidy (lines : List (List Char)) : tidy (tidy lines) = tidy lines := by
  induction lines with
  | nil => rfl
  | cons line others induction =>
      cases visible : isBlankText line with
      | true => rw [tidy_cons_of_blank visible, induction]
      | false =>
          have kept_visible := (isBlankText_dropBlanksRight line).trans visible
          rw [tidy_cons_of_visible visible, tidy_cons_of_visible kept_visible,
            dropBlanksRight_dropBlanksRight, induction]

/-- Tidy lines have the markers that the lines had, at the same places. -/
theorem Place.BeginsLine.markers_tidy (begins : place.BeginsLine) (lines : List (List Char)) :
    ((place.lines (tidy lines)).flatMap fun entry => entry.1.markers counts entry.2) =
      (place.lines lines).flatMap fun entry => entry.1.markers counts entry.2 := by
  induction lines generalizing place with
  | nil => rfl
  | cons line others induction =>
      have rest_eq := induction (begins.marked.beginsLine_nextLine line)
      cases visible : isBlankText line with
      | true =>
          have blank := List.all_eq_true.mp visible
          have same_place : place.nextLine line = place :=
            (begins.marked.nextLine_append blank []).trans begins.stays
          rw [same_place] at rest_eq
          rw [tidy_cons_of_blank visible, rest_eq, Place.lines, List.flatMap_cons,
            Place.markers_of_blank blank, List.nil_append, same_place]
      | false =>
          rw [tidy_cons_of_visible visible, Place.lines, Place.lines, List.flatMap_cons,
            List.flatMap_cons, Place.markers_dropBlanksRight,
            begins.marked.nextLine_dropBlanksRight, rest_eq]

end StationGateway.Access
