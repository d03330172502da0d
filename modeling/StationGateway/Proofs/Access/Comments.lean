import StationGateway.Access.Rules
import StationGateway.Proofs.Access.Markers
import StationGateway.Proofs.Text.Join

/-!
# Comments of access rules

`stripComments` looks at each line of a text as if it began outside of all quoted spans. So it takes
the comments out, and nothing else, exactly if that makes no difference to any line: a line that
begins within a span may lose quoted text, and one behind the end of such a span may keep its
comment. -/

namespace StationGateway.Access

open Text Sql

variable {char : Char} {rest line : List Char} {place : Place} {span : Span} {counts : Place → Bool}

/-! ## The comment of a line -/

namespace Place

theorem uncommented_comment (no_newline : '\n' ∉ line) : comment.uncommented line = [] := by
  induction line with
  | nil => rfl
  | cons char rest induction =>
      rw [List.mem_cons, not_or] at no_newline
      rw [uncommented, step, if_neg (Ne.symm no_newline.1)]
      exact induction no_newline.2

theorem after_comment (no_newline : '\n' ∉ line) : comment.after line = comment := by
  induction line with
  | nil => rfl
  | cons char rest induction =>
      rw [List.mem_cons, not_or] at no_newline
      rw [after, step, if_neg (Ne.symm no_newline.1), induction no_newline.2]

theorem markers_comment (uncounted : counts comment = false) (no_newline : '\n' ∉ line) :
    comment.markers counts line = [] := by
  induction line with
  | nil => rfl
  | cons char rest induction =>
      rw [List.mem_cons, not_or] at no_newline
      rw [markers, step, if_neg (Ne.symm no_newline.1), induction no_newline.2, uncounted]
      rfl

theorem step_of_not_begins (goes_on : ¬((code span).isBare ∧ IsMarker char rest)) :
    (code span).step char rest = code (span.next char) :=
  if_neg goes_on

theorem Marked.next (marked : (code span).Marked)
    (goes_on : ¬((code span).isBare ∧ IsMarker char rest)) : (code (span.next char)).Marked :=
  step_of_not_begins goes_on ▸ marked.step char rest

theorem uncommented_of_begins (no_newline : '\n' ∉ rest)
    (begins : (code span).isBare ∧ IsMarker char rest) :
    (code span).uncommented (char :: rest) = [] := by
  rw [uncommented, step, if_pos begins]
  exact uncommented_comment no_newline

theorem uncommented_of_not_begins (goes_on : ¬((code span).isBare ∧ IsMarker char rest)) :
    (code span).uncommented (char :: rest) = char :: (code (span.next char)).uncommented rest := by
  rw [uncommented, step_of_not_begins goes_on]

/-- What is left of a line is its beginning. -/
theorem uncommented_begins_line (no_newline : '\n' ∉ line) (span : Span) :
    (code span).uncommented line <+: line := by
  induction line generalizing span with
  | nil => exact List.prefix_rfl
  | cons char rest induction =>
      rw [List.mem_cons, not_or] at no_newline
      by_cases begins : (code span).isBare ∧ IsMarker char rest
      · rw [uncommented_of_begins no_newline.2 begins]
        exact List.nil_prefix
      · rw [uncommented_of_not_begins begins]
        exact List.cons_prefix_cons.mpr ⟨rfl, induction no_newline.2 _⟩

end Place

theorem IsMarker.of_beginning {front : List Char} (marker : IsMarker char front)
    (is_front : front <+: rest) : IsMarker char rest := by
  obtain ⟨others, rfl⟩ := is_front
  refine ⟨marker.1, ?_⟩
  rw [List.head?_append, marker.2]
  rfl

namespace Place

/-- Where no comment begins, none begins before what is left of the rest of the line. -/
theorem not_begins_uncommented (no_newline : '\n' ∉ rest)
    (goes_on : ¬((code span).isBare ∧ IsMarker char rest)) :
    ¬((code span).isBare ∧ IsMarker char ((code (span.next char)).uncommented rest)) :=
  fun begins => goes_on ⟨begins.1, begins.2.of_beginning (uncommented_begins_line no_newline _)⟩

/-- What is left of a line has no markers outside of quoted spans. -/
theorem markers_isBare_uncommented (no_newline : '\n' ∉ line) (span : Span) :
    (code span).markers isBare ((code span).uncommented line) = [] := by
  induction line generalizing span with
  | nil => rfl
  | cons char rest induction =>
      rw [List.mem_cons, not_or] at no_newline
      by_cases begins : (code span).isBare ∧ IsMarker char rest
      · rw [uncommented_of_begins no_newline.2 begins]
        rfl
      · have left_goes_on := not_begins_uncommented no_newline.2 begins
        rw [uncommented_of_not_begins begins, markers, if_neg left_goes_on,
          step_of_not_begins left_goes_on, List.nil_append, induction no_newline.2]

/-- A line without markers outside of quoted spans has no comment. -/
theorem uncommented_eq_self (clean : (code span).markers isBare line = []) :
    (code span).uncommented line = line := by
  induction line generalizing span with
  | nil => rfl
  | cons char rest induction =>
      rw [markers, List.append_eq_nil_iff, ite_eq_right_iff] at clean
      have goes_on : ¬((code span).isBare ∧ IsMarker char rest) := fun begins =>
        List.cons_ne_nil _ _ (clean.1 begins)
      have rest_clean := clean.2
      rw [step_of_not_begins goes_on] at rest_clean
      rw [uncommented_of_not_begins goes_on, induction rest_clean]

/-- Within a span the two characters of a marker are kept. -/
theorem isMarker_uncommented (marked : (code span).Marked) (quoted : (code span).isQuoted = true)
    (no_newline : '\n' ∉ rest) :
    IsMarker char ((code (span.next char)).uncommented rest) ↔ IsMarker char rest := by
  constructor
  · exact fun marker => marker.of_beginning (uncommented_begins_line no_newline _)
  · intro marker
    match span with
    | .inside mark =>
        have differs : char ≠ mark := by
          rintro rfl
          exact absurd marked (by simp [Marked, marker.isMark_eq_false])
        obtain ⟨others, rfl⟩ := List.head?_eq_some_iff.mp marker.2
        have goes_on : ¬((code (.inside mark)).isBare ∧ IsMarker char others) := fun begins =>
          Bool.false_ne_true begins.1
        rw [Span.next, if_neg differs, uncommented_of_not_begins goes_on]
        exact ⟨marker.1, marker.2⟩

/-- What is left of a line has the quoted markers of the line. -/
theorem markers_isQuoted_uncommented (marked : (code span).Marked) (no_newline : '\n' ∉ line) :
    (code span).markers isQuoted ((code span).uncommented line) =
      (code span).markers isQuoted line := by
  induction line generalizing span with
  | nil => rfl
  | cons char rest induction =>
      rw [List.mem_cons, not_or] at no_newline
      by_cases begins : (code span).isBare ∧ IsMarker char rest
      · have not_quoted : ¬((code span).isQuoted = true ∧ IsMarker char rest) := by
          rintro ⟨quoted, -⟩
          have bare := begins.1
          cases span <;> simp [isBare, isQuoted] at bare quoted
        rw [uncommented_of_begins no_newline.2 begins, markers, markers, if_neg not_quoted, step,
          if_pos begins, markers_comment rfl no_newline.2]
        rfl
      · have left_goes_on := not_begins_uncommented no_newline.2 begins
        rw [uncommented_of_not_begins begins, markers, markers, step_of_not_begins begins,
          step_of_not_begins left_goes_on, induction (marked.next begins) no_newline.2]
        congr 1
        exact if_congr (and_congr_right fun quoted =>
          isMarker_uncommented marked quoted no_newline.2) rfl rfl

/-- The next line begins where it would begin after the whole line. -/
theorem nextLine_uncommented (marked : (code span).Marked) (no_newline : '\n' ∉ line) :
    (code span).nextLine ((code span).uncommented line) = (code span).nextLine line := by
  induction line generalizing span with
  | nil => rfl
  | cons char rest induction =>
      rw [List.mem_cons, not_or] at no_newline
      by_cases begins : (code span).isBare ∧ IsMarker char rest
      · have no_newline_marker : ¬IsMarker '\n' [] := not_isMarker_of_isBlank rfl
        have bare := begins.1
        rw [uncommented_of_begins no_newline.2 begins, nextLine, nextLine, after, after, step,
          step, if_pos begins, after_comment no_newline.2]
        rw [← step, marked.step_unmarked rfl no_newline_marker]
        cases span with
        | inside mark => cases bare
        | outside => rfl
        | ending mark => rfl
      · have left_goes_on := not_begins_uncommented no_newline.2 begins
        have rest_eq := induction (marked.next begins) no_newline.2
        rw [uncommented_of_not_begins begins, nextLine, nextLine, after, after,
          step_of_not_begins begins, step_of_not_begins left_goes_on]
        exact rest_eq

/-! ## The same line from two places -/

/-- From two places of which one is right, a line loses the same comment, or what is rightly left of
it has a marker that is bare from the other place, or more is left from there. -/
theorem uncommented_trichotomy (marked : (code span).Marked) (no_newline : '\n' ∉ line)
    (other : Span) :
    (code other).uncommented line = (code span).uncommented line ∨
      (code other).markers isBare ((code span).uncommented line) ≠ [] ∨
      ∃ char rest, isBlank char = false ∧
        (code other).uncommented line = (code span).uncommented line ++ char :: rest := by
  induction line generalizing span other with
  | nil => exact .inl rfl
  | cons char rest induction =>
      rw [List.mem_cons, not_or] at no_newline
      by_cases begins : (code span).isBare ∧ IsMarker char rest
      · rw [uncommented_of_begins no_newline.2 begins]
        by_cases other_begins : (code other).isBare ∧ IsMarker char rest
        · exact .inl (uncommented_of_begins no_newline.2 other_begins)
        · refine .inr (.inr ⟨char, (code (other.next char)).uncommented rest,
            begins.2.isBlank_eq_false, ?_⟩)
          exact uncommented_of_not_begins other_begins
      · rw [uncommented_of_not_begins begins]
        by_cases left_begins : (code other).isBare ∧
            IsMarker char ((code (span.next char)).uncommented rest)
        · refine .inr (.inl ?_)
          rw [markers, if_pos left_begins]
          exact List.cons_ne_nil _ _
        · have other_goes_on : ¬((code other).isBare ∧ IsMarker char rest) := by
            rintro ⟨other_bare, marker⟩
            have quoted : (code span).isQuoted = true := by
              cases span with
              | outside => exact absurd ⟨rfl, marker⟩ begins
              | inside mark => rfl
              | ending mark => exact absurd ⟨rfl, marker⟩ begins
            exact left_begins
              ⟨other_bare, (isMarker_uncommented marked quoted no_newline.2).mpr marker⟩
          rw [uncommented_of_not_begins other_goes_on, markers, if_neg left_begins,
            step_of_not_begins left_begins, List.nil_append]
          rcases induction (marked.next begins) no_newline.2 (other.next char) with same | bare | more
          · exact .inl (congrArg (char :: ·) same)
          · exact .inr (.inl bare)
          · obtain ⟨more_char, more_rest, visible, more_eq⟩ := more
            exact .inr (.inr ⟨more_char, more_rest, visible, congrArg (char :: ·) more_eq⟩)

/-- A line that begins within a span has a comment only behind the mark that ends the span. -/
theorem mark_mem_uncommented {mark : Char}
    (changed : (code (.inside mark)).uncommented line ≠ line) :
    mark ∈ (code (.inside mark)).uncommented line := by
  induction line with
  | nil => exact absurd rfl changed
  | cons char rest induction =>
      have goes_on : ¬((code (.inside mark)).isBare ∧ IsMarker char rest) := fun begins =>
        Bool.false_ne_true begins.1
      rw [uncommented_of_not_begins goes_on] at changed ⊢
      by_cases is_mark : char = mark
      · exact is_mark ▸ List.mem_cons_self
      · rw [Span.next, if_neg is_mark] at changed ⊢
        exact List.mem_cons_of_mem char (induction fun same => changed (congrArg (char :: ·) same))

end Place

/-! ## The lines of a text -/

/-- The quote that is open within a span, as `beforeComment` keeps it. -/
def openQuote : Span → Option Char
  | .inside mark => some mark
  | _ => none

theorem beforeComment_none_cons (char : Char) (rest : List Char) :
    beforeComment none (char :: rest) =
      if isMark char then char :: beforeComment (some char) rest
      else if IsMarker char rest then [] else char :: beforeComment none rest := by
  rw [beforeComment]
  refine if_congr ?_ rfl (if_congr Iff.rfl rfl rfl)
  rw [isMark, Bool.or_eq_true, beq_iff_eq, beq_iff_eq]

/-- What stands before the comment of a line is what is left of the line. -/
theorem beforeComment_eq (marked : (Place.code span).Marked) (no_newline : '\n' ∉ line) :
    beforeComment (openQuote span) line = (Place.code span).uncommented line := by
  induction line generalizing span with
  | nil => rfl
  | cons char rest induction =>
      rw [List.mem_cons, not_or] at no_newline
      by_cases begins : (Place.code span).isBare ∧ IsMarker char rest
      · have no_quote : openQuote span = none := by
          cases span with
          | inside mark => exact absurd begins.1 Bool.false_ne_true
          | outside => rfl
          | ending mark => rfl
        rw [Place.uncommented_of_begins no_newline.2 begins, no_quote, beforeComment_none_cons,
          if_neg (by simp [begins.2.isMark_eq_false]), if_pos begins.2]
      · rw [Place.uncommented_of_not_begins begins, ← induction (marked.next begins) no_newline.2]
        have opened_quote : openQuote (Span.opened char) =
            if isMark char then some char else none := by
          rw [Span.opened]
          split_ifs <;> rfl
        cases span with
        | inside mark =>
            rw [openQuote, beforeComment, Span.next]
            split_ifs <;> rfl
        | outside =>
            have no_marker : ¬IsMarker char rest := fun marker => begins ⟨rfl, marker⟩
            rw [openQuote, beforeComment_none_cons, if_neg no_marker, Span.next, opened_quote]
            · split_ifs <;> rfl
            · simp
        | ending mark =>
            have no_marker : ¬IsMarker char rest := fun marker => begins ⟨rfl, marker⟩
            have quote_eq : openQuote (Span.next (.ending mark) char) =
                if isMark char then some char else none := by
              rw [Span.next]
              split_ifs with same is_mark is_mark
              · rw [same]
                rfl
              · exact absurd (same ▸ marked) is_mark
              · rw [opened_quote, if_pos is_mark]
              · rw [opened_quote, if_neg is_mark]
            rw [openQuote, beforeComment_none_cons, if_neg no_marker, quote_eq]
            · split_ifs <;> rfl
            · simp

/-- What a text without its comments is. -/
structure IsStripped (text result : String) : Prop where
  /-- There are no markers outside of quoted spans. -/
  clean : Place.start.markers Place.isBare result.toList = []
  /-- The markers within quoted spans are still there. -/
  kept : Place.start.markers Place.isQuoted result.toList =
    Place.start.markers Place.isQuoted text.toList
  /-- Nothing else is taken out but blanks at the ends of lines and blank lines. -/
  same : tidy (splitOn '\n' result.toList) =
    tidy (splitOn '\n' (Place.start.uncommented text.toList))

/-- What `stripComments` leaves of a text, by lines. -/
def strippedLines (text : String) : List (List Char) :=
  tidy ((splitOn '\n' text.toList).map Place.start.uncommented)

theorem stripComments_eq (text : String) :
    stripComments text = join "\n" ((strippedLines text).map String.ofList) := by
  have cut_eq : (splitOn '\n' text.toList).map (beforeComment none) =
      (splitOn '\n' text.toList).map Place.start.uncommented :=
    List.map_congr_left fun line member =>
      @beforeComment_eq line .outside trivial (notMem_of_mem_splitOn member)
  rw [strippedLines, tidy, ← cut_eq, List.map_map]
  rfl

theorem exists_of_mem_strippedLines {text : String} (member : line ∈ strippedLines text) :
    ∃ whole ∈ splitOn '\n' text.toList, dropBlanksRight (Place.start.uncommented whole) = line := by
  obtain ⟨cut, cut_mem, -, line_eq⟩ := mem_tidy.mp member
  obtain ⟨whole, whole_mem, rfl⟩ := List.mem_map.mp cut_mem
  exact ⟨whole, whole_mem, line_eq⟩

theorem newline_notMem_of_mem_strippedLines {text : String} (member : line ∈ strippedLines text) :
    '\n' ∉ line := by
  obtain ⟨whole, whole_mem, rfl⟩ := exists_of_mem_strippedLines member
  obtain ⟨blanks, cut_eq, -⟩ := exists_append_dropBlanksRight (Place.start.uncommented whole)
  have absent := Place.newline_notMem_uncommented (notMem_of_mem_splitOn whole_mem) .start
  rw [cut_eq, List.mem_append, not_or] at absent
  exact absent.1

theorem markers_of_mem_strippedLines {text : String} (member : line ∈ strippedLines text) :
    Place.start.markers Place.isBare line = [] := by
  obtain ⟨whole, whole_mem, rfl⟩ := exists_of_mem_strippedLines member
  rw [Place.markers_dropBlanksRight]
  exact Place.markers_isBare_uncommented (notMem_of_mem_splitOn whole_mem) .outside

/-- The lines of a text without comments, which has an empty line if nothing is left. -/
theorem splitOn_stripComments (text : String) :
    splitOn '\n' (stripComments text).toList = strippedLines text ∨
      splitOn '\n' (stripComments text).toList = [[]] ∧ strippedLines text = [] := by
  rw [stripComments_eq]
  rcases Decidable.em (strippedLines text = []) with nothing | filled
  · exact .inr ⟨by rw [nothing]; rfl, nothing⟩
  · refine .inl ?_
    have is_newline : "\n".toList = ['\n'] := rfl
    rw [splitOn_join is_newline (by simpa using filled), List.map_map]
    · exact List.map_id'' (fun line => String.toList_ofList) (strippedLines text)
    · intro joined member
      obtain ⟨line, line_mem, rfl⟩ := List.mem_map.mp member
      rw [String.toList_ofList]
      exact newline_notMem_of_mem_strippedLines line_mem

theorem tidy_splitOn_stripComments (text : String) :
    tidy (splitOn '\n' (stripComments text).toList) = strippedLines text := by
  rcases splitOn_stripComments text with lines_eq | ⟨lines_eq, nothing⟩
  · rw [lines_eq]
    exact tidy_tidy _
  · rw [lines_eq, nothing]
    rfl

/-- There is nothing more to take out of a text without comments. -/
theorem strippedLines_stripComments (text : String) :
    strippedLines (stripComments text) = strippedLines text := by
  rw [strippedLines]
  rcases splitOn_stripComments text with lines_eq | ⟨lines_eq, nothing⟩
  · have clean : (strippedLines text).map Place.start.uncommented = strippedLines text := by
      conv_rhs => rw [← List.map_id (strippedLines text)]
      exact List.map_congr_left fun line member =>
        Place.uncommented_eq_self (markers_of_mem_strippedLines member)
    rw [lines_eq, clean]
    exact tidy_tidy _
  · rw [lines_eq, nothing]
    rfl

/-! ## Lines within spans -/

theorem Place.map_snd_lines (place : Place) (lines : List (List Char)) :
    (place.lines lines).map Prod.snd = lines := by
  induction lines generalizing place with
  | nil => rfl
  | cons line others induction => exact congrArg (line :: ·) (induction _)

theorem Place.BeginsLine.of_mem_lines (begins : place.BeginsLine) {lines : List (List Char)}
    {entry : Place × List Char} (member : entry ∈ place.lines lines) :
    entry.1.BeginsLine ∧ entry.2 ∈ lines := by
  induction lines generalizing place with
  | nil => cases member
  | cons line others induction =>
      rcases List.mem_cons.mp member with rfl | later
      · exact ⟨begins, List.mem_cons_self⟩
      · obtain ⟨entry_begins, entry_mem⟩ := induction (begins.marked.beginsLine_nextLine line) later
        exact ⟨entry_begins, List.mem_cons_of_mem line entry_mem⟩

theorem beginsLine_of_mem_lines {text : List Char} {entry : Place × List Char}
    (member : entry ∈ Place.start.lines (splitOn '\n' text)) :
    entry.1.BeginsLine ∧ '\n' ∉ entry.2 :=
  (Place.beginsLine_start.of_mem_lines member).imp_right notMem_of_mem_splitOn

/-- A line begins outside of all spans or within one. -/
theorem Place.BeginsLine.eq_start_or (begins : place.BeginsLine) :
    place = start ∨ ∃ mark, isMark mark = true ∧ place = code (.inside mark) := by
  have no_marker : ¬IsMarker '\n' [] := not_isMarker_of_isBlank rfl
  match place with
  | comment => cases begins.stays
  | code .outside => exact .inl rfl
  | code (.inside mark) => exact .inr ⟨mark, begins.marked, rfl⟩
  | code (.ending mark) =>
      have stays := begins.stays
      rw [begins.marked.step_unmarked rfl no_marker] at stays
      cases stays

theorem Place.BeginsLine.exists_code (begins : place.BeginsLine) : ∃ span, place = code span := by
  rcases begins.eq_start_or with rfl | ⟨mark, -, rfl⟩
  · exact ⟨_, rfl⟩
  · exact ⟨_, rfl⟩

/-- A line is cut as if it began outside of spans, or something quoted is taken for a comment, or a
comment for something quoted; then something stands before and in it. -/
theorem Place.BeginsLine.cut_cases (begins : place.BeginsLine) (no_newline : '\n' ∉ line) :
    start.uncommented line = place.uncommented line ∨
      start.markers isBare (place.uncommented line) ≠ [] ∨
      isBlankText (start.uncommented line) = false ∧
        isBlankText (place.uncommented line) = false ∧
        dropBlanksRight (start.uncommented line) ≠ dropBlanksRight (place.uncommented line) := by
  rcases begins.eq_start_or with rfl | ⟨mark, is_mark, rfl⟩
  · exact .inl rfl
  · rcases uncommented_trichotomy begins.marked no_newline .outside with same | bare | more
    · exact .inl same
    · exact .inr (.inl bare)
    · obtain ⟨char, rest, visible, more_eq⟩ := more
      have changed : (code (.inside mark)).uncommented line ≠ line := by
        intro unchanged
        have shorter := (uncommented_begins_line no_newline .outside).length_le
        rw [more_eq, unchanged, List.length_append, List.length_cons] at shorter
        omega
      have mark_visible : isBlank mark = false := by
        rw [Bool.eq_false_iff]
        intro blank
        rw [isMark_eq_false_of_isBlank blank] at is_mark
        cases is_mark
      have mark_mem := mark_mem_uncommented changed
      refine .inr (.inr ⟨?_, isBlankText_of_mem mark_mem mark_visible, ?_⟩)
      · exact isBlankText_of_mem (more_eq ▸ List.mem_append_left _ mark_mem) mark_visible
      · exact more_eq ▸ dropBlanksRight_append_ne visible rest

/-- If the lines are the same once they are tidy, each of them is cut as if it began outside of
spans. -/
theorem uncommented_eq_of_tidy_eq {entries : List (Place × List Char)}
    (begin_lines : ∀ entry ∈ entries, entry.1.BeginsLine ∧ '\n' ∉ entry.2)
    (same : tidy (entries.map fun entry => Place.start.uncommented entry.2) =
      tidy (entries.map fun entry => entry.1.uncommented entry.2)) :
    ∀ entry ∈ entries, Place.start.uncommented entry.2 = entry.1.uncommented entry.2 := by
  -- no line that is left has a bare marker, so no quoted text is taken for a comment
  have clean : ∀ entry ∈ entries,
      Place.start.markers Place.isBare (entry.1.uncommented entry.2) = [] := by
    intro entry member
    cases visible : isBlankText (entry.1.uncommented entry.2) with
    | true => exact Place.markers_of_blank (List.all_eq_true.mp visible) .start
    | false =>
        have in_right : dropBlanksRight (entry.1.uncommented entry.2) ∈
            tidy (entries.map fun entry => entry.1.uncommented entry.2) :=
          mem_tidy.mpr ⟨_, List.mem_map_of_mem member, visible, rfl⟩
        obtain ⟨cut, cut_mem, -, cut_eq⟩ := mem_tidy.mp (same ▸ in_right)
        obtain ⟨other, other_mem, rfl⟩ := List.mem_map.mp cut_mem
        rw [← Place.markers_dropBlanksRight, ← cut_eq, Place.markers_dropBlanksRight]
        exact Place.markers_isBare_uncommented (begin_lines other other_mem).2 .outside
  induction entries with
  | nil => exact fun entry member => nomatch member
  | cons entry others induction =>
      have others_begin := fun other member => begin_lines other (List.mem_cons_of_mem entry member)
      have others_clean := fun other member => clean other (List.mem_cons_of_mem entry member)
      obtain ⟨begins, no_newline⟩ := begin_lines entry List.mem_cons_self
      rw [List.map_cons, List.map_cons] at same
      rcases begins.cut_cases no_newline with cut_same | bare | ⟨visible, right_visible, differs⟩
      · refine List.forall_mem_cons.mpr ⟨cut_same, induction others_begin ?_ others_clean⟩
        rw [cut_same] at same
        cases visible : isBlankText (entry.1.uncommented entry.2) with
        | true => rwa [tidy_cons_of_blank visible, tidy_cons_of_blank visible] at same
        | false =>
            rw [tidy_cons_of_visible visible, tidy_cons_of_visible visible] at same
            exact (List.cons.inj same).2
      · exact absurd (clean entry List.mem_cons_self) bare
      · rw [tidy_cons_of_visible visible, tidy_cons_of_visible right_visible] at same
        exact absurd (List.cons.inj same).1 differs

/-- The lines that are left of a text begin where they began in it. -/
theorem Place.BeginsLine.lines_map_uncommented (begins : place.BeginsLine)
    {lines : List (List Char)} (no_newline : ∀ line ∈ lines, '\n' ∉ line) :
    place.lines ((place.lines lines).map fun entry => entry.1.uncommented entry.2) =
      (place.lines lines).map fun entry => (entry.1, entry.1.uncommented entry.2) := by
  induction lines generalizing place with
  | nil => rfl
  | cons line others induction =>
      have next_eq : place.nextLine (place.uncommented line) = place.nextLine line := by
        obtain ⟨span, rfl⟩ := begins.exists_code
        exact nextLine_uncommented begins.marked (no_newline line List.mem_cons_self)
      rw [Place.lines, List.map_cons, Place.lines, List.map_cons, next_eq,
        induction (begins.marked.beginsLine_nextLine line) fun other member =>
          no_newline other (List.mem_cons_of_mem line member)]

/-- The markers of what is left of a text are the quoted ones of the text. -/
theorem markers_of_same {text result : String}
    (same : tidy (splitOn '\n' result.toList) =
      tidy (splitOn '\n' (Place.start.uncommented text.toList))) :
    Place.start.markers counts result.toList =
      (Place.start.lines (splitOn '\n' text.toList)).flatMap fun entry =>
        entry.1.markers counts (entry.1.uncommented entry.2) := by
  have no_newline : ∀ line ∈ splitOn '\n' text.toList, '\n' ∉ line := fun line =>
    notMem_of_mem_splitOn
  rw [Place.markers_eq_flatMap, ← Place.beginsLine_start.markers_tidy, same,
    Place.beginsLine_start.markers_tidy, Place.splitOn_uncommented,
    Place.beginsLine_start.lines_map_uncommented no_newline, List.flatMap_map]

theorem isStripped_iff {text result : String} :
    IsStripped text result ↔ tidy (splitOn '\n' result.toList) =
      tidy (splitOn '\n' (Place.start.uncommented text.toList)) := by
  refine ⟨IsStripped.same, fun same => ⟨?_, ?_, same⟩⟩
  · rw [markers_of_same same, List.flatMap_eq_nil_iff]
    intro entry member
    obtain ⟨begins, no_newline⟩ := beginsLine_of_mem_lines member
    obtain ⟨span, place_eq⟩ := begins.exists_code
    rw [place_eq]
    exact Place.markers_isBare_uncommented no_newline span
  · rw [markers_of_same same, Place.markers_eq_flatMap]
    refine List.flatMap_congr fun entry member => ?_
    obtain ⟨begins, no_newline⟩ := beginsLine_of_mem_lines member
    obtain ⟨span, place_eq⟩ := begins.exists_code
    rw [place_eq]
    exact Place.markers_isQuoted_uncommented (place_eq ▸ begins.marked) no_newline

theorem stripComments_stripComments (text : String) :
    stripComments (stripComments text) = stripComments text := by
  rw [stripComments_eq (stripComments text), strippedLines_stripComments, ← stripComments_eq]

theorem isStripped_stripComments_iff (text : String) :
    IsStripped text (stripComments text) ↔
      ∀ entry ∈ Place.start.lines (splitOn '\n' text.toList),
        Place.start.uncommented entry.2 = entry.1.uncommented entry.2 := by
  have lines_eq : (splitOn '\n' text.toList).map Place.start.uncommented =
      (Place.start.lines (splitOn '\n' text.toList)).map fun entry =>
        Place.start.uncommented entry.2 := by
    conv_lhs => rw [← Place.start.map_snd_lines (splitOn '\n' text.toList), List.map_map]
    rfl
  rw [isStripped_iff, tidy_splitOn_stripComments, strippedLines, lines_eq,
    Place.splitOn_uncommented]
  constructor
  · exact uncommented_eq_of_tidy_eq fun entry => beginsLine_of_mem_lines
  · exact fun cut_same => congrArg tidy (List.map_congr_left cut_same)

/-- A text of which every line begins outside of quoted spans loses its comments and nothing else. -/
theorem isStripped_of_lines {text : String}
    (outside : ∀ entry ∈ Place.start.lines (splitOn '\n' text.toList), entry.1 = .start) :
    IsStripped text (stripComments text) := by
  rw [isStripped_stripComments_iff]
  intro entry member
  rw [outside entry member]

/-- `stripComments` leaves nothing to strip. What it leaves is the text without its comments exactly
if every line that begins within a quoted span loses what it would lose outside of all spans. -/
theorem stripComments_spec (text : String) :
    stripComments (stripComments text) = stripComments text ∧
      (IsStripped text (stripComments text) ↔
        ∀ entry ∈ Place.start.lines (splitOn '\n' text.toList),
          Place.start.uncommented entry.2 = entry.1.uncommented entry.2) :=
  ⟨stripComments_stripComments text, isStripped_stripComments_iff text⟩

/-- Behind a literal that goes on over the end of a line, the comment stays. -/
theorem stripComments_spec_two_lines :
    stripComments "s.origin <> 'two\nlines' -- note" = "s.origin <> 'two\nlines' -- note" ∧
      ¬IsStripped "s.origin <> 'two\nlines' -- note"
        (stripComments "s.origin <> 'two\nlines' -- note") := by
  refine ⟨by decide +kernel, fun stripped => ?_⟩
  have cut_same := (stripComments_spec "s.origin <> 'two\nlines' -- note").2.mp stripped
  revert cut_same
  decide +kernel

end StationGateway.Access
