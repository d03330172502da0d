import Mathlib.Data.List.Chain
import StationGateway.Proofs.Filter.Slice

/-!
# Printed templates

A template is printed with the percent signs of its texts doubled and each place as its sign. What is
printed is read back part by part, unless texts meet or a text after a place would open the bracket of
a slice. Reading never gives texts that are empty or meet.
-/

namespace StationGateway.Filter

open Text

/-! ## Printing -/

/-- The text of a bound, which may be missing. -/
def boundText : Option Int → List Char
  | none => []
  | some bound => (toString bound).toList

/-- The text of a slice between its brackets. -/
def Slice.text (slice : Slice) : List Char :=
  boundText slice.start ++ ':' :: boundText slice.stop

/-- A character of a text as templates have it. -/
def templateChar (char : Char) : List Char :=
  if char = '%' then ['%', '%'] else [char]

namespace TemplatePart

/-- A part as templates have it. -/
def print : TemplatePart → List Char
  | .text kept => kept.toList.flatMap templateChar
  | .column => ['%', 'c']
  | .path => ['%', 'j']
  | .value none => ['%', 'v']
  | .value (some slice) => '%' :: 'v' :: '[' :: (slice.text ++ [']'])

/-- Whether a part is text. -/
def isText : TemplatePart → Bool
  | .text _ => true
  | _ => false

/-- Whether a part is text that would open the bracket of a slice. -/
def opensBracket : TemplatePart → Bool
  | .text kept => kept.toList.head? = some '['
  | _ => false

end TemplatePart

/-- The template that is printed for some parts. -/
def printTemplate (parts : List TemplatePart) : String :=
  String.ofList (parts.flatMap TemplatePart.print)

/-- Whether no text among some parts is empty or meets another one. -/
structure Merged (parts : List TemplatePart) : Prop where
  /-- No text is empty. -/
  filled : .text "" ∉ parts
  /-- No two texts meet. -/
  apart : parts.IsChain fun first second => ¬(first.isText = true ∧ second.isText = true)

/-- Whether the bounds of a slice are within 64 bits. -/
def Slice.Bounded (slice : Slice) : Prop :=
  ∀ bound, bound ∈ slice.start ∨ bound ∈ slice.stop →
    boundLimits.1 ≤ bound ∧ bound ≤ boundLimits.2

/-- Whether some parts can be told apart when they are printed. -/
structure Printable (parts : List TemplatePart) : Prop extends Merged parts where
  /-- Bounds are within 64 bits. -/
  bounded : ∀ slice, .value (some slice) ∈ parts → slice.Bounded
  /-- No text opens a bracket behind a place for the whole operand. -/
  closed : parts.IsChain fun first second => ¬(first = .value none ∧ second.opensBracket = true)

variable {parts : List TemplatePart} {part : TemplatePart} {slice : Slice} {rest seen : List Char}

theorem Merged.tail (merged : Merged (part :: parts)) : Merged parts where
  filled := fun member => merged.filled (List.mem_cons_of_mem part member)
  apart := (List.isChain_cons.mp merged.apart).2

theorem Printable.tail (printable : Printable (part :: parts)) : Printable parts where
  toMerged := printable.toMerged.tail
  bounded := fun slice member => printable.bounded slice (List.mem_cons_of_mem part member)
  closed := (List.isChain_cons.mp printable.closed).2

/-! ## Reading single parts -/

theorem bound?_boundText {bound : Option Int}
    (bounded : ∀ value ∈ bound, boundLimits.1 ≤ value ∧ value ≤ boundLimits.2) :
    bound? (boundText bound) = bound := by
  cases bound with
  | none => rfl
  | some value =>
      obtain ⟨least, greatest⟩ := bounded value rfl
      exact bound?_toString least greatest

theorem notMem_boundText {char : Char} (no_digit : char.isDigit = false) (no_sign : char ≠ '-')
    (bound : Option Int) : char ∉ boundText bound := by
  cases bound with
  | none => exact List.not_mem_nil
  | some value => exact notMem_toString_int no_digit no_sign value

/-- A slice is read back from its text. -/
theorem slice?_text (bounded : slice.Bounded) : slice? slice.text = some slice := by
  have no_colon := notMem_boundText (by decide : ':'.isDigit = false) (by decide) slice.start
  rw [slice?, Slice.text, splitOnce_append no_colon]
  dsimp only
  rw [bound?_boundText fun value member => bounded value (.inl member),
    bound?_boundText fun value member => bounded value (.inr member)]

theorem Slice.closed_text (slice : Slice) : ']' ∉ slice.text := by
  have no_bracket := notMem_boundText (by decide : ']'.isDigit = false) (by decide)
  simp [Slice.text, no_bracket]

/-- A text is collected as it stands. -/
theorem templateParts_text (kept : List Char) :
    templateParts (.text seen) (kept.flatMap templateChar ++ rest) =
      templateParts (.text (kept.reverse ++ seen)) rest := by
  induction kept generalizing seen with
  | nil => rfl
  | cons char kept induction =>
      have first : templateParts (.text seen)
          (templateChar char ++ (kept.flatMap templateChar ++ rest)) =
            templateParts (.text (char :: seen)) (kept.flatMap templateChar ++ rest) := by
        rw [templateChar]
        split_ifs with is_percent
        · rw [is_percent]
          rfl
        · rw [List.singleton_append, templateParts, if_neg is_percent]
      rw [List.flatMap_cons, List.append_assoc, first, induction, List.reverse_cons,
        List.append_assoc, List.singleton_append]

/-- A place for the whole operand ends before anything but a bracket. -/
theorem templateParts_value (unopened : rest.head? ≠ some '[') :
    templateParts .value rest = .value none :: templateParts (.text []) rest := by
  cases rest with
  | nil => rfl
  | cons char rest =>
      have no_bracket : char ≠ '[' := fun same => unopened (congrArg some same)
      simp only [templateParts, if_neg no_bracket]
      split_ifs <;> rfl

/-- A place ends the text before it and is read back. -/
theorem templateParts_place (place : part.isText = false)
    (bounded : ∀ slice, part = .value (some slice) → slice.Bounded)
    (unopened : part = .value none → rest.head? ≠ some '[') :
    templateParts (.text seen) (part.print ++ rest) =
      flushText seen (part :: templateParts (.text []) rest) := by
  cases part with
  | text kept => cases place
  | column => rfl
  | path => rfl
  | value slice =>
      have begins : ∀ after, templateParts (.text seen) ('%' :: 'v' :: after) =
          flushText seen (templateParts .value after) := fun _ => rfl
      cases slice with
      | none =>
          rw [TemplatePart.print, List.cons_append, List.singleton_append, begins,
            templateParts_value (unopened rfl)]
      | some slice =>
          have opened : ∀ after, templateParts .value ('[' :: after) =
              templateParts (.slice []) after := fun _ => rfl
          rw [TemplatePart.print, List.cons_append, List.cons_append, List.cons_append, begins,
            opened, List.append_assoc, List.singleton_append,
            templateParts_slice slice.closed_text, List.reverse_nil, List.nil_append,
            slice?_text (bounded slice rfl)]

/-! ## Reading printed templates -/

theorem flushText_reverse {kept : String} (filled : kept ≠ "") (parts : List TemplatePart) :
    flushText kept.toList.reverse parts = .text kept :: parts := by
  have not_empty : kept.toList.reverse.isEmpty = false := by simpa using filled
  rw [flushText, not_empty, List.reverse_reverse, String.ofList_toList]
  rfl

/-- What is printed begins with a bracket only if a text does. -/
theorem opensBracket_of_head?_print (begins : (parts.flatMap TemplatePart.print).head? = some '[')
    (merged : Merged parts) : ∃ part ∈ parts.head?, part.opensBracket = true := by
  cases parts with
  | nil => cases begins
  | cons part parts =>
      refine ⟨part, rfl, ?_⟩
      rw [List.flatMap_cons] at begins
      cases part with
      | column => cases begins
      | path => cases begins
      | value slice => cases slice <;> cases begins
      | text kept =>
          have filled : kept ≠ "" := fun empty => merged.filled (by simp [empty])
          obtain ⟨char, others, kept_eq⟩ :=
            List.exists_cons_of_ne_nil fun nothing => filled (String.toList_eq_nil_iff.mp nothing)
          rw [TemplatePart.print, kept_eq, List.flatMap_cons, templateChar] at begins
          rw [TemplatePart.opensBracket, kept_eq]
          split_ifs at begins with is_percent
          · cases begins
          · exact decide_eq_true begins

/-- Printed parts are read back behind a text that has been collected, if no text follows it. -/
theorem templateParts_print (printable : Printable parts)
    (apart : seen ≠ [] → ∀ part ∈ parts.head?, part.isText = false) :
    templateParts (.text seen) (parts.flatMap TemplatePart.print) = flushText seen parts := by
  induction parts generalizing seen with
  | nil => rfl
  | cons part parts induction =>
      have rest_printable := printable.tail
      rw [List.flatMap_cons]
      cases is_text : part.isText with
      | false =>
          rw [templateParts_place is_text]
          · rw [induction rest_printable fun filled => absurd rfl filled]
            rfl
          · rintro slice rfl
            exact printable.bounded slice List.mem_cons_self
          · rintro rfl begins
            obtain ⟨next, is_next, opens⟩ :=
              opensBracket_of_head?_print begins rest_printable.toMerged
            exact (List.isChain_cons.mp printable.closed).1 next is_next ⟨rfl, opens⟩
      | true =>
          have nothing_seen : seen = [] := by
            by_contra filled
            rw [apart filled part rfl] at is_text
            cases is_text
          cases part with
          | text kept =>
              have filled : kept ≠ "" := fun empty => printable.filled (by simp [empty])
              rw [nothing_seen, TemplatePart.print, templateParts_text, List.append_nil,
                induction rest_printable, flushText_reverse filled]
              · rfl
              · intro _ next is_next
                have not_both := (List.isChain_cons.mp printable.apart).1 next is_next
                simpa [TemplatePart.isText] using not_both
          | _ => cases is_text

/-! ## What is read -/

/-- Whether some parts do not begin with text. -/
def BeginsWithPlace (parts : List TemplatePart) : Prop :=
  ∀ part ∈ parts.head?, part.isText = false

theorem merged_nil : Merged [] where
  filled := List.not_mem_nil
  apart := .nil

theorem Merged.cons_place (merged : Merged parts) (place : part.isText = false) :
    Merged (part :: parts) where
  filled := by
    intro member
    rcases List.mem_cons.mp member with rfl | in_parts
    · cases place
    · exact merged.filled in_parts
  apart := List.isChain_cons.mpr ⟨fun _ _ both => by simp [place] at both, merged.apart⟩

/-- Collected text may stand in front of a place. -/
theorem Merged.flushText (merged : Merged parts) (begins : BeginsWithPlace parts)
    (seen : List Char) : Merged (flushText seen parts) := by
  rw [Filter.flushText]
  split_ifs with nothing_seen
  · exact merged
  · refine ⟨fun member => ?_, List.isChain_cons.mpr ⟨fun part is_head both => ?_, merged.apart⟩⟩
    · rcases List.mem_cons.mp member with empty | in_parts
      · rw [TemplatePart.text.injEq] at empty
        exact nothing_seen (by simpa using String.ofList_eq_empty_iff.mp empty.symm)
      · exact merged.filled in_parts
    · rw [begins part is_head] at both
      cases both.2

/-- Whether a place has been begun. -/
def TemplateState.inPlace : TemplateState → Bool
  | .text _ => false
  | .percent _ => false
  | .value => true
  | .slice _ => true

/-- Texts that are read are filled and do not meet, and a place that has been begun comes first. -/
theorem merged_templateParts (chars : List Char) (state : TemplateState) :
    Merged (templateParts state chars) ∧
      (state.inPlace = true → BeginsWithPlace (templateParts state chars)) := by
  have place_first : ∀ {part parts}, TemplatePart.isText part = false → Merged parts →
      Merged (part :: parts) ∧ BeginsWithPlace (part :: parts) := fun place merged =>
    ⟨merged.cons_place place, fun other is_head => Option.some.inj is_head ▸ place⟩
  have nothing_before : BeginsWithPlace [] := fun _ is_head => by cases is_head
  have no_place : ∀ {parts}, false = true → BeginsWithPlace parts :=
    fun place => absurd place Bool.false_ne_true
  induction chars generalizing state with
  | nil =>
      cases state with
      | text seen => exact ⟨merged_nil.flushText nothing_before seen, no_place⟩
      | percent seen => exact ⟨merged_nil.flushText nothing_before _, no_place⟩
      | value => exact (place_first rfl merged_nil).imp_right fun begins _ => begins
      | slice seen => exact (place_first rfl merged_nil).imp_right fun begins _ => begins
  | cons char rest induction =>
      have text_merged := fun seen => (induction (.text seen)).1
      have behind_text : ∀ {part} seen, TemplatePart.isText part = false →
          Merged (flushText seen (part :: templateParts (.text []) rest)) := fun seen place =>
        have placed := place_first place (text_merged [])
        placed.1.flushText placed.2 seen
      cases state with
      | text seen =>
          refine ⟨?_, no_place⟩
          rw [templateParts]
          split_ifs
          · exact (induction (.percent seen)).1
          · exact text_merged _
      | percent seen =>
          refine ⟨?_, no_place⟩
          rw [templateParts]
          split_ifs
          · exact text_merged _
          · exact behind_text seen rfl
          · exact behind_text seen rfl
          · obtain ⟨merged, begins⟩ := induction .value
            exact merged.flushText (begins rfl) seen
          · exact text_merged _
      | value =>
          rw [templateParts]
          split_ifs
          · exact ⟨(induction (.slice [])).1, fun _ => (induction (.slice [])).2 rfl⟩
          · exact (place_first rfl (induction (.percent [])).1).imp_right fun begins _ => begins
          · exact (place_first rfl (text_merged _)).imp_right fun begins _ => begins
      | slice seen =>
          rw [templateParts]
          split_ifs
          · exact (place_first rfl (text_merged _)).imp_right fun begins _ => begins
          · exact ⟨(induction (.slice _)).1, fun _ => (induction (.slice _)).2 rfl⟩

/-- Parts that can be told apart are read back from the template that is printed for them, and the
texts of any template are filled and do not meet. -/
theorem parseTemplate_printTemplate (printable : Printable parts) (template : String) :
    parseTemplate (printTemplate parts) = parts ∧ Merged (parseTemplate template) := by
  refine ⟨?_, (merged_templateParts template.toList (.text [])).1⟩
  rw [parseTemplate, printTemplate, String.toList_ofList,
    templateParts_print printable fun filled => absurd rfl filled]
  rfl

/-- A text may follow a slice with a bracket, and an index that is no number leaves one behind. -/
theorem parseTemplate_printTemplate_brackets :
    let parts := [.text "100% [", .value none, .path,
      .value (some ⟨some (-9223372036854775808), none⟩), .text "[%c]", .column]
    Printable parts ∧ printTemplate parts = "100%% [%v%j%v[-9223372036854775808:][%%c]%c" ∧
      parseTemplate "100%% [%v%j%v[-9223372036854775808:][%%c]%c" = parts ∧
      parseTemplate "%v[x][%" = [.value none, .text "[%"] ∧ Merged (parseTemplate "%v[x][%") := by
  intro parts
  have printable : Printable parts := by
    refine ⟨⟨by decide, by simp [parts, TemplatePart.isText]⟩, fun slice member => ?_,
      by simp [parts, TemplatePart.opensBracket]⟩
    obtain rfl : slice = ⟨some (-9223372036854775808), none⟩ := by simpa [parts] using member
    simp [Slice.Bounded, boundLimits]
  have printed : printTemplate parts = "100%% [%v%j%v[-9223372036854775808:][%%c]%c" := by decide
  obtain ⟨read, merged⟩ := parseTemplate_printTemplate printable "%v[x][%"
  exact ⟨printable, printed, printed ▸ read, by decide, merged⟩

end StationGateway.Filter
