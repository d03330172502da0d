import Mathlib.Data.List.TakeWhile
import Mathlib.Data.String.Basic
import Mathlib.Tactic.SplitIfs
import StationGateway.Text.Split

/-!
# Cut texts

A text is cut at every separator, so that its pieces have none, and at the first or the last one. A
text that begins with another one is that text and a rest.
-/

namespace StationGateway.Text

theorem splitOn_ne_nil (separator : Char) (text : List Char) : splitOn separator text ≠ [] := by
  cases text with
  | nil => exact List.cons_ne_nil _ _
  | cons char rest =>
      rw [splitOn]
      split_ifs
      · exact List.cons_ne_nil _ _
      · split
        · exact List.cons_ne_nil _ _
        · exact List.cons_ne_nil _ _

/-- A character before the first separator joins the first piece. -/
theorem splitOn_cons_of_ne {separator char : Char} (ne : char ≠ separator) (rest : List Char) :
    ∃ piece pieces, splitOn separator rest = piece :: pieces ∧
      splitOn separator (char :: rest) = (char :: piece) :: pieces := by
  obtain ⟨piece, pieces, rest_eq⟩ := List.exists_cons_of_ne_nil (splitOn_ne_nil separator rest)
  refine ⟨piece, pieces, rest_eq, ?_⟩
  rw [splitOn, if_neg ne, rest_eq]

/-- The characters of a text are those of its pieces and the separator. -/
theorem mem_splitOn_iff {separator char : Char} {text : List Char} :
    (∃ piece ∈ splitOn separator text, char ∈ piece) ↔ char ∈ text ∧ char ≠ separator := by
  induction text with
  | nil => simp [splitOn]
  | cons first rest induction =>
      by_cases same : first = separator
      · subst same
        rw [splitOn, if_pos rfl, List.exists_mem_cons_iff, induction, List.mem_cons]
        constructor
        · rintro (nothing | ⟨member, ne⟩)
          · cases nothing
          · exact ⟨.inr member, ne⟩
        · rintro ⟨is_first | member, ne⟩
          · exact absurd is_first ne
          · exact .inr ⟨member, ne⟩
      · obtain ⟨piece, pieces, rest_eq, whole_eq⟩ := splitOn_cons_of_ne same rest
        rw [rest_eq, List.exists_mem_cons_iff] at induction
        rw [whole_eq, List.exists_mem_cons_iff, List.mem_cons, List.mem_cons, or_assoc, induction]
        constructor
        · rintro (rfl | ⟨member, ne⟩)
          · exact ⟨.inl rfl, same⟩
          · exact ⟨.inr member, ne⟩
        · rintro ⟨is_first | member, ne⟩
          · exact .inl is_first
          · exact .inr ⟨member, ne⟩

/-- A text without the separator is its only piece. -/
theorem splitOn_eq_singleton {separator : Char} {text : List Char} (absent : separator ∉ text) :
    splitOn separator text = [text] := by
  induction text with
  | nil => rfl
  | cons char rest induction =>
      rw [List.mem_cons, not_or] at absent
      rw [splitOn, if_neg (Ne.symm absent.1), induction absent.2]

/-- The separator is in no piece. -/
theorem notMem_of_mem_splitOn {separator : Char} {text piece : List Char}
    (member : piece ∈ splitOn separator text) : separator ∉ piece := fun in_piece =>
  (mem_splitOn_iff.mp ⟨piece, member, in_piece⟩).2 rfl

theorem splitOnce_append {separator : Char} {before : List Char} (absent : separator ∉ before)
    (after : List Char) :
    splitOnce separator (before ++ separator :: after) = some (before, after) := by
  have others : ∀ char ∈ before, decide (char ≠ separator) = true := fun char member =>
    decide_eq_true fun same => absent (same ▸ member)
  have rest_eq : (before ++ separator :: after).dropWhile (· ≠ separator) = separator :: after := by
    rw [List.dropWhile_append_of_pos others, List.dropWhile_cons_of_neg (by simp)]
  have start_eq : (before ++ separator :: after).takeWhile (· ≠ separator) = before := by
    rw [List.takeWhile_append_of_pos others, List.takeWhile_cons_of_neg (by simp), List.append_nil]
  simp only [splitOnce, rest_eq, start_eq]

/-- What stands before and after the first separator. -/
theorem eq_append_of_splitOnce {separator : Char} {text before after : List Char}
    (split : splitOnce separator text = some (before, after)) :
    text = before ++ separator :: after := by
  rw [splitOnce] at split
  split at split
  · cases split
  next found rest rest_eq =>
    obtain ⟨rfl, rfl⟩ := Prod.mk.inj (Option.some.inj split)
    have is_separator : found = separator := by
      have head_eq : (text.dropWhile (· ≠ separator)).head? = some found := by rw [rest_eq]; rfl
      have fails := List.head?_dropWhile_not (fun char => decide (char ≠ separator)) text
      rw [head_eq] at fails
      simpa using fails
    rw [← is_separator, ← rest_eq, is_separator, List.takeWhile_append_dropWhile]

/-- There is no separator before the first one. -/
theorem notMem_of_splitOnce {separator : Char} {text before after : List Char}
    (split : splitOnce separator text = some (before, after)) : separator ∉ before := by
  rw [splitOnce] at split
  split at split
  · cases split
  · obtain ⟨rfl, -⟩ := Prod.mk.inj (Option.some.inj split)
    intro member
    simpa using List.mem_takeWhile_imp member

theorem splitOnce_eq_none_iff {separator : Char} {text : List Char} :
    splitOnce separator text = none ↔ separator ∉ text := by
  have nothing_iff : text.dropWhile (· ≠ separator) = [] ↔ separator ∉ text := by
    rw [List.dropWhile_eq_nil_iff]
    exact ⟨fun others member => of_decide_eq_true (others separator member) rfl,
      fun absent char member => decide_eq_true fun same => absent (same ▸ member)⟩
  rw [← nothing_iff, splitOnce]
  split
  next nothing => exact iff_of_true rfl nothing
  next filled => exact iff_of_false nofun (filled ▸ List.cons_ne_nil _ _)

theorem splitOn_append {separator : Char} {before : List Char} (absent : separator ∉ before)
    (after : List Char) :
    splitOn separator (before ++ separator :: after) = before :: splitOn separator after := by
  induction before with
  | nil => simp [splitOn]
  | cons char rest induction =>
      rw [List.mem_cons, not_or] at absent
      rw [List.cons_append, splitOn, if_neg (Ne.symm absent.1), induction absent.2]

/-- Every text is a piece, or a piece before the separator and such a text. -/
theorem pieceInduction (separator : Char) {motive : List Char → Prop}
    (last : ∀ piece, separator ∉ piece → motive piece)
    (more : ∀ piece rest, separator ∉ piece → motive rest → motive (piece ++ separator :: rest))
    (text : List Char) : motive text := by
  by_cases member : separator ∈ text
  · obtain ⟨piece, rest, text_eq, absent⟩ := List.eq_append_cons_of_mem member
    rw [text_eq]
    exact more piece rest absent (pieceInduction separator last more rest)
  · exact last text member
termination_by text.length
decreasing_by
  rw [text_eq, List.length_append, List.length_cons]
  omega

theorem stripStart?_eq_some_iff {start text rest : List Char} :
    stripStart? start text = some rest ↔ text = start ++ rest := by
  induction start generalizing text with
  | nil => simp [stripStart?, eq_comm]
  | cons expected start induction =>
      cases text with
      | nil => simp [stripStart?]
      | cons char text =>
          rw [stripStart?]
          split_ifs with same
          · simp [same, induction]
          · simp [Ne.symm same]

end StationGateway.Text
