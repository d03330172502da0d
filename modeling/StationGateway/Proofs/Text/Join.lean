import StationGateway.Proofs.Text.Split

/-!
# Joined texts

What a joined text is made of: its first text, the separator and the rest. The text of a number is
made of digits.
-/

namespace StationGateway.Text

theorem isDigit_of_mem_toString {number : Nat} {char : Char}
    (member : char ∈ (toString number).toList) : char.isDigit = true :=
  Nat.isDigit_of_mem_toDigits (b := 10) (by decide) (by decide) (by simpa using member)

theorem join_cons_of_ne_nil (separator text : String) {texts : List String} (rest : texts ≠ []) :
    join separator (text :: texts) = text ++ separator ++ join separator texts := by
  obtain ⟨next, others, rfl⟩ := List.exists_cons_of_ne_nil rest
  rfl

theorem join_append (separator : String) {first second : List String} (first_ne : first ≠ [])
    (second_ne : second ≠ []) :
    join separator (first ++ second) =
      join separator first ++ separator ++ join separator second := by
  induction first with
  | nil => exact absurd rfl first_ne
  | cons text rest induction =>
      cases rest with
      | nil => exact join_cons_of_ne_nil separator text second_ne
      | cons next rest =>
          have inner := induction (List.cons_ne_nil next rest)
          rw [List.cons_append, join_cons_of_ne_nil _ _ (by simp), inner,
            join_cons_of_ne_nil _ _ (List.cons_ne_nil next rest)]
          simp only [String.append_assoc]

/-- With one more separator at its start, a joined text has a separator before each of its texts. -/
theorem toList_join_of_ne_nil (separator : String) {texts : List String} (filled : texts ≠ []) :
    separator.toList ++ (join separator texts).toList =
      texts.flatMap fun text => separator.toList ++ text.toList := by
  induction texts with
  | nil => exact absurd rfl filled
  | cons text rest induction =>
      cases rest with
      | nil => simp [join]
      | cons next others =>
          have inner := induction (List.cons_ne_nil next others)
          rw [join_cons_of_ne_nil _ _ (List.cons_ne_nil next others), List.flatMap_cons, ← inner,
            String.toList_append, String.toList_append]
          simp only [List.append_assoc]

/-- Every character of a joined text is one of the separator or of one of the texts. -/
theorem mem_toList_join {separator : String} {texts : List String} {char : Char}
    (member : char ∈ (join separator texts).toList) :
    char ∈ separator.toList ∨ ∃ text ∈ texts, char ∈ text.toList := by
  induction texts with
  | nil => simp [join] at member
  | cons text texts induction =>
      cases texts with
      | nil => exact .inr ⟨text, List.mem_cons_self, member⟩
      | cons next rest =>
          rw [join, String.toList_append, String.toList_append, List.mem_append, List.mem_append]
            at member
          rcases member with (in_text | in_separator) | in_rest
          · exact .inr ⟨text, List.mem_cons_self, in_text⟩
          · exact .inl in_separator
          · rcases induction in_rest with in_separator | ⟨other, other_mem, found⟩
            · exact .inl in_separator
            · exact .inr ⟨other, List.mem_cons_of_mem text other_mem, found⟩

/-- Cutting at the separator undoes joining, if no text has the separator. -/
theorem splitOn_join {mark : String} {separator : Char} (is_mark : mark.toList = [separator])
    {texts : List String} (filled : texts ≠ [])
    (absent : ∀ text ∈ texts, separator ∉ text.toList) :
    splitOn separator (join mark texts).toList = texts.map String.toList := by
  induction texts with
  | nil => exact absurd rfl filled
  | cons text rest induction =>
      have text_absent := absent text List.mem_cons_self
      cases rest with
      | nil => rw [join, splitOn_eq_singleton text_absent, List.map_singleton]
      | cons next others =>
          have rest_pieces := induction (List.cons_ne_nil next others) fun other member =>
            absent other (List.mem_cons_of_mem text member)
          have text_eq : (join mark (text :: next :: others)).toList =
              text.toList ++ separator :: (join mark (next :: others)).toList := by
            rw [join, String.toList_append, String.toList_append, is_mark, List.append_assoc,
              List.singleton_append]
          rw [text_eq, splitOn_append text_absent, rest_pieces]
          rfl

theorem pieces_join {mark : String} {separator : Char} (is_mark : mark.toList = [separator])
    {texts : List String} (filled : texts ≠ [])
    (absent : ∀ text ∈ texts, separator ∉ text.toList) :
    pieces separator (join mark texts) = texts := by
  rw [pieces, splitOn_join is_mark filled absent, List.map_map]
  exact List.map_id'' (fun text => String.ofList_toList) texts

/-- What is joined from texts with characters has some, unless there are no texts. -/
theorem join_eq_empty_iff {separator : String} {texts : List String}
    (filled : ∀ text ∈ texts, text ≠ "") : join separator texts = "" ↔ texts = [] := by
  cases texts with
  | nil => simp [join]
  | cons text rest =>
      have text_filled := filled text List.mem_cons_self
      cases rest with
      | nil => simpa [join] using text_filled
      | cons next others => simp [join, text_filled]

/-- Joining joined texts with the same separator joins all of them. -/
theorem join_flatten (separator : String) {groups : List (List String)}
    (filled : ∀ group ∈ groups, group ≠ []) :
    join separator (groups.map (join separator)) = join separator groups.flatten := by
  induction groups with
  | nil => rfl
  | cons group rest induction =>
      have rest_eq := induction fun other member => filled other (List.mem_cons_of_mem group member)
      have group_filled := filled group List.mem_cons_self
      cases rest with
      | nil => rw [List.map_singleton, join, List.flatten_singleton]
      | cons next others =>
          have next_filled := filled next (List.mem_cons_of_mem group List.mem_cons_self)
          have rest_filled : (next :: others).flatten ≠ [] := fun nothing =>
            next_filled (List.flatten_eq_nil_iff.mp nothing next List.mem_cons_self)
          have parts := join_append separator group_filled rest_filled
          rw [List.map_cons, join_cons_of_ne_nil _ _ (by simp), rest_eq, ← parts]
          rfl

end StationGateway.Text
