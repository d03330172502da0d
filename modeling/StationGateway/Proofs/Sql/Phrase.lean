import Mathlib.Data.Bool.AllAny
import StationGateway.Proofs.Sql.Joining

/-!
# Phrases

Texts that no `and` or `or` joins. Some of them are solid, one word which is neither `and` nor `or`
whatever is written right before or after it. Several phrases with blanks between them are one
comparison.
-/

namespace StationGateway.Sql

open Text

/-! ## Solid texts -/

/-- Whether a piece can stand neither in the word `and` nor in the word `or`. -/
def Token.isForeign : Token → Bool
  | .plain char => !(['a', 'd', 'n', 'o', 'r'].contains char)
  | _ => true

/-- Whether pieces are one word that cannot become `and` or `or`. -/
def isSolid (tokens : List Token) : Bool :=
  tokens.all (fun token => !token.isBlank) && tokens.any Token.isForeign

/-- A text whose quotes and parentheses are closed and which is one word. -/
def Connected (text : List Char) : Prop :=
  ∃ tokens, Scans none text tokens none ∧ ∀ token ∈ tokens, token.isBlank = false

/-- A text whose quotes and parentheses are closed and which is one word that cannot become `and` or
`or`. -/
def Solid (text : List Char) : Prop :=
  ∃ tokens, Scans none text tokens none ∧ isSolid tokens = true

/-- A text whose quotes and parentheses are closed and which no `and` or `or` joins. -/
def Phrase (text : List Char) : Prop :=
  ∃ tokens, Scans none text tokens none ∧ isSingle tokens = true

private theorem isSolid_iff {tokens : List Token} :
    isSolid tokens = true ↔
      (∀ token ∈ tokens, token.isBlank = false) ∧ ∃ token ∈ tokens, token.isForeign = true := by
  simp [isSolid]

private theorem isWord_foreign (word : String) {tokens : List Token} {token : Token}
    (letters : ∀ char ∈ word.toList, char ∈ ['a', 'd', 'n', 'o', 'r'])
    (member : token ∈ tokens) (foreign : token.isForeign = true) : isWord word tokens = false := by
  rw [isWord, beq_eq_false_iff_ne]
  intro spells
  have found : token.plain? ∈ word.toList.map some := spells ▸ List.mem_map_of_mem member
  obtain ⟨char, char_mem, plain⟩ := List.mem_map.mp found
  obtain rfl : token = .plain char := by
    cases token <;> simp_all [Token.plain?]
  simp [Token.isForeign, letters char char_mem] at foreign

theorem Solid.connected {text : List Char} (solid : Solid text) : Connected text := by
  obtain ⟨tokens, scans, checked⟩ := solid
  exact ⟨tokens, scans, (isSolid_iff.mp checked).1⟩

theorem Solid.phrase {text : List Char} (solid : Solid text) : Phrase text := by
  obtain ⟨tokens, scans, checked⟩ := solid
  obtain ⟨unbroken, token, member, foreign⟩ := isSolid_iff.mp checked
  refine ⟨tokens, scans, ?_⟩
  rw [isSingle, words_eq_singleton unbroken]
  simp [isWord_foreign "and" (List.all_iff_forall_prop.mp (by decide)) member foreign,
    isWord_foreign "or" (List.all_iff_forall_prop.mp (by decide)) member foreign]

theorem Connected.append {text more : List Char} (first : Connected text)
    (second : Connected more) : Connected (text ++ more) := by
  obtain ⟨tokens, scans, unbroken⟩ := first
  obtain ⟨others, scans_more, unbroken_more⟩ := second
  exact ⟨tokens ++ others, scans.append scans_more,
    List.forall_mem_append.mpr ⟨unbroken, unbroken_more⟩⟩

theorem Solid.append {text more : List Char} (first : Solid text) (second : Connected more) :
    Solid (text ++ more) := by
  obtain ⟨tokens, scans, checked⟩ := first
  obtain ⟨others, scans_more, unbroken_more⟩ := second
  obtain ⟨unbroken, token, member, foreign⟩ := isSolid_iff.mp checked
  refine ⟨tokens ++ others, scans.append scans_more, isSolid_iff.mpr ⟨?_, ?_⟩⟩
  · exact List.forall_mem_append.mpr ⟨unbroken, unbroken_more⟩
  · exact ⟨token, List.mem_append_left others member, foreign⟩

theorem Solid.append_left {text more : List Char} (first : Connected text) (second : Solid more) :
    Solid (text ++ more) := by
  obtain ⟨tokens, scans, unbroken⟩ := first
  obtain ⟨others, scans_more, checked⟩ := second
  obtain ⟨unbroken_more, token, member, foreign⟩ := isSolid_iff.mp checked
  refine ⟨tokens ++ others, scans.append scans_more, isSolid_iff.mpr ⟨?_, ?_⟩⟩
  · exact List.forall_mem_append.mpr ⟨unbroken, unbroken_more⟩
  · exact ⟨token, List.mem_append_right tokens member, foreign⟩

/-- What stands in parentheses is solid, whatever it is. -/
theorem Solid.group {text : List Char} {tokens : List Token} (scans : Scans none text tokens none) :
    Solid ('(' :: text ++ [')']) :=
  ⟨_, scans.group, rfl⟩

/-- What stands in quotes is solid, whatever it is. -/
theorem Solid.quotation {text : List Char} (absent : '\'' ∉ text) :
    Solid ('\'' :: text ++ ['\'']) := by
  have opened : Scans none ['\''] [.quoted '\''] (some '\'') := fun _ _ => rfl
  have closed : Scans (some '\'') ['\''] [.quoted '\''] none := fun _ _ => rfl
  refine ⟨_, (opened.append (.quoted absent)).append closed, isSolid_iff.mpr ⟨?_, ?_⟩⟩
  · intro token member
    simp only [List.mem_append, List.mem_singleton, List.mem_map] at member
    rcases member with (rfl | ⟨char, _, rfl⟩) | rfl <;> rfl
  · exact ⟨.quoted '\'', by simp, rfl⟩

/-- Characters other than quotes, parentheses and blanks are connected. -/
theorem Connected.plain {text : List Char}
    (tame : ∀ char ∈ text, char ∉ ['\'', '"', '(', ')', ' ']) : Connected text := by
  refine ⟨text.map .plain, .plain fun char member => ?_, fun token member => ?_⟩
  · have tame_char := tame char member
    simp only [List.mem_cons, not_or] at tame_char ⊢
    exact ⟨tame_char.1, tame_char.2.1, tame_char.2.2.1, tame_char.2.2.2.1, List.not_mem_nil⟩
  · obtain ⟨char, char_mem, rfl⟩ := List.mem_map.mp member
    have tame_char := tame char char_mem
    simp only [List.mem_cons, not_or] at tame_char
    simp [Token.isBlank, tame_char.2.2.2.2.1]

/-! ## Phrases -/

/-- Whether words are nothing but a pair of parentheses. -/
def isGroup : List (List Token) → Bool
  | [[.group _ _]] => true
  | _ => false

/-- What no `and` or `or` joins and is not in parentheses is a comparison. -/
theorem ofTokens_eq_atom {tokens : List Token} (single : isSingle tokens = true)
    (open_words : isGroup (words tokens) = false) :
    Formula.ofTokens tokens = .atom (String.ofList (spelled tokens)) := by
  rw [ofTokens_of_isSingle single, ← join_words]
  generalize words tokens = found at open_words
  rw [comparison.eq_def]
  split
  · cases open_words
  · rfl

/-- Two phrases with a blank between them are a comparison. -/
theorem Phrase.readsSingle_blank {text more : List Char} (first : Phrase text)
    (second : Phrase more) :
    ReadsSingle (String.ofList (text ++ ' ' :: more))
      (.atom (String.ofList (text ++ ' ' :: more))) := by
  obtain ⟨tokens, scans, single⟩ := first
  obtain ⟨others, scans_more, single_more⟩ := second
  have blank : Scans none [' '] [.plain ' '] none := fun _ _ => rfl
  have whole := scans.append (blank.append scans_more)
  have all_words := words_append_blank tokens others
  have single_all : isSingle (tokens ++ .plain ' ' :: others) = true := by
    rw [isSingle, all_words, List.all_append, Bool.and_eq_true]
    exact ⟨single, single_more⟩
  -- There are at least two words, so the whole is no group.
  obtain ⟨word, rest, split⟩ := List.exists_cons_of_ne_nil
    (List.splitOnP_ne_nil Token.isBlank tokens)
  obtain ⟨next, others_rest, split_more⟩ := List.exists_cons_of_ne_nil
    (List.splitOnP_ne_nil Token.isBlank others)
  have open_words : isGroup (words (tokens ++ .plain ' ' :: others)) = false := by
    rw [all_words, words, words, split, split_more]
    cases rest <;> simp [isGroup]
  have text_eq := whole.spelled_eq
  simp only [List.singleton_append] at text_eq
  refine ⟨tokens ++ .plain ' ' :: others, by simpa using whole, single_all, ?_⟩
  rw [ofTokens_eq_atom single_all open_words, text_eq]

theorem Phrase.blank {text more : List Char} (first : Phrase text) (second : Phrase more) :
    Phrase (text ++ ' ' :: more) := by
  obtain ⟨tokens, scans, single, _⟩ := first.readsSingle_blank second
  exact ⟨tokens, by simpa using scans, single⟩

/-! ## Given texts -/

/-- The pieces of a given text have a property. -/
def checked (property : List Token → Bool) (text : String) : Bool :=
  (tokens? text).any property

theorem scans_of_checked {property : List Token → Bool} {text : String}
    (fine : checked property text = true) :
    ∃ tokens, Scans none text.toList tokens none ∧ property tokens = true := by
  obtain ⟨tokens, found, holds⟩ := (Option.any_eq_true _ _).mp fine
  exact ⟨tokens, scans_of_tokens found, holds⟩

theorem solid_of_checked {text : String} (fine : checked isSolid text = true) :
    Solid text.toList :=
  scans_of_checked fine

theorem phrase_of_checked {text : String} (fine : checked isSingle text = true) :
    Phrase text.toList :=
  scans_of_checked fine

theorem exists_readsSingle_of_checked {text : String} (fine : checked isSingle text = true) :
    ∃ formula, ReadsSingle text formula := by
  obtain ⟨tokens, scans, single⟩ := scans_of_checked fine
  exact ⟨_, tokens, scans, single, rfl⟩

end StationGateway.Sql
