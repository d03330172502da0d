import Mathlib.Data.Bool.AllAny
import Mathlib.Data.List.Forall2
import StationGateway.Proofs.Sql.Reader
import StationGateway.Proofs.Text.Join

/-!
# Reading joined texts

A text whose quotes and parentheses are closed has the same pieces wherever it stands, so a longer
text can be read part by part. A part has neither `and` nor `or` outside parentheses. Parts that one
of these words joins are read as the conjunction or the disjunction of what each of them says, and
parentheses make a part of every text. -/

namespace StationGateway.Sql

open Text

/-! ## Pieces -/

namespace Reader

/-- The text that has been read. -/
def seen (reader : Reader) : List Char :=
  (reader.outer.reverse.flatMap fun level => spelled level.reverse ++ ['(']) ++
    spelled reader.level.reverse

/-- Reading loses no character. -/
theorem seen_step {reader next : Reader} {char : Char} (stepped : reader.step char = some next) :
    next.seen = reader.seen ++ [char] := by
  obtain ⟨quote, level, outer⟩ := reader
  cases quote with
  | some mark =>
      simp only [step, Option.some.injEq] at stepped
      subst stepped
      simp [seen, spelled, Token.text]
  | none =>
      simp only [step] at stepped
      split_ifs at stepped with is_quote is_open is_close
      · simp only [Option.some.injEq] at stepped
        subst stepped
        simp [seen, spelled, Token.text]
      · simp only [Option.some.injEq] at stepped
        subst stepped
        simp [seen, spelled, is_open]
      · cases outer with
        | nil => simp at stepped
        | cons around outer =>
            simp only [Option.some.injEq] at stepped
            subst stepped
            simp [seen, spelled, Token.text, is_close]
      · simp only [Option.some.injEq] at stepped
        subst stepped
        simp [seen, spelled, Token.text]

theorem seen_run {reader final : Reader} {text : List Char} (ran : reader.run text = some final) :
    final.seen = reader.seen ++ text := by
  induction text generalizing reader with
  | nil =>
      simp only [run, Option.some.injEq] at ran
      simp [ran]
  | cons char text induction =>
      obtain ⟨next, stepped, ran_rest⟩ := Option.bind_eq_some_iff.mp ran
      rw [induction ran_rest, seen_step stepped, List.append_assoc, List.singleton_append]

end Reader

/-- Wherever it stands, a text has the given pieces and takes the open quote from one to another. -/
def Scans (before : Option Char) (text : List Char) (tokens : List Token) (after : Option Char) :
    Prop :=
  ∀ level outer,
    Reader.run ⟨before, level, outer⟩ text = some ⟨after, tokens.reverse ++ level, outer⟩

namespace Scans

theorem nil (quote : Option Char) : Scans quote [] [] quote :=
  fun _ _ => rfl

theorem append {before middle after : Option Char} {text more : List Char}
    {tokens others : List Token} (first : Scans before text tokens middle)
    (second : Scans middle more others after) :
    Scans before (text ++ more) (tokens ++ others) after := by
  intro level outer
  rw [Reader.run_append, first level outer, Option.bind_some, second, List.reverse_append,
    List.append_assoc]

/-- The pieces of a text spell it. -/
theorem spelled_eq {before after : Option Char} {text : List Char} {tokens : List Token}
    (scans : Scans before text tokens after) : spelled tokens = text := by
  have seen := Reader.seen_run (scans [] [])
  simpa [Reader.seen, spelled] using seen

/-- Characters other than quotes and parentheses are pieces of their own. -/
theorem plain {text : List Char} (tame : ∀ char ∈ text, char ∉ ['\'', '"', '(', ')']) :
    Scans none text (text.map .plain) none := by
  induction text with
  | nil => exact nil none
  | cons char text induction =>
      have tame_char := tame char List.mem_cons_self
      have rest := induction fun other member => tame other (List.mem_cons_of_mem char member)
      simp only [List.mem_cons, List.not_mem_nil, or_false, not_or] at tame_char
      intro level outer
      have stepped : Reader.step ⟨none, level, outer⟩ char =
          some ⟨none, .plain char :: level, outer⟩ := by
        simp [Reader.step, tame_char]
      simp [Reader.run, stepped, rest (.plain char :: level) outer]

/-- Between quotes every other character is a piece of its own. -/
theorem quoted {mark : Char} {text : List Char} (absent : mark ∉ text) :
    Scans (some mark) text (text.map .quoted) (some mark) := by
  induction text with
  | nil => exact nil (some mark)
  | cons char text induction =>
      simp only [List.mem_cons, not_or] at absent
      intro level outer
      have stepped : Reader.step ⟨some mark, level, outer⟩ char =
          some ⟨some mark, .quoted char :: level, outer⟩ := by
        simp [Reader.step, Ne.symm absent.1]
      simp [Reader.run, stepped, induction absent.2 (.quoted char :: level) outer]

/-- What stands in parentheses is one piece. -/
theorem group {text : List Char} {tokens : List Token} (scans : Scans none text tokens none) :
    Scans none ('(' :: text ++ [')']) [.group text (.ofTokens tokens)] none := by
  intro level outer
  have opened : Reader.step ⟨none, level, outer⟩ '(' = some ⟨none, [], level :: outer⟩ := by
    simp [Reader.step]
  have closed : Reader.step ⟨none, tokens.reverse, level :: outer⟩ ')' =
      some ⟨none, .group text (.ofTokens tokens) :: level, outer⟩ := by
    simp [Reader.step, scans.spelled_eq]
  simp [Reader.run, Reader.run_append, opened, scans [] (level :: outer), closed]

end Scans

/-- A text that can be read has its pieces wherever it stands. -/
theorem scans_of_tokens {text : String} {tokens : List Token} (found : tokens? text = some tokens) :
    Scans none text.toList tokens none := by
  obtain ⟨final, ran, finished⟩ := Option.bind_eq_some_iff.mp found
  obtain ⟨_ | mark, level, _ | ⟨around, outer⟩⟩ := final
  · simp only [Reader.finished?, Option.some.injEq] at finished
    subst finished
    intro level' outer'
    have within := Reader.run_within level' outer' ran
    simpa [Reader.within, Reader.start] using within
  all_goals simp [Reader.finished?] at finished

theorem tokens_of_scans {text : String} {tokens : List Token}
    (scans : Scans none text.toList tokens none) : tokens? text = some tokens := by
  simp [tokens?, Reader.start, scans [] [], Reader.finished?]

/-! ## Words -/

/-- Whether no word outside quotes and parentheses joins parts. -/
def isSingle (tokens : List Token) : Bool :=
  (words tokens).all fun word => !isWord "and" word && !isWord "or" word

theorem not_isWord_of_isSingle {tokens word : List Token} (single : isSingle tokens = true)
    (member : word ∈ words tokens) : isWord "and" word = false ∧ isWord "or" word = false := by
  have checked := List.all_eq_true.mp single word member
  simpa using checked

theorem words_append_blank (tokens others : List Token) :
    words (tokens ++ .plain ' ' :: others) = words tokens ++ words others :=
  List.splitOnP_append_cons tokens others rfl

theorem words_eq_singleton {tokens : List Token} (solid : ∀ token ∈ tokens, token.isBlank = false) :
    words tokens = [tokens] :=
  List.splitOnP_eq_singleton solid

/-- The words between blanks, with the blanks put back, spell the whole. -/
theorem join_words (tokens : List Token) :
    join " " ((words tokens).map fun word => String.ofList (spelled word)) =
      String.ofList (spelled tokens) := by
  induction tokens with
  | nil => rfl
  | cons token tokens induction =>
      obtain ⟨word, more, split⟩ := List.exists_cons_of_ne_nil
        (List.splitOnP_ne_nil Token.isBlank tokens)
      rw [words, List.splitOnP_cons_eq_if_modifyHead]
      split_ifs with blank
      · obtain rfl : token = .plain ' ' := by
          cases token <;> simp_all [Token.isBlank]
        rw [List.map_cons, join_cons_of_ne_nil _ _ (by simp [List.splitOnP_ne_nil])]
        change _ ++ join " " ((words tokens).map _) = _
        rw [induction]
        apply String.toList_injective
        simp [spelled, Token.text]
      · rw [words, split] at induction
        rw [split, List.modifyHead_cons]
        apply String.toList_injective
        have spelled_rest := congrArg String.toList induction
        cases more with
        | nil => simpa [join, spelled] using congrArg (token.text ++ ·) spelled_rest
        | cons next more =>
            simpa [join, spelled] using congrArg (token.text ++ ·) spelled_rest

/-! ## Chains -/

/-- A word as pieces. -/
def wordTokens (word : String) : List Token :=
  word.toList.map .plain

/-- Pieces in order with a word between neighbours. -/
def chain (word : String) : List (List Token) → List Token
  | [] => []
  | [part] => part
  | part :: next :: rest =>
      part ++ .plain ' ' :: (wordTokens word ++ .plain ' ' :: chain word (next :: rest))

theorem words_wordTokens {word : String} (solid : ' ' ∉ word.toList) :
    words (wordTokens word) = [wordTokens word] := by
  apply words_eq_singleton
  intro token member
  obtain ⟨char, char_mem, rfl⟩ := List.mem_map.mp member
  have char_ne : char ≠ ' ' := fun equal => solid (equal ▸ char_mem)
  simp [Token.isBlank, char_ne]

theorem mem_words_chain {word : String} (solid : ' ' ∉ word.toList) {parts : List (List Token)}
    (parts_ne : parts ≠ []) {found : List Token} (member : found ∈ words (chain word parts)) :
    found = wordTokens word ∨ ∃ part ∈ parts, found ∈ words part := by
  induction parts with
  | nil => exact absurd rfl parts_ne
  | cons part rest induction =>
      cases rest with
      | nil => exact .inr ⟨part, List.mem_cons_self, member⟩
      | cons next rest =>
          simp only [chain, words_append_blank, words_wordTokens solid, List.mem_append,
            List.mem_singleton] at member
          rcases member with in_part | is_word | in_rest
          · exact .inr ⟨part, List.mem_cons_self, in_part⟩
          · exact .inl is_word
          · rcases induction (by simp) in_rest with is_word | ⟨other, other_mem, found_mem⟩
            · exact .inl is_word
            · exact .inr ⟨other, List.mem_cons_of_mem part other_mem, found_mem⟩

/-- Cutting a chain at the words that join it gives its parts. -/
theorem splitOnP_words_chain (word : String) (solid : ' ' ∉ word.toList)
    {isJoin : List Token → Bool} (joins : isJoin (wordTokens word) = true)
    {parts : List (List Token)} (parts_ne : parts ≠ [])
    (apart : ∀ part ∈ parts, ∀ found ∈ words part, isJoin found = false) :
    (words (chain word parts)).splitOnP isJoin = parts.map words := by
  induction parts with
  | nil => exact absurd rfl parts_ne
  | cons part rest induction =>
      have part_apart := apart part List.mem_cons_self
      cases rest with
      | nil => exact List.splitOnP_eq_singleton part_apart
      | cons next rest =>
          have rest_apart := induction (by simp) fun other member =>
            apart other (List.mem_cons_of_mem part member)
          rw [chain, words_append_blank, words_append_blank, words_wordTokens solid,
            List.singleton_append, List.splitOnP_append_cons_of_forall_mem part_apart _ joins,
            rest_apart]
          rfl

theorem comparison_of_isSingle {tokens : List Token} (single : isSingle tokens = true) :
    conjunction (words tokens) = comparison (words tokens) := by
  have apart : ∀ word ∈ words tokens, isWord "and" word = false :=
    fun word member => (not_isWord_of_isSingle single member).1
  rw [conjunction, List.splitOnP_eq_singleton apart]
  rfl

/-- A part says what its words say as a comparison or a group. -/
theorem ofTokens_of_isSingle {tokens : List Token} (single : isSingle tokens = true) :
    Formula.ofTokens tokens = comparison (words tokens) := by
  have apart : ∀ word ∈ words tokens, isWord "or" word = false :=
    fun word member => (not_isWord_of_isSingle single member).2
  rw [Formula.ofTokens, disjunction, List.splitOnP_eq_singleton apart,
    ← comparison_of_isSingle single]
  rfl

theorem ofTokens_chain_and {parts : List (List Token)} (parts_ne : parts ≠ [])
    (single : ∀ part ∈ parts, isSingle part = true) :
    Formula.ofTokens (chain "and" parts) = .joined .all (parts.map .ofTokens) := by
  have no_or : ∀ found ∈ words (chain "and" parts), isWord "or" found = false := by
    intro found member
    rcases mem_words_chain (by decide) parts_ne member with rfl | ⟨part, part_mem, found_mem⟩
    · decide
    · exact (not_isWord_of_isSingle (single part part_mem) found_mem).2
  have cut := splitOnP_words_chain "and" (by decide) (by decide)
    parts_ne fun part part_mem found found_mem =>
      (not_isWord_of_isSingle (single part part_mem) found_mem).1
  rw [Formula.ofTokens, disjunction, List.splitOnP_eq_singleton no_or]
  change conjunction (words (chain "and" parts)) = _
  rw [conjunction, cut, List.map_map]
  congr 1
  exact List.map_congr_left fun part part_mem => (ofTokens_of_isSingle (single part part_mem)).symm

theorem ofTokens_chain_or {parts : List (List Token)} (parts_ne : parts ≠ [])
    (single : ∀ part ∈ parts, isSingle part = true) :
    Formula.ofTokens (chain "or" parts) = .joined .any (parts.map .ofTokens) := by
  have cut := splitOnP_words_chain "or" (by decide) (by decide)
    parts_ne fun part part_mem found found_mem =>
      (not_isWord_of_isSingle (single part part_mem) found_mem).2
  rw [Formula.ofTokens, disjunction, cut, List.map_map]
  congr 1
  apply List.map_congr_left
  intro part part_mem
  exact (comparison_of_isSingle (single part part_mem)).trans
    (ofTokens_of_isSingle (single part part_mem)).symm

theorem scans_chain (word : String) (tame : ∀ char ∈ word.toList, char ∉ ['\'', '"', '(', ')'])
    {texts : List String} {parts : List (List Token)}
    (scans : List.Forall₂ (fun text tokens => Scans none text.toList tokens none) texts parts) :
    Scans none (join (" " ++ word ++ " ") texts).toList (chain word parts) none := by
  induction scans with
  | nil => exact .nil none
  | @cons text tokens texts parts scans_text scans_rest induction =>
      cases scans_rest with
      | nil => exact scans_text
      | @cons next others texts parts scans_next scans_rest =>
          have blank : Scans none [' '] [.plain ' '] none :=
            .plain (List.all_iff_forall_prop.mp (by decide))
          have separator := (blank.append (.plain tame)).append blank
          have whole := (scans_text.append separator).append induction
          simpa [join, chain, wordTokens, List.append_assoc] using whole

/-! ## Texts -/

/-- The text of a condition says what a formula says. -/
def Reads (text : String) (formula : Formula String) : Prop :=
  ∃ tokens, Scans none text.toList tokens none ∧ Formula.ofTokens tokens = formula

/-- A text outside whose parentheses there is neither `and` nor `or`, and what it says. -/
def ReadsSingle (text : String) (formula : Formula String) : Prop :=
  ∃ tokens, Scans none text.toList tokens none ∧ isSingle tokens = true ∧
    Formula.ofTokens tokens = formula

theorem Reads.read_eq {text : String} {formula : Formula String} (reads : Reads text formula) :
    read text = some formula := by
  obtain ⟨tokens, scans, rfl⟩ := reads
  rw [read, tokens_of_scans scans, Option.map_some]

theorem ReadsSingle.reads {text : String} {formula : Formula String}
    (reads : ReadsSingle text formula) : Reads text formula := by
  obtain ⟨tokens, scans, _, meaning⟩ := reads
  exact ⟨tokens, scans, meaning⟩

theorem Reads.group {text : String} {formula : Formula String} (reads : Reads text formula) :
    ReadsSingle ("(" ++ text ++ ")") (.group formula) := by
  obtain ⟨tokens, scans, rfl⟩ := reads
  refine ⟨[.group text.toList (.ofTokens tokens)], ?_, ?_, rfl⟩
  · simpa using scans.group
  · rfl

private theorem exists_tokens {texts : List String} {formulas : List (Formula String)}
    (reads : List.Forall₂ ReadsSingle texts formulas) :
    ∃ parts : List (List Token),
      List.Forall₂ (fun text tokens => Scans none text.toList tokens none) texts parts ∧
        (∀ part ∈ parts, isSingle part = true) ∧ parts.map .ofTokens = formulas := by
  induction reads with
  | nil => exact ⟨[], .nil, by simp, rfl⟩
  | cons reads_text _ induction =>
      obtain ⟨tokens, scans, single, meaning⟩ := reads_text
      obtain ⟨parts, scans_rest, single_rest, meaning_rest⟩ := induction
      refine ⟨tokens :: parts, .cons scans scans_rest, ?_, by
        rw [List.map_cons, meaning, meaning_rest]⟩
      intro part member
      rcases List.mem_cons.mp member with rfl | member_rest
      · exact single
      · exact single_rest part member_rest

/-- Parts that `and` joins are read as the conjunction of what they say. -/
theorem reads_and {texts : List String} {formulas : List (Formula String)}
    (reads : List.Forall₂ ReadsSingle texts formulas) (texts_ne : texts ≠ []) :
    Reads (join " and " texts) (.joined .all formulas) := by
  obtain ⟨parts, scans, single, rfl⟩ := exists_tokens reads
  have parts_ne : parts ≠ [] := by
    rintro rfl
    cases scans
    exact texts_ne rfl
  exact ⟨chain "and" parts, scans_chain "and" (List.all_iff_forall_prop.mp (by decide)) scans,
    ofTokens_chain_and parts_ne single⟩

/-- Parts that `or` joins are read as the disjunction of what they say. -/
theorem reads_or {texts : List String} {formulas : List (Formula String)}
    (reads : List.Forall₂ ReadsSingle texts formulas) (texts_ne : texts ≠ []) :
    Reads (join " or " texts) (.joined .any formulas) := by
  obtain ⟨parts, scans, single, rfl⟩ := exists_tokens reads
  have parts_ne : parts ≠ [] := by
    rintro rfl
    cases scans
    exact texts_ne rfl
  exact ⟨chain "or" parts, scans_chain "or" (List.all_iff_forall_prop.mp (by decide)) scans,
    ofTokens_chain_or parts_ne single⟩

end StationGateway.Sql
