import Mathlib.Data.List.Basic
import Mathlib.Tactic.SplitIfs
import StationGateway.Proofs.Sql.Skeleton
import StationGateway.Statement.Binding

/-!
# How statements are cut into tokens

A text is cut from left to right: a quote opens a literal, two colons are a cast, a colon before a
name is a reference to the longest name there, and every other character stands for itself. There is
one way to do so. Cutting a text whose references have been written out as plain characters finds the
same tokens, with those characters in the place of the references. -/

namespace StationGateway.Statement

open Sql

/-- The characters of a token. -/
def Token.chars : Token → List Char
  | .literal text => text
  | .cast => [':', ':']
  | .reference name => ':' :: name
  | .char sign => [sign]

/-- Whether a character in front of a text is neither a quote nor the colon of a cast or of a
reference. -/
def IsAlone (char : Char) (rest : List Char) : Prop :=
  char ≠ '\'' ∧ (char = ':' → ∀ next ∈ rest.head?, next ≠ ':' ∧ isNameStart next = false)

/-- Cuttings of a text into tokens. -/
inductive Cut : List Char → List Token → Prop where
  /-- Nothing is left. -/
  | nil : Cut [] []
  /-- A literal ends at the first quote that is not doubled. -/
  | literal {body rest : List Char} {tokens : List Token} (doubled : Doubled '\'' body)
      (ends : '\'' ∉ rest.head?) (others : Cut rest tokens) :
      Cut ('\'' :: (body ++ '\'' :: rest)) (.literal ('\'' :: (body ++ ['\''])) :: tokens)
  /-- A literal without such a quote reaches to the end. -/
  | openLiteral {body : List Char} (doubled : Doubled '\'' body) :
      Cut ('\'' :: body) [.literal ('\'' :: body)]
  /-- Two colons. -/
  | cast {rest : List Char} {tokens : List Token} (others : Cut rest tokens) :
      Cut (':' :: ':' :: rest) (.cast :: tokens)
  /-- A colon and a name, which goes on as long as it can. -/
  | reference {first : Char} {name rest : List Char} {tokens : List Token}
      (start : isNameStart first = true) (parts : ∀ char ∈ name, isNamePart char = true)
      (ends : ∀ next ∈ rest.head?, isNamePart next = false) (others : Cut rest tokens) :
      Cut (':' :: first :: (name ++ rest)) (.reference (first :: name) :: tokens)
  /-- Any other character. -/
  | char {char : Char} {rest : List Char} {tokens : List Token} (alone : IsAlone char rest)
      (others : Cut rest tokens) : Cut (char :: rest) (.char char :: tokens)

/-! ## Ends of tokens -/

section

variable {rest : List Char}

theorem tokensFrom_cons (state : TokenState) (char : Char) (rest : List Char) :
    tokensFrom state (char :: rest) =
      (stepToken state char).1 ++ tokensFrom (stepToken state char).2 rest :=
  rfl

/-- A step inside a token goes on with it. -/
theorem tokensFrom_step {state next : TokenState} {char : Char}
    (step : stepToken state char = ([], next)) (rest : List Char) :
    tokensFrom state (char :: rest) = tokensFrom next rest := by
  rw [tokensFrom_cons, step, List.nil_append]

/-- A character that does not go on with a token is the first one of the next. -/
theorem tokensFrom_begin (state : TokenState) (before : List Token) (char : Char)
    (rest : List Char)
    (step : stepToken state char = (before ++ (beginToken char).1, (beginToken char).2)) :
    tokensFrom state (char :: rest) = before ++ tokensFrom .plain (char :: rest) := by
  rw [tokensFrom_cons, step, List.append_assoc]
  rfl

theorem tokensFrom_quoteSeen (ends : '\'' ∉ rest.head?) (seen : List Char) :
    tokensFrom (.quoteSeen seen) rest = .literal seen.reverse :: tokens rest := by
  cases rest with
  | nil => rfl
  | cons char rest =>
      have no_quote : char ≠ '\'' := fun is_quote => ends (is_quote ▸ rfl)
      exact tokensFrom_begin _ [_] char rest (by rw [stepToken, if_neg no_quote]; rfl)

theorem tokensFrom_colon (ends : ∀ next ∈ rest.head?, next ≠ ':' ∧ isNameStart next = false) :
    tokensFrom .colon rest = .char ':' :: tokens rest := by
  cases rest with
  | nil => rfl
  | cons char rest =>
      obtain ⟨no_colon, no_start⟩ := ends char rfl
      refine tokensFrom_begin _ [_] char rest ?_
      rw [stepToken, if_neg no_colon, if_neg (by rw [no_start]; exact Bool.false_ne_true)]
      rfl

theorem tokensFrom_name (ends : ∀ next ∈ rest.head?, isNamePart next = false) (seen : List Char) :
    tokensFrom (.name seen) rest = .reference seen.reverse :: tokens rest := by
  cases rest with
  | nil => rfl
  | cons char rest =>
      refine tokensFrom_begin _ [_] char rest ?_
      rw [stepToken, if_neg (by rw [ends char rfl]; exact Bool.false_ne_true)]
      rfl

private theorem step_quoted {char : Char} (differs : char ≠ '\'') (seen : List Char) :
    stepToken (.quoted seen) char = ([], .quoted (char :: seen)) :=
  if_neg differs

private theorem step_quote (seen : List Char) :
    stepToken (.quoted seen) '\'' = ([], .quoteSeen ('\'' :: seen)) :=
  rfl

private theorem step_quoteSeen (seen : List Char) :
    stepToken (.quoteSeen seen) '\'' = ([], .quoted ('\'' :: seen)) :=
  rfl

private theorem step_name {char : Char} (part : isNamePart char = true) (seen : List Char) :
    stepToken (.name seen) char = ([], .name (char :: seen)) :=
  if_pos part

/-- A literal goes on through doubled quotes. -/
theorem tokensFrom_quoted {body : List Char} (doubled : Doubled '\'' body) (seen : List Char)
    (rest : List Char) :
    tokensFrom (.quoted seen) (body ++ rest) = tokensFrom (.quoted (body.reverse ++ seen)) rest := by
  induction doubled generalizing seen with
  | nil => rfl
  | other differs _ induction =>
      rw [List.cons_append, tokensFrom_step (step_quoted differs seen), induction, List.reverse_cons,
        List.append_assoc]
      rfl
  | pair _ induction =>
      rw [List.cons_append, tokensFrom_step (step_quote seen), List.cons_append,
        tokensFrom_step (step_quoteSeen _), induction, List.reverse_cons, List.reverse_cons,
        List.append_assoc, List.append_assoc]
      rfl

theorem tokensFrom_parts {name : List Char} (parts : ∀ char ∈ name, isNamePart char = true)
    (seen : List Char) (rest : List Char) :
    tokensFrom (.name seen) (name ++ rest) = tokensFrom (.name (name.reverse ++ seen)) rest := by
  induction name generalizing seen with
  | nil => rfl
  | cons char name induction =>
      rw [List.cons_append, tokensFrom_step (step_name (parts char List.mem_cons_self) seen),
        induction fun other member => parts other (List.mem_cons_of_mem char member),
        List.reverse_cons, List.append_assoc]
      rfl

end

/-! ## The tokens of a text -/

section

variable {text : List Char} {tokens : List Token}

private theorem tokens_quote (rest : List Char) :
    Statement.tokens ('\'' :: rest) = tokensFrom (.quoted ['\'']) rest := rfl

private theorem tokens_colon (rest : List Char) :
    Statement.tokens (':' :: rest) = tokensFrom .colon rest :=
  tokensFrom_step (by rw [stepToken, beginToken, if_neg (by decide), if_pos rfl]) rest

/-- A text is cut in no other way than into its tokens. -/
theorem Cut.eq_tokens (cut : Cut text tokens) : tokens = Statement.tokens text := by
  induction cut with
  | nil => rfl
  | @literal body rest tokens doubled ends _ induction =>
      rw [tokens_quote, tokensFrom_quoted doubled, tokensFrom_step (step_quote _),
        tokensFrom_quoteSeen ends, ← induction]
      simp
  | @openLiteral body doubled =>
      have whole := tokensFrom_quoted doubled ['\''] []
      rw [List.append_nil] at whole
      rw [tokens_quote, whole, tokensFrom, endToken]
      simp
  | cast _ induction =>
      rw [tokens_colon, tokensFrom_cons, stepToken, if_pos rfl, induction]
      rfl
  | @reference first name rest tokens start parts ends _ induction =>
      have no_colon : first ≠ ':' := by
        rintro rfl
        exact absurd start (by decide)
      have begins : stepToken .colon first = ([], .name [first]) := by
        rw [stepToken, if_neg no_colon, if_pos start]
      rw [tokens_colon, tokensFrom_step begins, tokensFrom_parts parts, tokensFrom_name ends,
        induction]
      simp
  | @char char rest tokens alone _ induction =>
      obtain ⟨no_quote, ends⟩ := alone
      by_cases is_colon : char = ':'
      · rw [is_colon, tokens_colon, tokensFrom_colon (ends is_colon), induction]
      · rw [Statement.tokens, tokensFrom, stepToken, beginToken, if_neg no_quote, if_neg is_colon,
          induction]
        rfl

/-- Every text can be cut into tokens. -/
theorem exists_cut (text : List Char) : ∃ tokens, Cut text tokens := by
  induction length : text.length using Nat.strong_induction_on generalizing text with
  | _ size shorter =>
      have cut_rest : ∀ rest : List Char, rest.length < text.length → ∃ tokens, Cut rest tokens :=
        fun rest lt => shorter rest.length (length ▸ lt) rest rfl
      match text with
      | [] => exact ⟨[], .nil⟩
      | first :: rest =>
          by_cases is_quote : first = '\''
          · subst is_quote
            by_cases doubled : Doubled '\'' rest
            · exact ⟨_, .openLiteral doubled⟩
            · obtain ⟨body, body_doubled, rfl | ⟨char, behind, differs, rfl⟩⟩ :=
                Doubled.exists_of_not doubled
              · exact ⟨_, .literal body_doubled (by simp) .nil⟩
              · obtain ⟨others, others_cut⟩ := cut_rest (char :: behind) (by
                  simp only [List.length_cons, List.length_append]
                  omega)
                exact ⟨_, .literal body_doubled (by simpa using differs) others_cut⟩
          · by_cases alone : IsAlone first rest
            · obtain ⟨others, others_cut⟩ := cut_rest rest (by simp)
              exact ⟨_, .char alone others_cut⟩
            · -- What is not alone is the colon of a cast or of a reference.
              obtain ⟨rfl, next, behind, rfl, goes_on⟩ : first = ':' ∧ ∃ next behind,
                  rest = next :: behind ∧ (next = ':' ∨ isNameStart next = true) := by
                simp only [IsAlone, not_and, not_forall] at alone
                obtain ⟨is_colon, next, next_eq, goes_on⟩ := alone is_quote
                obtain ⟨behind, rfl⟩ := List.head?_eq_some_iff.mp next_eq
                refine ⟨is_colon, next, behind, rfl, ?_⟩
                by_contra neither
                rw [not_or, Bool.not_eq_true] at neither
                exact goes_on neither.1 neither.2
              by_cases is_cast : next = ':'
              · subst is_cast
                obtain ⟨others, others_cut⟩ := cut_rest behind (by
                  simp only [List.length_cons]
                  omega)
                exact ⟨_, .cast others_cut⟩
              · obtain ⟨others, others_cut⟩ := cut_rest (behind.dropWhile isNamePart) (by
                  have shorter := (List.dropWhile_sublist isNamePart (l := behind)).length_le
                  simp only [List.length_cons]
                  omega)
                have ends : ∀ char ∈ (behind.dropWhile isNamePart).head?,
                    isNamePart char = false := fun char member => by
                  have stops := List.head?_dropWhile_not isNamePart behind
                  rwa [member] at stops
                have parts : ∀ char ∈ behind.takeWhile isNamePart, isNamePart char = true :=
                  List.all_eq_true.mp List.all_takeWhile
                have cut := Cut.reference (goes_on.resolve_left is_cast) parts ends others_cut
                rw [List.takeWhile_append_dropWhile] at cut
                exact ⟨_, cut⟩

theorem cut_tokens (text : List Char) : Cut text (Statement.tokens text) := by
  obtain ⟨tokens, cut⟩ := exists_cut text
  exact cut.eq_tokens ▸ cut

theorem cut_iff : Cut text tokens ↔ tokens = Statement.tokens text :=
  ⟨Cut.eq_tokens, fun same => same ▸ cut_tokens text⟩

/-- No character is lost between tokens. -/
theorem Cut.flatMap_chars (cut : Cut text tokens) : tokens.flatMap Token.chars = text := by
  induction cut with
  | nil => rfl
  | literal _ _ _ induction | reference _ _ _ _ induction =>
      simp [Token.chars, induction]
  | openLiteral => simp [Token.chars]
  | cast _ induction | char _ _ induction =>
      rw [List.flatMap_cons, induction]
      rfl

end

/-! ## References written out -/

/-- A token with its name written out if it is a reference. -/
def Token.writeOut (written : List Char → List Char) : Token → List Token
  | .reference name => (written name).map .char
  | token => [token]

/-- Whether a text is neither empty nor has marks of literals, casts or references. -/
def IsPlain (text : List Char) : Prop :=
  text ≠ [] ∧ '\'' ∉ text ∧ ':' ∉ text

section

variable {text : List Char} {tokens : List Token} {written : List Char → List Char}

/-- The characters of a token with its name written out. -/
def Token.charsOut (written : List Char → List Char) (token : Token) : List Char :=
  (token.writeOut written).flatMap Token.chars

theorem chars_map_char (text : List Char) : (text.map Token.char).flatMap Token.chars = text := by
  induction text with
  | nil => rfl
  | cons char text induction =>
      rw [List.map_cons, List.flatMap_cons, induction]
      rfl

theorem charsOut_reference (name : List Char) :
    (Token.reference name).charsOut written = written name :=
  chars_map_char _

/-- A text begins as before when references are written out, unless it begins with a colon; no quote
takes the place of that. -/
theorem Cut.head?_writeOut (cut : Cut text tokens)
    (plain : ∀ name, .reference name ∈ tokens → IsPlain (written name)) :
    (tokens.flatMap (Token.charsOut written)).head? = text.head? ∨
      text.head? = some ':' ∧ '\'' ∉ (tokens.flatMap (Token.charsOut written)).head? := by
  cases cut with
  | nil | literal | openLiteral | cast | char => exact .inl rfl
  | @reference first name rest others =>
      obtain ⟨filled, no_quote, -⟩ := plain _ List.mem_cons_self
      obtain ⟨char, behind, written_eq⟩ := List.exists_cons_of_ne_nil filled
      refine .inr ⟨rfl, fun member => no_quote ?_⟩
      rw [List.flatMap_cons, charsOut_reference, written_eq] at member
      rw [written_eq]
      exact Option.some.inj member ▸ List.mem_cons_self

/-- Plain characters in front of a text are cut off one by one. -/
theorem Cut.plain_append (cut : Cut text tokens) {plain : List Char} (no_quote : '\'' ∉ plain)
    (no_colon : ':' ∉ plain) : Cut (plain ++ text) (plain.map .char ++ tokens) := by
  induction plain with
  | nil => exact cut
  | cons char plain induction =>
      rw [List.mem_cons, not_or] at no_quote no_colon
      have alone : IsAlone char (plain ++ text) :=
        ⟨Ne.symm no_quote.1, fun is_colon => absurd is_colon.symm no_colon.1⟩
      exact .char alone (induction no_quote.2 no_colon.2)

/-- Writing references out as plain characters leaves the other tokens as they are. -/
theorem Cut.writeOut (cut : Cut text tokens)
    (plain : ∀ name, .reference name ∈ tokens → IsPlain (written name)) :
    Cut (tokens.flatMap (Token.charsOut written)) (tokens.flatMap (Token.writeOut written)) := by
  induction cut with
  | nil => exact .nil
  | @literal body rest tokens doubled ends others induction =>
      have rest_plain := fun name member => plain name (List.mem_cons_of_mem _ member)
      have rest_ends : '\'' ∉ (tokens.flatMap (Token.charsOut written)).head? := by
        rcases others.head?_writeOut rest_plain with same | ⟨-, no_quote⟩
        · exact same ▸ ends
        · exact no_quote
      have cut := Cut.literal doubled rest_ends (induction rest_plain)
      simpa [Token.charsOut, Token.writeOut, Token.chars] using cut
  | openLiteral doubled =>
      have cut := Cut.openLiteral doubled
      simpa [Token.charsOut, Token.writeOut, Token.chars] using cut
  | cast _ induction =>
      exact .cast (induction fun name member => plain name (List.mem_cons_of_mem _ member))
  | reference start parts ends _ induction =>
      obtain ⟨-, no_quote, no_colon⟩ := plain _ List.mem_cons_self
      rw [List.flatMap_cons, List.flatMap_cons, charsOut_reference]
      exact (induction fun name member => plain name (List.mem_cons_of_mem _ member)).plain_append
        no_quote no_colon
  | @char char rest tokens alone others induction =>
      have rest_plain := fun name member => plain name (List.mem_cons_of_mem _ member)
      refine .char ⟨alone.1, fun is_colon next next_in => ?_⟩ (induction rest_plain)
      rcases others.head?_writeOut rest_plain with same | ⟨begins, -⟩
      · exact alone.2 is_colon next (same ▸ next_in)
      · exact absurd rfl (alone.2 is_colon ':' begins).1

end

end StationGateway.Statement
