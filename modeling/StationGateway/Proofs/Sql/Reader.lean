import Mathlib.Tactic.SplitIfs
import StationGateway.Proofs.Sql.Formula
import StationGateway.Text.Split

/-!
# Reading conditions

How the text of a condition is taken apart. Parentheses and quotes are followed from the left. What
stands outside of them is cut at blanks into words, and the words `or` and `and` cut the rest into
parts, where `and` binds more tightly. A part that is nothing but a pair of parentheses is read on
inside, and any other part is a comparison. A doubled quote closes and reopens, which leaves the
quoted text together.
-/

namespace StationGateway.Sql

open Text

/-- A piece of the text of a condition. -/
inductive Token where
  /-- A character outside quotes and parentheses. -/
  | plain (char : Char)
  /-- A quote, or a character between quotes. -/
  | quoted (char : Char)
  /-- A pair of parentheses: the text between them, and what it says. -/
  | group (text : List Char) (inner : Formula String)

namespace Token

/-- The text of a piece. -/
def text : Token → List Char
  | plain char => [char]
  | quoted char => [char]
  | group text _ => '(' :: text ++ [')']

/-- Whether a piece separates words. -/
def isBlank : Token → Bool
  | plain char => char == ' '
  | _ => false

/-- The character of a piece outside quotes and parentheses. -/
def plain? : Token → Option Char
  | plain char => some char
  | _ => none

end Token

/-- The text of several pieces. -/
def spelled (tokens : List Token) : List Char :=
  tokens.flatMap Token.text

/-- The words between blanks. -/
def words (tokens : List Token) : List (List Token) :=
  tokens.splitOnP Token.isBlank

/-- Whether pieces spell a given word. -/
def isWord (word : String) (tokens : List Token) : Bool :=
  tokens.map Token.plain? == word.toList.map some

/-- What words say that no `and` or `or` joins. -/
def comparison : List (List Token) → Formula String
  | [[.group _ inner]] => .group inner
  | words => .atom (join " " (words.map fun word => String.ofList (spelled word)))

/-- What words say that no `or` joins. -/
def conjunction (words : List (List Token)) : Formula String :=
  .joined .all ((words.splitOnP (isWord "and")).map comparison)

/-- What words say. -/
def disjunction (words : List (List Token)) : Formula String :=
  .joined .any ((words.splitOnP (isWord "or")).map conjunction)

/-- What pieces say. -/
def Formula.ofTokens (tokens : List Token) : Formula String :=
  disjunction (words tokens)

/-- How far the reading of a text has come. The pieces seen last come first. -/
structure Reader where
  /-- The quote that is open. -/
  quote : Option Char
  /-- The pieces seen since the innermost open parenthesis. -/
  level : List Token
  /-- The pieces seen before each open parenthesis since the one around it. -/
  outer : List (List Token)

namespace Reader

/-- Nothing has been read. -/
def start : Reader :=
  ⟨none, [], []⟩

/-- Reads a character. A closing parenthesis without an opening one is refused. -/
def step (reader : Reader) (char : Char) : Option Reader :=
  match reader.quote with
  | some mark =>
      some ⟨if char = mark then none else some mark, .quoted char :: reader.level, reader.outer⟩
  | none =>
      if char = '\'' ∨ char = '"' then some ⟨some char, .quoted char :: reader.level, reader.outer⟩
      else if char = '(' then some ⟨none, [], reader.level :: reader.outer⟩
      else if char = ')' then
        match reader.outer with
        | [] => none
        | around :: outer =>
            let tokens := reader.level.reverse
            some ⟨none, .group (spelled tokens) (.ofTokens tokens) :: around, outer⟩
      else some ⟨none, .plain char :: reader.level, reader.outer⟩

/-- Reads a text. -/
def run (reader : Reader) : List Char → Option Reader
  | [] => some reader
  | char :: rest => (reader.step char).bind fun next => next.run rest

theorem run_append (reader : Reader) (text more : List Char) :
    reader.run (text ++ more) = (reader.run text).bind fun next => next.run more := by
  induction text generalizing reader with
  | nil => rfl
  | cons char text induction =>
      simp only [List.cons_append, run]
      cases reader.step char with
      | none => rfl
      | some next => exact induction next

/-- The pieces of a text with no quote or parenthesis left open. -/
def finished? : Reader → Option (List Token)
  | ⟨none, level, []⟩ => some level.reverse
  | _ => none

/-- The pieces around open parentheses, when what has been read stands inside further ones. -/
def outerWithin (level : List Token) (outer : List (List Token)) :
    List (List Token) → List (List Token)
  | [] => outer
  | [last] => (last ++ level) :: outer
  | first :: next :: rest => first :: outerWithin level outer (next :: rest)

/-- The reader when what it has read stands after other pieces and inside other parentheses. -/
def within (level : List Token) (outer : List (List Token)) (reader : Reader) : Reader :=
  match reader.outer with
  | [] => ⟨reader.quote, reader.level ++ level, outer⟩
  | around :: rest => ⟨reader.quote, reader.level, outerWithin level outer (around :: rest)⟩

theorem step_within (level : List Token) (outer : List (List Token)) {reader next : Reader}
    {char : Char} (stepped : reader.step char = some next) :
    (reader.within level outer).step char = some (next.within level outer) := by
  obtain ⟨quote, inside, around⟩ := reader
  cases quote with
  | some mark =>
      simp only [step, Option.some.injEq] at stepped
      subst stepped
      cases around <;> simp [within, step]
  | none =>
      simp only [step] at stepped
      split_ifs at stepped with is_quote is_open is_close
      · simp only [Option.some.injEq] at stepped
        subst stepped
        cases around <;> simp [within, step, is_quote]
      · simp only [Option.some.injEq] at stepped
        subst stepped
        cases around <;> simp [within, step, is_open, outerWithin]
      · rcases around with _ | ⟨last, _ | ⟨second, rest⟩⟩
        · simp at stepped
        · simp only [Option.some.injEq] at stepped
          subst stepped
          simp [within, step, is_close, outerWithin]
        · simp only [Option.some.injEq] at stepped
          subst stepped
          simp [within, step, is_close, outerWithin]
      · simp only [Option.some.injEq] at stepped
        subst stepped
        cases around <;> simp [within, step, is_quote, is_open, is_close]

/-- What stands around a text does not matter for reading it. -/
theorem run_within (level : List Token) (outer : List (List Token)) {reader final : Reader}
    {text : List Char} (ran : reader.run text = some final) :
    (reader.within level outer).run text = some (final.within level outer) := by
  induction text generalizing reader with
  | nil =>
      simp only [run, Option.some.injEq] at ran
      simp [run, ran]
  | cons char text induction =>
      obtain ⟨next, stepped, ran_rest⟩ := Option.bind_eq_some_iff.mp ran
      simp [run, step_within level outer stepped, induction ran_rest]

end Reader

/-- The pieces of a text whose quotes and parentheses are closed. -/
def tokens? (text : String) : Option (List Token) :=
  (Reader.start.run text.toList).bind Reader.finished?

/-- What the text of a condition says, if its quotes and parentheses are closed. -/
def read (text : String) : Option (Formula String) :=
  (tokens? text).map .ofTokens

end StationGateway.Sql
