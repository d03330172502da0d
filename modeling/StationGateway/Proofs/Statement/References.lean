import Mathlib
import StationGateway.Proofs.Order.Gather
import StationGateway.Proofs.Outcome
import StationGateway.Proofs.Statement.Tokens
import StationGateway.Proofs.Text.Join

/-!
# References of statements

Which names the text of a statement refers to. A text with an even number of single quotes leaves no
literal open, and a character that neither opens a literal nor goes on with a name begins a new token
behind it. So the references of texts between such characters are those of each of them. -/

namespace StationGateway.Statement

open Text Outcome

/-- The name that a token refers to. -/
def Token.name? : Token → Option String
  | .reference name => some (String.ofList name)
  | _ => none

/-- The names that are referred to from a state on. -/
def referencesFrom (state : TokenState) (text : List Char) : List String :=
  (tokensFrom state text).filterMap Token.name?

/-- The names that a text refers to, in order. -/
def references (text : String) : List String :=
  referencesFrom .plain text.toList

/-- Whether every literal of a text is closed. -/
def Closed (text : String) : Prop :=
  Even (text.toList.count '\'')

instance (text : String) : Decidable (Closed text) :=
  inferInstanceAs (Decidable (Even _))

/-- Whether a text closes every literal and refers to nothing. -/
def Silent (text : String) : Prop :=
  Closed text ∧ references text = []

instance (text : String) : Decidable (Silent text) :=
  inferInstanceAs (Decidable (_ ∧ _))

/-- A spelled out text is silent if its characters are. -/
theorem silent_ofList {chars : List Char}
    (silent : Even (chars.count '\'') ∧ referencesFrom .plain chars = []) :
    Silent (String.ofList chars) := by
  rw [Silent, Closed, references, String.toList_ofList]
  exact silent

/-- Whether a character stands for itself outside literals and ends whatever is before it. -/
def IsOrdinary (char : Char) : Prop :=
  char ≠ '\'' ∧ char ≠ ':' ∧ isNamePart char = false

instance (char : Char) : Decidable (IsOrdinary char) :=
  inferInstanceAs (Decidable (_ ∧ _))

theorem referencesFrom_cons (state : TokenState) (char : Char) (rest : List Char) :
    referencesFrom state (char :: rest) =
      (stepToken state char).1.filterMap Token.name? ++
        referencesFrom (stepToken state char).2 rest := by
  rw [referencesFrom, tokensFrom, List.filterMap_append]
  rfl

/-! ## States -/

/-- Whether a literal is open. -/
def TokenState.isOpen : TokenState → Bool
  | .quoted _ => true
  | _ => false

theorem isOpen_beginToken (char : Char) : (beginToken char).2.isOpen = (char == '\'') := by
  rw [beginToken]
  split_ifs with is_quote is_colon
  · simp [TokenState.isOpen, is_quote]
  · simp [TokenState.isOpen, is_quote]
  · simp [TokenState.isOpen, is_quote]

/-- A quote opens or closes a literal, and nothing else does. -/
theorem isOpen_stepToken (state : TokenState) (char : Char) :
    (stepToken state char).2.isOpen = (state.isOpen ^^ char == '\'') := by
  cases state with
  | plain => exact (isOpen_beginToken char).trans (Bool.false_xor _).symm
  | quoted seen =>
      rw [stepToken]
      split_ifs with is_quote
      · simp [TokenState.isOpen, is_quote]
      · simp [TokenState.isOpen, is_quote]
  | quoteSeen seen =>
      rw [stepToken]
      split_ifs with is_quote
      · simp [TokenState.isOpen, is_quote]
      · exact (isOpen_beginToken char).trans (Bool.false_xor _).symm
  | colon =>
      rw [stepToken]
      split_ifs with is_colon is_start
      · simp [TokenState.isOpen, is_colon]
      · have no_quote : char ≠ '\'' := by
          rintro rfl
          exact absurd is_start (by decide)
        simp [TokenState.isOpen, no_quote]
      · exact (isOpen_beginToken char).trans (Bool.false_xor _).symm
  | name seen =>
      rw [stepToken]
      split_ifs with is_part
      · have no_quote : char ≠ '\'' := by
          rintro rfl
          exact absurd is_part (by decide)
        simp [TokenState.isOpen, no_quote]
      · exact (isOpen_beginToken char).trans (Bool.false_xor _).symm

theorem isNameStart_of_not_isNamePart {char : Char} (other : isNamePart char = false) :
    isNameStart char = false := by
  rw [isNamePart, Char.isAlphanum, Bool.or_eq_false_iff, Bool.or_eq_false_iff] at other
  rw [isNameStart, other.1.1, other.2]
  rfl

/-- An ordinary character outside literals ends the token before it. -/
theorem tokensFrom_ordinary {state : TokenState} (is_closed : state.isOpen = false) {char : Char}
    (ordinary : IsOrdinary char) (rest : List Char) :
    tokensFrom state (char :: rest) = endToken state ++ .char char :: tokensFrom .plain rest := by
  obtain ⟨no_quote, no_colon, no_part⟩ := ordinary
  have begins : beginToken char = ([.char char], .plain) := by simp [beginToken, no_quote, no_colon]
  cases state with
  | plain => simp [tokensFrom, stepToken, begins, endToken]
  | quoted seen => cases is_closed
  | quoteSeen seen => simp [tokensFrom, stepToken, begins, endToken, no_quote]
  | colon =>
      simp [tokensFrom, stepToken, begins, endToken, no_colon,
        isNameStart_of_not_isNamePart no_part]
  | name seen => simp [tokensFrom, stepToken, begins, endToken, no_part]

/-- Whether a literal is open behind a text. -/
theorem isOpen_foldl (state : TokenState) (text : List Char) :
    (text.foldl (fun state char => (stepToken state char).2) state).isOpen =
      (state.isOpen ^^ decide (Odd (text.count '\''))) := by
  induction text generalizing state with
  | nil => simp
  | cons char rest induction =>
      rw [List.foldl_cons, induction, isOpen_stepToken, List.count_cons]
      cases is_quote : char == '\'' with
      | true => simp [Nat.odd_add_one, -Nat.not_odd_iff_even]
      | false => simp

/-- A text that ends outside literals is split from what is behind an ordinary character. -/
theorem tokensFrom_append_ordinary {state : TokenState} {text : List Char}
    (is_closed : (text.foldl (fun state char => (stepToken state char).2) state).isOpen = false)
    {char : Char} (ordinary : IsOrdinary char) (rest : List Char) :
    tokensFrom state (text ++ char :: rest) =
      tokensFrom state text ++ .char char :: tokensFrom .plain rest := by
  induction text generalizing state with
  | nil => exact tokensFrom_ordinary is_closed ordinary rest
  | cons first text induction =>
      rw [List.cons_append, tokensFrom, tokensFrom]
      dsimp only
      rw [List.append_assoc, induction is_closed]

theorem isOpen_of_closed {text : String} (closed : Closed text) :
    (text.toList.foldl (fun state char => (stepToken state char).2) .plain).isOpen = false := by
  rw [isOpen_foldl, decide_eq_false (Nat.not_odd_iff_even.mpr closed)]
  rfl

/-! ## Texts and what is between them -/

section

variable {text before after separator : String} {char : Char}

theorem closed_empty : Closed "" := by decide

theorem silent_empty : Silent "" := ⟨closed_empty, rfl⟩

theorem Closed.append (first : Closed before) (second : Closed after) : Closed (before ++ after) := by
  rw [Closed, String.toList_append, List.count_append]
  exact first.add second

/-- The references on both sides of an ordinary character. -/
theorem references_ordinary (closed : Closed before) (ordinary : IsOrdinary char) :
    references (before ++ String.singleton char ++ after) = references before ++ references after := by
  rw [references, String.toList_append, String.toList_append, String.toList_singleton,
    List.append_assoc, List.singleton_append, referencesFrom,
    tokensFrom_append_ordinary (isOpen_of_closed closed) ordinary, List.filterMap_append]
  rfl

/-- Whether a text keeps the references on both sides of it apart, and has none of its own. -/
def Separates (separator : String) : Prop :=
  Closed separator ∧ ∀ before after, Closed before →
    references (before ++ separator ++ after) = references before ++ references after

theorem separates_singleton (ordinary : IsOrdinary char) : Separates (String.singleton char) := by
  refine ⟨?_, fun before after closed => references_ordinary closed ordinary⟩
  rw [Closed, String.toList_singleton, List.count_singleton]
  simp [ordinary.1]

theorem Separates.left (separates : Separates separator) (after : String) :
    references (separator ++ after) = references after := by
  have split := separates.2 "" after closed_empty
  rwa [String.empty_append] at split

theorem Separates.right (separates : Separates separator) (closed : Closed before) :
    references (before ++ separator) = references before := by
  have split := separates.2 before "" closed
  rw [String.append_empty] at split
  exact split.trans (List.append_nil _)

/-- A text without colons refers to nothing, whatever its literals are. -/
theorem references_eq_nil (no_colon : ':' ∉ text.toList) : references text = [] := by
  have from_state : ∀ chars : List Char, ':' ∉ chars → ∀ seen,
      referencesFrom .plain chars = [] ∧ referencesFrom (.quoted seen) chars = [] ∧
        referencesFrom (.quoteSeen seen) chars = [] := by
    intro chars absent
    induction chars with
    | nil => exact fun seen => ⟨rfl, rfl, rfl⟩
    | cons char rest induction =>
        obtain ⟨char_ne, rest_absent⟩ := not_or.mp (mt List.mem_cons.mpr absent)
        have next := induction rest_absent
        have begins : (beginToken char).1.filterMap Token.name? ++
            referencesFrom (beginToken char).2 rest = [] := by
          rw [beginToken, if_neg (Ne.symm char_ne)]
          split_ifs with is_quote
          · exact (next ['\'']).2.1
          · exact (next []).1
        intro seen
        refine ⟨?_, ?_, ?_⟩
        · rw [referencesFrom_cons]
          exact begins
        · rw [referencesFrom_cons, stepToken]
          split_ifs with is_quote
          · exact (next _).2.2
          · exact (next _).2.1
        · rw [referencesFrom_cons, stepToken]
          split_ifs with is_quote
          · exact (next _).2.1
          · exact begins
  exact (from_state text.toList no_colon []).1

/-- A text without colons and quotes is silent. -/
theorem silent_of_tame (no_colon : ':' ∉ text.toList) (no_quote : '\'' ∉ text.toList) :
    Silent text := by
  refine ⟨?_, references_eq_nil no_colon⟩
  rw [Closed, List.count_eq_zero.mpr no_quote]
  exact Even.zero

/-- Silent texts with a separator between them are silent. -/
theorem Silent.append {first second : String} (first_silent : Silent first)
    (separates : Separates separator) (second_silent : Silent second) :
    Silent (first ++ separator ++ second) := by
  refine ⟨(first_silent.1.append separates.1).append second_silent.1, ?_⟩
  rw [separates.2 _ _ first_silent.1, first_silent.2, second_silent.2]
  rfl

/-- A silent text between two separators separates, too. -/
theorem Separates.around {first second : String} (first_separates : Separates first)
    (second_separates : Separates second) (silent : Silent text) :
    Separates (first ++ text ++ second) := by
  refine ⟨(first_separates.1.append silent.1).append second_separates.1,
    fun before after before_closed => ?_⟩
  have regroup : before ++ (first ++ text ++ second) ++ after =
      before ++ first ++ text ++ second ++ after := by simp only [String.append_assoc]
  have front_closed := (before_closed.append first_separates.1).append silent.1
  rw [regroup, second_separates.2 _ _ front_closed, first_separates.2 _ _ before_closed, silent.2,
    List.append_nil]

/-- Whether a text is silent and begins and ends with ordinary characters. -/
def IsSeparator (text : String) : Prop :=
  Silent text ∧ (text.toList.head?.any fun char => decide (IsOrdinary char)) = true ∧
    (text.toList.getLast?.any fun char => decide (IsOrdinary char)) = true

instance (text : String) : Decidable (IsSeparator text) :=
  inferInstanceAs (Decidable (_ ∧ _))

theorem separates_of_isSeparator (is_separator : IsSeparator separator) : Separates separator := by
  obtain ⟨⟨closed, silent⟩, begins, ends⟩ := is_separator
  obtain ⟨first, first_eq, first_ordinary⟩ := (Option.any_eq_true _ _).mp begins
  obtain ⟨last, last_eq, last_ordinary⟩ := (Option.any_eq_true _ _).mp ends
  have first_separates := separates_singleton (of_decide_eq_true first_ordinary)
  have last_separates := separates_singleton (of_decide_eq_true last_ordinary)
  obtain ⟨rest, chars_eq⟩ := List.head?_eq_some_iff.mp first_eq
  cases rest_eq : rest.getLast? with
  | none =>
      have alone : separator = String.singleton first := by
        apply String.toList_injective
        rw [chars_eq, List.getLast?_eq_none_iff.mp rest_eq, String.toList_singleton]
      exact alone ▸ first_separates
  | some other =>
      obtain ⟨middle, rfl⟩ := List.getLast?_eq_some_iff.mp rest_eq
      obtain rfl : other = last := by
        rw [chars_eq, ← List.cons_append, List.getLast?_concat] at last_eq
        exact Option.some.inj last_eq
      have split : separator =
          String.singleton first ++ String.ofList middle ++ String.singleton other := by
        apply String.toList_injective
        rw [chars_eq]
        simp
      have middle_closed : Closed (String.ofList middle) := by
        rw [Closed, chars_eq, List.count_cons_of_ne (of_decide_eq_true first_ordinary).1,
          List.count_append, List.count_singleton] at closed
        rw [Closed, String.toList_ofList]
        simpa [(of_decide_eq_true last_ordinary).1] using closed
      have middle_silent : references (String.ofList middle) = [] := by
        rw [split, last_separates.right (first_separates.1.append middle_closed),
          first_separates.left] at silent
        exact silent
      exact split ▸ first_separates.around last_separates ⟨middle_closed, middle_silent⟩

/-- The references of joined texts are those of each of them. -/
theorem references_join (separates : Separates separator) {texts : List String}
    (closed : ∀ text ∈ texts, Closed text) :
    Closed (join separator texts) ∧
      references (join separator texts) = texts.flatMap references := by
  induction texts with
  | nil => exact ⟨closed_empty, rfl⟩
  | cons text rest induction =>
      obtain ⟨rest_closed, rest_references⟩ := induction fun other member =>
        closed other (List.mem_cons_of_mem text member)
      have text_closed := closed text List.mem_cons_self
      cases rest with
      | nil => exact ⟨text_closed, (List.flatMap_singleton references text).symm⟩
      | cons next others =>
          rw [join_cons_of_ne_nil _ _ (List.cons_ne_nil next others)]
          refine ⟨(text_closed.append separates.1).append rest_closed, ?_⟩
          rw [separates.2 _ _ text_closed, rest_references]
          rfl

/-- A text in parentheses, and silent texts around them, refer to what the text does. -/
theorem references_group (closed : Closed text) (before_silent : Silent before)
    (after_silent : Silent after) :
    Closed (before ++ "(" ++ text ++ ")" ++ after) ∧
      references (before ++ "(" ++ text ++ ")" ++ after) = references text := by
  have opening : Separates "(" := separates_of_isSeparator (by decide)
  have ending : Separates ")" := separates_of_isSeparator (by decide)
  have front_closed : Closed (before ++ "(" ++ text) :=
    (before_silent.1.append opening.1).append closed
  refine ⟨(front_closed.append ending.1).append after_silent.1, ?_⟩
  rw [ending.2 _ _ front_closed, opening.2 _ _ before_silent.1, before_silent.2, after_silent.2,
    List.append_nil]
  rfl

end

/-! ## Binding -/

/-- The placeholders of a name, if it is known or has a value. -/
theorem bindName_cases {params : Params} {state : BindState}
    (known : ∀ entry ∈ state.known, entry.1 ∈ params.map (·.1)) (name : String) :
    (∃ text next, bindName params state name = .ok (text, next) ∧ name ∈ params.map (·.1) ∧
        ∀ entry ∈ next.known, entry.1 ∈ params.map (·.1)) ∨
      name ∉ params.map (·.1) ∧ bindName params state name =
        .error (.internal s!"statement references unbound parameter :{name}") := by
  rw [bindName]
  cases found : Order.find? name state.known with
  | some text => exact .inl ⟨text, state, rfl, known _ (Order.mem_of_find? found), known⟩
  | none =>
      cases given : Order.find? name params with
      | none =>
          refine .inr ⟨fun member => ?_, rfl⟩
          have present := Order.find?_isSome_iff.mpr member
          rw [given] at present
          cases present
      | some value =>
          have member : name ∈ params.map (·.1) :=
            List.mem_map.mpr ⟨_, Order.mem_of_find? given, rfl⟩
          refine .inl ⟨_, _, rfl, member, fun entry entry_in => ?_⟩
          rcases List.mem_cons.mp entry_in with rfl | is_old
          · exact member
          · exact known entry is_old

/-- Whether binding tokens succeeds because every reference is one to a value, or fails for a
reference that is not. -/
def Settles {α : Type} (params : Params) (tokens : List Token) (outcome : Except GatewayError α) :
    Prop :=
  (∃ result, outcome = .ok result) ∧
      (∀ name ∈ tokens.filterMap Token.name?, name ∈ params.map (·.1)) ∨
    ∃ name ∈ tokens.filterMap Token.name?, name ∉ params.map (·.1) ∧
      outcome = .error (.internal s!"statement references unbound parameter :{name}")

/-- A token that is no reference stays as it is. -/
theorem bindTokens_cons_of_silent (params : Params) (state : BindState) {token : Token}
    (silent : token.name? = none) (rest : List Token) :
    bindTokens params state (token :: rest) =
      (bindTokens params state rest).map fun result =>
        (String.ofList token.chars :: result.1, result.2) := by
  have same : ∀ outcome : Except GatewayError (List String × List SqlValue), ∀ text,
      (outcome >>= fun result => Except.ok (text :: result.1, result.2)) =
        outcome.map fun result => (text :: result.1, result.2) := by
    intro outcome text
    cases outcome <;> rfl
  cases token with
  | reference name => cases silent
  | literal | cast | char =>
      rw [bindTokens]
      exact same _ _

theorem settles_bindTokens (params : Params) (state : BindState) (tokens : List Token)
    (known : ∀ entry ∈ state.known, entry.1 ∈ params.map (·.1)) :
    Settles params tokens (bindTokens params state tokens) := by
  induction tokens generalizing state with
  | nil => exact .inl ⟨⟨_, rfl⟩, fun _ member => absurd member List.not_mem_nil⟩
  | cons token rest induction =>
      cases named : token.name? with
      | none =>
          rw [Settles, bindTokens_cons_of_silent params state named, List.filterMap_cons_none named]
          rcases induction state known with ⟨⟨result, rest_eq⟩, bound⟩ | ⟨name, member, absent, rest_eq⟩
          · exact .inl ⟨⟨_, by rw [rest_eq]; rfl⟩, bound⟩
          · exact .inr ⟨name, member, absent, by rw [rest_eq]; rfl⟩
      | some name =>
          obtain ⟨chars, rfl, rfl⟩ : ∃ chars, token = .reference chars ∧ String.ofList chars = name := by
            cases token with
            | reference chars => exact ⟨chars, rfl, Option.some.inj named⟩
            | literal text => cases named
            | cast => cases named
            | char char => cases named
          rw [Settles, List.filterMap_cons_some named]
          rcases bindName_cases known (String.ofList chars) with
            ⟨text, next, name_eq, name_in, next_known⟩ | ⟨absent, name_eq⟩
          · rcases induction next next_known with ⟨⟨result, rest_eq⟩, bound⟩ |
              ⟨other, member, absent, rest_eq⟩
            · refine .inl ⟨⟨(text :: result.1, result.2), ?_⟩, List.forall_mem_cons.mpr ⟨name_in, bound⟩⟩
              simp [bindTokens, name_eq, rest_eq, Bind.bind, Except.bind]
            · refine .inr ⟨other, List.mem_cons_of_mem _ member, absent, ?_⟩
              simp [bindTokens, name_eq, rest_eq, Bind.bind, Except.bind]
          · refine .inr ⟨_, List.mem_cons_self, absent, ?_⟩
            simp [bindTokens, name_eq, Bind.bind, Except.bind]

/-- A statement can be bound if and only if it refers to values only. -/
theorem exists_bind_iff {sql : String} {params : Params} :
    (∃ bound, Statement.bind sql params = .ok bound) ↔
      ∀ name ∈ references sql, name ∈ params.map (·.1) := by
  rcases settles_bindTokens params ⟨[], []⟩ (tokens sql.toList)
    (fun _ member => absurd member List.not_mem_nil) with
    ⟨⟨result, tokens_eq⟩, bound⟩ | ⟨name, member, absent, tokens_eq⟩
  · exact iff_of_true ⟨_, by rw [Statement.bind, tokens_eq]; rfl⟩ bound
  · refine iff_of_false ?_ fun bound => absent (bound name member)
    rintro ⟨bound, bound_eq⟩
    rw [Statement.bind, tokens_eq] at bound_eq
    cases bound_eq

/-- Binding fails for nothing but a reference to no value. -/
theorem exists_of_bind_error {sql : String} {params : Params} {error : GatewayError}
    (failed : Statement.bind sql params = .error error) :
    ∃ name ∈ references sql, name ∉ params.map (·.1) ∧
      error = .internal s!"statement references unbound parameter :{name}" := by
  rcases settles_bindTokens params ⟨[], []⟩ (tokens sql.toList)
    (fun _ member => absurd member List.not_mem_nil) with
    ⟨⟨result, tokens_eq⟩, bound⟩ | ⟨name, member, absent, tokens_eq⟩
  · rw [Statement.bind, tokens_eq] at failed
    cases failed
  · rw [Statement.bind, tokens_eq] at failed
    exact ⟨name, member, absent, (Except.error.inj failed).symm⟩

end StationGateway.Statement
