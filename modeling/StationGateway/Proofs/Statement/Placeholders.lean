import StationGateway.Proofs.Order.FirstOccurrence
import StationGateway.Proofs.Order.Numbered
import StationGateway.Proofs.Statement.References

/-!
# Placeholders of bound statements

Binding writes out the references of a statement and nothing else. A value stands for its members,
with the lists inside it dissolved: each scalar takes a placeholder, and a null or a list without
members is the word `null`. The placeholders of a name are numbered where it is referred to first, so
the numbers come up in order, and what is sent are the values of the names in that order. -/

namespace StationGateway

/-- Whether a value is neither no value nor a list. -/
def SqlValue.IsScalar (value : SqlValue) : Prop :=
  value ≠ .null ∧ ∀ values, value ≠ .list values

namespace Statement

open Text Outcome
open StationGateway.Order (numberFrom numberFrom_append numberFrom_ne_nil reduceOption_numberFrom)

/-! ## Members of values -/

mutual

/-- The members of a value with the lists inside it dissolved: no value for a null and for a list
without members. -/
def members : SqlValue → List (Option SqlValue)
  | .null => [none]
  | .list [] => [none]
  | .list (value :: rest) => membersOf (value :: rest)
  | value => [some value]

/-- The members of several values. -/
def membersOf : List SqlValue → List (Option SqlValue)
  | [] => []
  | value :: rest => members value ++ membersOf rest

end

theorem members_ne_nil (value : SqlValue) : members value ≠ [] := by
  match value with
  | .null | .bool _ | .int _ | .float _ | .text _ | .timestamp _ | .list [] =>
      exact List.cons_ne_nil _ _
  | .list (first :: rest) =>
      rw [members, membersOf]
      exact List.append_ne_nil_of_left_ne_nil (members_ne_nil first) _

mutual

theorem isScalar_of_mem_members {value : SqlValue} {scalar : SqlValue}
    (member : some scalar ∈ members value) : scalar.IsScalar := by
  match value with
  | .null | .list [] => cases List.mem_singleton.mp member
  | .bool _ | .int _ | .float _ | .text _ | .timestamp _ =>
      obtain rfl := Option.some.inj (List.mem_singleton.mp member)
      exact ⟨nofun, nofun⟩
  | .list (first :: rest) => exact isScalar_of_mem_membersOf member

theorem isScalar_of_mem_membersOf {values : List SqlValue} {scalar : SqlValue}
    (member : some scalar ∈ membersOf values) : scalar.IsScalar := by
  match values with
  | [] => cases member
  | first :: rest =>
      rcases List.mem_append.mp member with of_first | of_rest
      · exact isScalar_of_mem_members of_first
      · exact isScalar_of_mem_membersOf of_rest

end

mutual

/-- The values that are sent for a value are its scalar members. -/
theorem scalars_eq (value : SqlValue) : scalars value = (members value).reduceOption := by
  match value with
  | .null | .bool _ | .int _ | .float _ | .text _ | .timestamp _ | .list [] => rfl
  | .list (first :: rest) => exact scalarsOf_eq (first :: rest)

theorem scalarsOf_eq (values : List SqlValue) :
    scalarsOf values = (membersOf values).reduceOption := by
  match values with
  | [] => rfl
  | first :: rest =>
      rw [scalarsOf, membersOf, List.reduceOption_append, scalars_eq first, scalarsOf_eq rest]

end

/-! ## Places -/

/-- The text in the place of a member: a placeholder or the word `null`. -/
def placeText : Option Nat → String
  | some number => "$" ++ toString number
  | none => "null"

/-- The texts of places in a row. -/
def placesText (places : List (Option Nat)) : String :=
  join ", " (places.map placeText)

mutual

/-- The placeholders of a value are those of its members. -/
theorem placeholders_eq (taken : Nat) (value : SqlValue) :
    placeholders taken value = placesText (numberFrom (taken + 1) (members value)) := by
  match value with
  | .null | .bool _ | .int _ | .float _ | .text _ | .timestamp _ | .list [] => rfl
  | .list (first :: rest) =>
      obtain ⟨groups, groups_eq, flat, filled⟩ := exists_groups_of_placeholdersOf taken (first :: rest)
      rw [placeholders, groups_eq, join_flatten ", " filled, flat]
      rfl

theorem exists_groups_of_placeholdersOf (taken : Nat) (values : List SqlValue) :
    ∃ groups : List (List String), placeholdersOf taken values = groups.map (join ", ") ∧
      groups.flatten = (numberFrom (taken + 1) (membersOf values)).map placeText ∧
      ∀ group ∈ groups, group ≠ [] := by
  match values with
  | [] => exact ⟨[], rfl, rfl, nofun⟩
  | first :: rest =>
      obtain ⟨groups, groups_eq, flat, filled⟩ :=
        exists_groups_of_placeholdersOf (taken + (scalars first).length) rest
      refine ⟨(numberFrom (taken + 1) (members first)).map placeText :: groups, ?_, ?_,
        List.forall_mem_cons.mpr ⟨?_, filled⟩⟩
      · rw [placeholdersOf, placeholders_eq taken first, groups_eq]
        rfl
      · rw [List.flatten_cons, flat, scalars_eq, membersOf, numberFrom_append, List.map_append,
          Nat.add_right_comm]
      · exact List.map_eq_nil_iff.not.mpr (numberFrom_ne_nil _ (members_ne_nil first))

end

/-! ## Names in the order of their first references -/

section

variable {params : Params} {names : List String} {name : String}

/-- The members of the value of a name, if it has one. -/
def membersAt (params : Params) (name : String) : List (Option SqlValue) :=
  ((Order.find? name params).map members).getD []

/-- The values that are sent for names. -/
def sent (params : Params) (names : List String) : List SqlValue :=
  names.flatMap fun name => (membersAt params name).reduceOption

/-- The placeholders of a name, when names are numbered in the given order. -/
def placesAt (params : Params) (names : List String) (name : String) : List (Option Nat) :=
  numberFrom ((sent params (names.takeWhile (· ≠ name))).length + 1) (membersAt params name)

theorem isScalar_of_mem_sent {value : SqlValue} (member : value ∈ sent params names) :
    value.IsScalar := by
  obtain ⟨name, -, at_name⟩ := List.mem_flatMap.mp member
  have scalar := List.reduceOption_mem_iff.mp at_name
  rw [membersAt] at scalar
  cases found : Order.find? name params with
  | none =>
      rw [found] at scalar
      cases scalar
  | some whole =>
      rw [found] at scalar
      exact isScalar_of_mem_members scalar

theorem sent_append (params : Params) (names more : List String) :
    sent params (names ++ more) = sent params names ++ sent params more :=
  List.flatMap_append

/-- Names that come later do not change the placeholders of a name. -/
theorem placesAt_append (params : Params) (member : name ∈ names) (more : List String) :
    placesAt params (names ++ more) name = placesAt params names name := by
  have same : (names ++ more).takeWhile (· ≠ name) = names.takeWhile (· ≠ name) := by
    induction names with
    | nil => cases member
    | cons first rest induction =>
        by_cases is_name : first = name
        · simp [is_name]
        · have in_rest := (List.mem_cons.mp member).resolve_left (Ne.symm is_name)
          simpa [is_name] using induction in_rest
  rw [placesAt, same, placesAt]

/-- A new name is numbered on from those before it. -/
theorem placesAt_concat (params : Params) (is_new : name ∉ names) :
    placesAt params (names ++ [name]) name =
      numberFrom ((sent params names).length + 1) (membersAt params name) := by
  have others : ∀ other ∈ names, decide (other ≠ name) = true := fun other member =>
    decide_eq_true fun same => is_new (same ▸ member)
  rw [placesAt, List.takeWhile_append_of_pos others]
  simp

/-- The numbers of all names in order. -/
theorem flatMap_placesAt (params : Params) (nodup : names.Nodup) :
    (names.flatMap fun name => (placesAt params names name).reduceOption) =
      List.range' 1 (sent params names).length := by
  induction names using List.reverseRecOn with
  | nil => rfl
  | append_singleton names name induction =>
      have is_new : name ∉ names := fun is_old =>
        (List.nodup_append.mp nodup).2.2 name is_old name List.mem_cons_self rfl
      have before : (names.flatMap fun other =>
          (placesAt params (names ++ [name]) other).reduceOption) =
            names.flatMap fun other => (placesAt params names other).reduceOption :=
        List.flatMap_congr fun other member => by rw [placesAt_append params member]
      rw [List.flatMap_append, before, induction nodup.of_append_left, List.flatMap_singleton,
        placesAt_concat params is_new, reduceOption_numberFrom, sent_append, List.length_append,
        Nat.add_comm (sent params names).length 1, List.range'_append_1]
      simp [sent]

/-! ## Runs -/

/-- What has been bound when some names have been referred to. -/
structure BindState.Follows (params : Params) (names : List String) (state : BindState) : Prop where
  /-- What is sent are the values of the names. -/
  binds : state.binds = sent params names
  /-- The names have their placeholders. -/
  known : ∀ name, Order.find? name state.known =
    if name ∈ names then some (placesText (placesAt params names name)) else none

theorem BindState.follows_empty (params : Params) : BindState.Follows params [] ⟨[], []⟩ where
  binds := rfl
  known _ := rfl

/-- A reference to a value is written out with the placeholders of the name. -/
theorem BindState.Follows.bindName {state : BindState} {done : List String}
    (follows : state.Follows params done.eraseDups) {value : SqlValue}
    (found : Order.find? name params = some value) :
    ∃ next, bindName params state name =
        .ok (placesText (placesAt params (done ++ [name]).eraseDups name), next) ∧
      BindState.Follows params (done ++ [name]).eraseDups next := by
  rw [Statement.bindName, follows.known, Order.eraseDups_concat]
  by_cases is_old : name ∈ done
  · simp only [List.mem_eraseDups, if_pos is_old]
    exact ⟨state, rfl, follows⟩
  · have is_new : name ∉ done.eraseDups := fun member => is_old (List.mem_eraseDups.mp member)
    have at_name : membersAt params name = members value := by rw [membersAt, found]; rfl
    have text_eq : placeholders state.binds.length value =
        placesText (placesAt params (done.eraseDups ++ [name]) name) := by
      rw [placeholders_eq, follows.binds, placesAt_concat params is_new, at_name]
    simp only [List.mem_eraseDups, if_neg is_old, found, text_eq]
    refine ⟨_, rfl, ?_, fun other => ?_⟩
    · rw [follows.binds, sent_append, scalars_eq, sent, sent, List.flatMap_singleton, at_name]
    · rw [Order.find?, follows.known]
      by_cases is_name : other = name
      · subst is_name
        simp
      · by_cases member : other ∈ done.eraseDups
        · simp [is_name, member, placesAt_append params member]
        · simp [is_name, member]

/-- The text in the place of a token. -/
def Token.shown (places : String → List (Option Nat)) : Token → String
  | .reference name => placesText (places (String.ofList name))
  | token => String.ofList token.chars

/-- The names that tokens refer to, in order. -/
def referred (tokens : List Token) : List String :=
  tokens.filterMap Token.name?

/-- Tokens are written out with the placeholders of all names that are referred to. -/
theorem BindState.Follows.bindTokens {state : BindState} {done : List String}
    (follows : state.Follows params done.eraseDups) {tokens : List Token}
    (bound : ∀ name ∈ referred tokens, ∃ value, Order.find? name params = some value) :
    bindTokens params state tokens =
      .ok (tokens.map (Token.shown (placesAt params (done ++ referred tokens).eraseDups)),
        sent params (done ++ referred tokens).eraseDups) := by
  induction tokens generalizing state done with
  | nil =>
      rw [referred, List.filterMap_nil, List.append_nil, ← follows.binds]
      rfl
  | cons token rest induction =>
      cases token with
      | literal | cast | char =>
          rw [bindTokens_cons_of_silent params state rfl, induction follows bound]
          rfl
      | reference chars =>
          obtain ⟨of_name, of_rest⟩ := List.forall_mem_cons.mp bound
          obtain ⟨value, found⟩ := of_name
          obtain ⟨next, name_eq, next_follows⟩ := follows.bindName found
          have rest_eq := induction next_follows of_rest
          rw [List.append_assoc, List.singleton_append] at rest_eq
          have referred_eq : referred (.reference chars :: rest) =
              String.ofList chars :: referred rest := rfl
          -- The names behind this one do not change its placeholders.
          have shown_eq : placesText (placesAt params (done ++ [String.ofList chars]).eraseDups
              (String.ofList chars)) =
                Token.shown (placesAt params (done ++ referred (.reference chars :: rest)).eraseDups)
                  (.reference chars) := by
            have more : done ++ referred (.reference chars :: rest) =
                (done ++ [String.ofList chars]) ++ referred rest := by
              rw [referred_eq, List.append_assoc, List.singleton_append]
            have later : ((done ++ [String.ofList chars]) ++ referred rest).eraseDups =
                (done ++ [String.ofList chars]).eraseDups ++ _ := List.eraseDups_append
            have known : String.ofList chars ∈ (done ++ [String.ofList chars]).eraseDups :=
              List.mem_eraseDups.mpr (List.mem_append_right done List.mem_cons_self)
            rw [Token.shown, more, later, placesAt_append params known]
          rw [referred_eq] at shown_eq ⊢
          simp [Statement.bindTokens, name_eq, rest_eq, shown_eq, Bind.bind, Except.bind]

theorem bindTokens_of_bound {tokens : List Token}
    (bound : ∀ name ∈ referred tokens, ∃ value, Order.find? name params = some value) :
    Statement.bindTokens params ⟨[], []⟩ tokens =
      .ok (tokens.map (Token.shown (placesAt params (referred tokens).eraseDups)),
        sent params (referred tokens).eraseDups) := by
  have follows : BindState.Follows params [].eraseDups ⟨[], []⟩ := BindState.follows_empty params
  exact follows.bindTokens bound

end

/-! ## Faithful statements -/

/-- Whether a place stands for a member: the word `null` for no value, and a placeholder for the value
that is sent under its number. -/
inductive StandsFor (binds : List SqlValue) : Option Nat → Option SqlValue → Prop where
  /-- No value. -/
  | none : StandsFor binds none none
  /-- The values that are sent are numbered from one on. -/
  | some {index : Nat} {value : SqlValue} (at_index : binds[index]? = some value) :
      StandsFor binds (some (index + 1)) (some value)

/-- Whether a statement is made of tokens with the given places for the names they refer to. -/
structure Faithful (params : Params) (tokens : List Token) (places : String → List (Option Nat))
    (bound : Bound) : Prop where
  /-- References are replaced by the places of their names, and nothing else is changed. -/
  sql : bound.sql = String.join (tokens.map (Token.shown places))
  /-- The places of a name stand for the members of its value. -/
  values : ∀ name ∈ referred tokens, ∃ value, Order.find? name params = some value ∧
    List.Forall₂ (StandsFor bound.binds) (places name) (members value)
  /-- The numbers come up in order, as many as there are values that are sent. -/
  numbers : ((referred tokens).flatMap fun name => (places name).reduceOption).eraseDups =
    List.range' 1 bound.binds.length
  /-- Neither nulls nor lists are sent. -/
  scalars : ∀ value ∈ bound.binds, value.IsScalar
  /-- There is nothing left to bind. -/
  settled : Statement.bind bound.sql [] = .ok ⟨bound.sql, []⟩

section

variable {params : Params} {names : List String} {name : String} {tokens : List Token}

theorem forall₂_standsFor (before : List SqlValue) (found : List (Option SqlValue))
    (after : List SqlValue) :
    List.Forall₂ (StandsFor (before ++ found.reduceOption ++ after))
      (numberFrom (before.length + 1) found) found := by
  induction found generalizing before with
  | nil => exact .nil
  | cons member rest induction =>
      cases member with
      | none => exact .cons .none (induction before)
      | some scalar =>
          have rest_places := induction (before ++ [scalar])
          have all_eq : (before ++ [scalar]) ++ rest.reduceOption ++ after =
              before ++ (some scalar :: rest).reduceOption ++ after := by
            simp [List.reduceOption_cons_of_some]
          rw [List.length_append, List.length_singleton, all_eq] at rest_places
          refine .cons (.some ?_) rest_places
          simp [List.reduceOption_cons_of_some]

/-- The placeholders of a name stand for the members of its value. -/
theorem standsFor_placesAt {value : SqlValue} (member : name ∈ names)
    (found : Order.find? name params = some value) :
    List.Forall₂ (StandsFor (sent params names)) (placesAt params names name) (members value) := by
  obtain ⟨before, after, rfl, is_new⟩ := List.eq_append_cons_of_mem member
  have at_name : membersAt params name = members value := by rw [membersAt, found]; rfl
  have sent_eq : sent params (before ++ name :: after) =
      sent params before ++ (members value).reduceOption ++ sent params after := by
    rw [← List.singleton_append, sent_append, sent_append, List.append_assoc,
      sent.eq_def params [name], List.flatMap_singleton, at_name]
  have places_eq : placesAt params (before ++ name :: after) name =
      numberFrom ((sent params before).length + 1) (members value) := by
    rw [List.append_cons, placesAt_append params (List.mem_append_right _ List.mem_cons_self),
      placesAt_concat params is_new, at_name]
  rw [sent_eq, places_eq]
  exact forall₂_standsFor _ _ _

private theorem plain_of_checked {text : List Char} {char : Char}
    (checked : (text.all fun char => char != '\'' && char != ':') = true) (member : char ∈ text) :
    char ≠ '\'' ∧ char ≠ ':' := by
  simpa using List.all_eq_true.mp checked char member

/-- Placeholders have no marks of literals, casts or references. -/
theorem isPlain_placesText {places : List (Option Nat)} (filled : places ≠ []) :
    IsPlain (placesText places).toList := by
  have plain : ∀ char ∈ (placesText places).toList, char ≠ '\'' ∧ char ≠ ':' := by
    intro char member
    rcases mem_toList_join member with in_separator | ⟨text, text_mem, in_text⟩
    · exact plain_of_checked (by decide) in_separator
    · obtain ⟨place, -, rfl⟩ := List.mem_map.mp text_mem
      cases place with
      | none => exact plain_of_checked (by decide) in_text
      | some number =>
          rw [placeText, String.toList_append, List.mem_append] at in_text
          rcases in_text with in_sign | in_digits
          · exact plain_of_checked (by decide) in_sign
          · have digit := isDigit_of_mem_toString in_digits
            constructor <;> rintro rfl <;> exact absurd digit (by decide)
  refine ⟨?_, fun member => (plain _ member).1 rfl, fun member => (plain _ member).2 rfl⟩
  obtain ⟨place, others, rfl⟩ := List.exists_cons_of_ne_nil filled
  have text_filled : (placeText place).toList ≠ [] := by
    cases place with
    | none => decide
    | some number => simp [placeText]
  cases others with
  | nil => exact text_filled
  | cons next rest =>
      rw [placesText, List.map_cons, join_cons_of_ne_nil _ _ (by simp)]
      simp only [String.toList_append, List.append_assoc]
      exact List.append_ne_nil_of_left_ne_nil text_filled _

/-- A text that refers to nothing is left as it is. -/
theorem bind_of_referred_eq_nil {text : String} (cut : Cut text.toList tokens)
    (silent : referred tokens = []) (params : Params) :
    Statement.bind text params = .ok ⟨text, []⟩ := by
  have bound : ∀ name ∈ referred tokens, ∃ value, Order.find? name params = some value :=
    fun name member => absurd (silent ▸ member) List.not_mem_nil
  have tokens_eq := bindTokens_of_bound bound
  have text_eq : String.join (tokens.map (Token.shown (placesAt params []))) = text := by
    apply String.toList_injective
    rw [String.toList_join, List.flatMap_map]
    refine (List.flatMap_congr fun token member => ?_).trans cut.flatMap_chars
    cases token with
    | reference name =>
        have named : String.ofList name ∈ referred tokens := List.mem_filterMap.mpr ⟨_, member, rfl⟩
        exact absurd (silent ▸ named) List.not_mem_nil
    | literal | cast | char => simp [Token.shown]
  rw [silent, List.eraseDups_nil] at tokens_eq
  rw [Statement.bind, ← cut.eq_tokens, tokens_eq, ← text_eq]
  rfl

/-- Tokens with plain texts in the place of references refer to nothing. -/
theorem referred_writeOut (tokens : List Token) (written : List Char → List Char) :
    referred (tokens.flatMap (Token.writeOut written)) = [] := by
  refine List.filterMap_eq_nil_iff.mpr fun token member => ?_
  obtain ⟨source, -, of_source⟩ := List.mem_flatMap.mp member
  cases source with
  | reference name =>
      obtain ⟨char, -, rfl⟩ := List.mem_map.mp of_source
      rfl
  | literal | cast | char =>
      obtain rfl := List.mem_singleton.mp of_source
      rfl

/-- The text in the place of a token, as characters. -/
theorem toList_shown (places : String → List (Option Nat)) (token : Token) :
    (token.shown places).toList =
      token.charsOut fun name => (placesText (places (String.ofList name))).toList := by
  cases token with
  | reference name => rw [charsOut_reference, Token.shown]
  | literal | cast | char => simp [Token.shown, Token.charsOut, Token.writeOut]

/-- A statement whose references have values is written out. -/
theorem bind_of_bound {sql : String} (cut : Cut sql.toList tokens)
    (bound : ∀ name ∈ referred tokens, ∃ value, Order.find? name params = some value) :
    Statement.bind sql params =
      .ok ⟨String.join (tokens.map (Token.shown (placesAt params (referred tokens).eraseDups))),
        sent params (referred tokens).eraseDups⟩ := by
  rw [Statement.bind, ← cut.eq_tokens, bindTokens_of_bound bound]
  rfl

/-- What a statement refers to is sent with it. -/
theorem subset_binds_of_mem_references {sql : String} {bound : Bound} {value : SqlValue}
    (bind_eq : Statement.bind sql params = .ok bound) (referenced : name ∈ references sql)
    (found : Order.find? name params = some value) : scalars value ⊆ bound.binds := by
  have all_bound : ∀ name ∈ references sql, ∃ value, Order.find? name params = some value :=
    fun name member => Option.isSome_iff_exists.mp
      (Order.find?_isSome_iff.mpr (exists_bind_iff.mp ⟨bound, bind_eq⟩ name member))
  obtain rfl := Except.ok.inj
    (bind_eq.symm.trans (bind_of_bound (cut_tokens sql.toList) all_bound))
  have scalars_sent : scalars value = (membersAt params name).reduceOption := by
    rw [membersAt, found, scalars_eq]
    rfl
  rw [scalars_sent]
  exact fun scalar member => List.mem_flatMap.mpr ⟨name, List.mem_eraseDups.mpr referenced, member⟩

/-- What has been written out refers to nothing. -/
theorem bind_join_shown {text : List Char} (cut : Cut text tokens)
    {places : String → List (Option Nat)} (filled : ∀ name ∈ referred tokens, places name ≠ [])
    (params : Params) :
    Statement.bind (String.join (tokens.map (Token.shown places))) params =
      .ok ⟨String.join (tokens.map (Token.shown places)), []⟩ := by
  have plain : ∀ name, .reference name ∈ tokens →
      IsPlain (placesText (places (String.ofList name))).toList := fun name member =>
    isPlain_placesText (filled _ (List.mem_filterMap.mpr ⟨_, member, rfl⟩))
  have text_eq : (String.join (tokens.map (Token.shown places))).toList =
      tokens.flatMap (Token.charsOut fun name => (placesText (places (String.ofList name))).toList) := by
    rw [String.toList_join, List.flatMap_map]
    exact List.flatMap_congr fun token _ => toList_shown places token
  exact bind_of_referred_eq_nil (text_eq ▸ cut.writeOut plain) (referred_writeOut tokens _) params

/-- Every statement is cut into tokens in one way. Binding fails if and only if one of its references
is one to no value, and what it gives otherwise is faithful. -/
theorem bind_faithful (sql : String) (params : Params) :
    ∃ tokens, (∀ found, Cut sql.toList found ↔ found = tokens) ∧
      ((∃ error, Statement.bind sql params = .error error) ↔
        ∃ name ∈ referred tokens, Order.find? name params = none) ∧
      ∀ bound, Statement.bind sql params = .ok bound →
        ∃ places, Faithful params tokens places bound := by
  have cut := cut_tokens sql.toList
  have has_value : ∀ name, name ∈ params.map (·.1) ↔ ∃ value, Order.find? name params = some value :=
    fun name => Order.find?_isSome_iff.symm.trans Option.isSome_iff_exists
  refine ⟨Statement.tokens sql.toList, fun found => cut_iff, ?_, fun bound bound_eq => ?_⟩
  · have failure : (∃ error, Statement.bind sql params = .error error) ↔
        ¬∃ bound, Statement.bind sql params = .ok bound := by
      cases Statement.bind sql params <;> simp
    have no_value : ∀ name, name ∉ params.map (·.1) ↔ Order.find? name params = none :=
      fun name => Order.find?_isSome_iff.not.symm.trans Option.not_isSome_iff_eq_none
    rw [failure, exists_bind_iff]
    simp only [not_forall, exists_prop, no_value]
    rfl
  · have all_bound : ∀ name ∈ referred (Statement.tokens sql.toList),
        ∃ value, Order.find? name params = some value :=
      fun name member => (has_value name).mp (exists_bind_iff.mp ⟨bound, bound_eq⟩ name member)
    obtain rfl := Except.ok.inj (bound_eq.symm.trans (bind_of_bound cut all_bound))
    have nodup := Order.nodup_eraseDups (referred (Statement.tokens sql.toList))
    have stands : ∀ name ∈ referred (Statement.tokens sql.toList), ∃ value,
        Order.find? name params = some value ∧ List.Forall₂
          (StandsFor (sent params (referred (Statement.tokens sql.toList)).eraseDups))
          (placesAt params (referred (Statement.tokens sql.toList)).eraseDups name)
          (members value) := by
      intro name member
      obtain ⟨value, found⟩ := all_bound name member
      exact ⟨value, found, standsFor_placesAt (List.mem_eraseDups.mpr member) found⟩
    refine ⟨_, rfl, stands, ?_, fun value member => ?_, bind_join_shown cut (fun name member => ?_) []⟩
    · rw [Order.eraseDups_flatMap, flatMap_placesAt params nodup]
      exact Order.eraseDups_of_nodup List.nodup_range'
    · exact isScalar_of_mem_sent member
    · obtain ⟨value, -, places⟩ := stands name member
      intro nothing
      rw [nothing] at places
      exact members_ne_nil value (List.forall₂_nil_left_iff.mp places)

theorem bind_faithful_nested_lists :
    ∃ tokens places,
      Cut ":a::text in (:ab, ':a''', :a) or :b = :_c :::".toList tokens ∧
      Faithful [("_c", .null), ("a", .list [.int 1, .null, .list [.text "x", .list []]]),
        ("ab", .bool true), ("b", .list [])] tokens places
        ⟨"$1, null, $2, null::text in ($3, ':a''', $1, null, $2, null) or null = null :::",
          [.int 1, .text "x", .bool true]⟩ := by
  obtain ⟨tokens, cut, -, faithful⟩ :=
    bind_faithful ":a::text in (:ab, ':a''', :a) or :b = :_c :::"
      [("_c", .null), ("a", .list [.int 1, .null, .list [.text "x", .list []]]),
        ("ab", .bool true), ("b", .list [])]
  obtain ⟨places, places_faithful⟩ := faithful _ (by cbv)
  exact ⟨tokens, places, (cut tokens).mpr rfl, places_faithful⟩

end

end Statement

end StationGateway
