import Mathlib
import StationGateway.Filter.Operator
import StationGateway.Proofs.Catalogue.Selector
import StationGateway.Proofs.Filter.WellFormed
import StationGateway.Proofs.Text.Join

/-!
# Where comparisons and refusals stand

Reading a filter goes forward through its text and never leaves it. So a refusal names a place of the
text, and the comparisons that have been read stand one after the other, each where the text spells
its key. -/

namespace StationGateway.Filter

open Text Outcome

/-- A place of a text that is not before `start`. -/
structure Cursor.Ahead (text : List Char) (start : Nat) (cursor : Cursor) : Prop where
  /-- The place is not before `start`. -/
  start_le : start ≤ cursor.position
  /-- The place is not behind the end. -/
  position_le : cursor.position ≤ text.length
  /-- What is ahead is what the text has from here on. -/
  rest_eq : cursor.rest = text.drop cursor.position

/-- An outcome of reading: a value with a property, or a refusal at a place of the text. -/
def Located {α : Type} (text : List Char) (holds : α → Prop) : Except SyntaxError α → Prop
  | .ok value => holds value
  | .error error => error.position ≤ text.length

/-- Comparisons that stand one after the other between two positions of a text. -/
structure Placed (text : List Char) (start stop : Nat) (clauses : List Clause) : Prop where
  /-- Each stands behind the ones before it. -/
  ascending : (clauses.map Clause.position).Pairwise (· < ·)
  /-- All of them stand between the two positions. -/
  between : ∀ clause ∈ clauses, start ≤ clause.position ∧ clause.position < stop
  /-- The text spells the key of each of them where it stands. -/
  spelled : ∀ clause ∈ clauses, clause.key.toList <+: text.drop clause.position

variable {text : List Char} {start : Nat} {cursor : Cursor}

/-! ## Places -/

namespace Cursor.Ahead

theorem of_position (ahead : cursor.Ahead text start) : cursor.Ahead text cursor.position :=
  ⟨Nat.le_refl _, ahead.position_le, ahead.rest_eq⟩

theorem mono {earlier : Nat} (ahead : cursor.Ahead text start) (le : earlier ≤ start) :
    cursor.Ahead text earlier :=
  ⟨Nat.le_trans le ahead.start_le, ahead.position_le, ahead.rest_eq⟩

theorem skip (ahead : cursor.Ahead text start) {count : Nat} (fits : count ≤ cursor.rest.length) :
    (cursor.skip count).Ahead text start := by
  have length_eq : cursor.rest.length = text.length - cursor.position := by
    rw [ahead.rest_eq, List.length_drop]
  have position_le := ahead.position_le
  refine ⟨?_, ?_, ?_⟩
  · exact Nat.le_trans ahead.start_le (Nat.le_add_right _ _)
  · simp only [Cursor.skip]
    omega
  · simp only [Cursor.skip, ahead.rest_eq, List.drop_drop]

theorem skipBlanks (ahead : cursor.Ahead text start) : cursor.skipBlanks.Ahead text start :=
  ahead.skip (List.takeWhile_prefix isBlank).length_le

theorem next (ahead : cursor.Ahead text start) {char : Char} {rest : List Char}
    (rest_eq : cursor.rest = char :: rest) :
    (Cursor.mk rest (cursor.position + 1)).Ahead text (cursor.position + 1) := by
  have fits : 1 ≤ cursor.rest.length := by simp [rest_eq]
  have skipped := ahead.of_position.skip fits
  refine ⟨Nat.le_refl _, skipped.position_le, ?_⟩
  have rest_skipped := skipped.rest_eq
  rwa [Cursor.skip, rest_eq, List.drop_one, List.tail_cons] at rest_skipped

theorem next_mono (ahead : cursor.Ahead text start) {char : Char} {rest : List Char}
    (rest_eq : cursor.rest = char :: rest) :
    (Cursor.mk rest (cursor.position + 1)).Ahead text start :=
  (ahead.next rest_eq).mono (Nat.le_trans ahead.start_le (Nat.le_succ _))

end Cursor.Ahead

namespace Located

variable {α β : Type} {holds : α → Prop}

theorem mono {weaker : α → Prop} {outcome : Except SyntaxError α}
    (located : Located text holds outcome) (weaken : ∀ value, holds value → weaker value) :
    Located text weaker outcome := by
  cases outcome with
  | ok value => exact weaken value located
  | error error => exact located

theorem bind {after : β → Prop} {first : Except SyntaxError α} {next : α → Except SyntaxError β}
    (located : Located text holds first)
    (located_next : ∀ value, holds value → Located text after (next value)) :
    Located text after (first >>= next) := by
  cases first with
  | ok value => exact located_next value located
  | error error => exact located

theorem refuse (ahead : cursor.Ahead text start) (reason : SyntaxReason) :
    Located text holds (cursor.refuse reason) :=
  ahead.position_le

end Located

theorem located_expect (ahead : cursor.Ahead text start) (sign : Char) :
    Located text (Cursor.Ahead text (cursor.position + 1)) (cursor.expect sign) := by
  rw [Cursor.expect]
  split
  next rest_eq =>
    split
    · exact ahead.next rest_eq
    · exact .refuse ahead _
  next => exact .refuse ahead _

/-! ## Values -/

theorem located_readQuoted {quote : Char} {opening : Nat} (opening_le : opening ≤ text.length)
    (seen : List Char) {position : Nat} {rest : List Char}
    (ahead : (Cursor.mk rest position).Ahead text start) :
    Located text (fun result => result.2.Ahead text start)
      (readQuoted quote opening seen position rest) := by
  fun_induction readQuoted quote opening seen position rest with
  | case1 seen position => exact opening_le
  | case2 seen position => exact (ahead.next rfl).position_le
  | case3 seen position char rest induction => exact induction ((ahead.next_mono rfl).next_mono rfl)
  | case4 seen position rest => exact ahead.next_mono rfl
  | case5 seen position char rest _ _ _ induction => exact induction (ahead.next_mono rfl)

theorem located_readBareChars (seen : List Char) (escaped : Bool) {position : Nat}
    {rest : List Char} (ahead : (Cursor.mk rest position).Ahead text start) :
    Located text (fun result => result.2.Ahead text start)
      (readBareChars seen escaped position rest) := by
  fun_induction readBareChars seen escaped position rest with
  | case1 seen escaped position => exact ahead
  | case2 seen escaped position => exact (ahead.next rfl).position_le
  | case3 seen escaped position char rest induction =>
      exact induction ((ahead.next_mono rfl).next_mono rfl)
  | case4 => exact ahead
  | case5 => exact ahead.position_le
  | case6 seen escaped position char rest _ _ _ _ induction => exact induction (ahead.next_mono rfl)

theorem located_readBare (ahead : cursor.Ahead text start) :
    Located text (fun result => result.2.Ahead text start) (readBare cursor) := by
  refine (located_readBareChars [] false ahead).bind fun ((seen, escaped), next) ahead_next => ?_
  simp only
  split
  · exact .refuse ahead _
  · split
    · exact ahead_next
    · exact ahead_next

theorem located_readQuotedLiteral (quote : Char) (ahead : cursor.Ahead text start) {char : Char}
    {rest : List Char} (rest_eq : cursor.rest = char :: rest) :
    Located text (fun result => result.2.Ahead text start) (readQuotedLiteral quote cursor) := by
  have ahead_rest := ahead.next_mono rest_eq
  rw [readQuotedLiteral, rest_eq, List.drop_one, List.tail_cons]
  refine (located_readQuoted ahead.position_le [] ahead_rest).bind fun (literal, next) ahead_next => ?_
  have ahead_end := ahead_next.skipBlanks
  simp only
  split
  · exact ahead_end
  · split
    · exact ahead_end
    · exact .refuse ahead_end _

theorem located_readLiteral (ahead : cursor.Ahead text start) :
    Located text (fun result => result.2.Ahead text start) (readLiteral cursor) := by
  have ahead_value := ahead.skipBlanks
  simp only [readLiteral]
  split
  next rest_eq => exact located_readQuotedLiteral '\'' ahead_value rest_eq
  next rest_eq => exact located_readQuotedLiteral '"' ahead_value rest_eq
  next => exact located_readBare ahead_value

theorem located_readMoreLiterals (budget : Nat) (seen : List Literal)
    (ahead : cursor.Ahead text start) :
    Located text (fun result => result.2.Ahead text start)
      (readMoreLiterals budget seen cursor) := by
  induction budget generalizing seen cursor with
  | zero => exact .refuse ahead _
  | succ budget induction =>
      rw [readMoreLiterals]
      split
      next rest_eq =>
        refine (located_readLiteral (ahead.next_mono rest_eq)).bind fun found ahead_next => ?_
        exact induction (found.1 :: seen) ahead_next
      next rest_eq => exact ahead.next_mono rest_eq
      next => exact .refuse ahead _
      next => exact .refuse ahead _

theorem located_readOperand (ahead : cursor.Ahead text start) :
    Located text (fun result => result.2.Ahead text start) (readOperand cursor) := by
  rw [readOperand]
  split
  next rest_eq =>
    refine (located_readLiteral (ahead.next_mono rest_eq)).bind fun first ahead_next => ?_
    refine (located_readMoreLiterals _ [first.1] ahead_next).bind fun others ahead_last => ?_
    exact ahead_last
  next =>
    refine (located_readLiteral ahead).bind fun value ahead_next => ?_
    exact ahead_next

/-! ## Comparisons -/

theorem ahead_word (ahead : cursor.Ahead text start) {found : String} {next : Cursor}
    (read : word cursor = (found, next)) : next.Ahead text start := by
  have next_eq : cursor.skip (cursor.rest.takeWhile isWordChar).length = next :=
    congrArg Prod.snd read
  rw [← next_eq]
  exact ahead.skip (List.takeWhile_prefix isWordChar).length_le

theorem located_readSegments (isOperator : String → Bool) (budget : Nat) (seen : List String)
    (ahead : cursor.Ahead text start) :
    Located text (fun result => result.2.Ahead text start)
      (readSegments isOperator budget seen cursor) := by
  induction budget generalizing seen cursor with
  | zero => exact .refuse ahead _
  | succ budget induction =>
      rw [readSegments]
      refine (located_expect ahead '.').bind fun place ahead_place => ?_
      have ahead_segment : place.Ahead text start :=
        ahead_place.mono (Nat.le_trans ahead.start_le (Nat.le_succ _))
      rcases read : word place with ⟨segment, next⟩
      have ahead_next := ahead_word ahead_segment read
      simp only
      split
      · exact .refuse ahead_segment _
      · split
        next rest_eq =>
          split
          · exact ahead_next.next_mono rest_eq
          · exact induction (segment :: seen) ahead_next
        next => exact .refuse ahead_segment _

theorem Placed.of_clause {clause : Clause} {stop : Nat} (start_le : start ≤ clause.position)
    (lt_stop : clause.position < stop) (spelled : clause.key.toList <+: text.drop clause.position) :
    Placed text start stop [clause] := by
  refine ⟨List.pairwise_singleton _ _, fun other member => ?_, fun other member => ?_⟩
  · rw [List.mem_singleton.mp member]
    exact ⟨start_le, lt_stop⟩
  · rw [List.mem_singleton.mp member]
    exact spelled

theorem located_readClause (isOperator : String → Bool) {key : String} {position : Nat}
    (start_le : start ≤ position) (lt : position < cursor.position)
    (spelled : key.toList <+: text.drop position) (ahead : cursor.Ahead text start) :
    Located text
      (fun result => result.2.Ahead text start ∧
        Placed text start result.2.position result.1.clauses)
      (readClause isOperator key position cursor) := by
  rw [readClause]
  refine (located_readSegments isOperator _ [] ahead.of_position).bind fun segments ahead_next => ?_
  refine (located_readOperand ahead_next).bind fun operand ahead_last => ?_
  refine ⟨ahead_last.mono ahead.start_le, ?_⟩
  exact .of_clause start_le (Nat.lt_of_lt_of_le lt ahead_last.start_le) spelled

/-! ## Parts -/

theorem Placed.append {first others : List Clause} {middle later stop : Nat}
    (placed_first : Placed text start middle first) (placed_others : Placed text later stop others)
    (start_le : start ≤ later) (middle_le : middle ≤ later) (later_le : later ≤ stop) :
    Placed text start stop (first ++ others) := by
  refine ⟨?_, fun clause member => ?_, fun clause member => ?_⟩
  · rw [List.map_append, List.pairwise_append]
    refine ⟨placed_first.ascending, placed_others.ascending, ?_⟩
    intro position first_mem other other_mem
    obtain ⟨clause, clause_mem, rfl⟩ := List.mem_map.mp first_mem
    obtain ⟨next, next_mem, rfl⟩ := List.mem_map.mp other_mem
    have before := (placed_first.between clause clause_mem).2
    have after := (placed_others.between next next_mem).1
    omega
  · rcases List.mem_append.mp member with in_first | in_others
    · have between := placed_first.between clause in_first
      omega
    · have between := placed_others.between clause in_others
      omega
  · rcases List.mem_append.mp member with in_first | in_others
    · exact placed_first.spelled clause in_first
    · exact placed_others.spelled clause in_others

theorem Placed.mono {clauses : List Clause} {stop later : Nat}
    (placed : Placed text start stop clauses) (le : stop ≤ later) :
    Placed text start later clauses := by
  refine ⟨placed.ascending, fun clause member => ?_, placed.spelled⟩
  exact ⟨(placed.between clause member).1, Nat.lt_of_lt_of_le (placed.between clause member).2 le⟩

/-- The word that begins at a place is the beginning of what the text has from there on. -/
theorem spelled_word (ahead : cursor.Ahead text start) {key : String} {next : Cursor}
    (read : word cursor = (key, next)) : key.toList <+: text.drop cursor.position := by
  have key_eq : key = String.ofList (cursor.rest.takeWhile isWordChar) :=
    (congrArg Prod.fst read).symm
  rw [key_eq, String.toList_ofList, ← ahead.rest_eq]
  exact List.takeWhile_prefix isWordChar

theorem position_lt_of_word {key : String} {next : Cursor} (read : word cursor = (key, next))
    (key_ne : key ≠ "") : cursor.position < next.position := by
  have key_eq : key = String.ofList (cursor.rest.takeWhile isWordChar) :=
    (congrArg Prod.fst read).symm
  have next_eq : next = cursor.skip (cursor.rest.takeWhile isWordChar).length :=
    (congrArg Prod.snd read).symm
  have letters_ne : cursor.rest.takeWhile isWordChar ≠ [] := by
    intro nothing
    rw [nothing] at key_eq
    exact key_ne key_eq
  have count_pos := List.length_pos_iff.mpr letters_ne
  rw [next_eq, Cursor.skip]
  simp only
  omega

mutual

theorem located_readPart (isOperator : String → Bool) (budget : Nat) {start : Nat} {cursor : Cursor}
    (ahead : cursor.Ahead text start) :
    Located text
      (fun result => result.2.Ahead text start ∧
        Placed text start result.2.position result.1.clauses)
      (readPart isOperator budget cursor) := by
  cases budget with
  | zero => exact .refuse ahead _
  | succ budget =>
      rw [readPart]
      have ahead_key := ahead.skipBlanks
      rcases key_read : word cursor.skipBlanks with ⟨key, next⟩
      have ahead_next := ahead_word ahead_key key_read
      simp only
      split
      · exact .refuse ahead_key _
      next key_ne =>
        have key_lt := position_lt_of_word key_read key_ne
        have clause_located := located_readClause isOperator ahead_key.start_le key_lt
          (spelled_word ahead_key key_read) ahead_next
        split
        next rest_eq =>
          split
          · have parts_located := located_readParts isOperator budget (ahead_next.next_mono rest_eq)
            refine parts_located.bind fun parts parts_placed => ?_
            obtain ⟨ahead_last, placed⟩ := parts_placed
            have ahead_end := ahead_last.of_position.skipBlanks
            refine (located_expect ahead_end ')').bind fun closed ahead_closed => ?_
            have last_le : parts.2.position ≤ closed.position :=
              Nat.le_trans ahead_end.start_le (Nat.le_of_succ_le ahead_closed.start_le)
            refine ⟨ahead_closed.of_position.mono (Nat.le_trans ahead_last.start_le last_le), ?_⟩
            split
            · exact placed.mono last_le
            · exact placed.mono last_le
          · exact clause_located
        · exact clause_located

theorem located_readParts (isOperator : String → Bool) (budget : Nat) {start : Nat} {cursor : Cursor}
    (ahead : cursor.Ahead text start) :
    Located text
      (fun result => result.2.Ahead text start ∧
        Placed text start result.2.position (clausesOf result.1))
      (readParts isOperator budget cursor) := by
  cases budget with
  | zero => exact .refuse ahead _
  | succ budget =>
      rw [readParts]
      refine (located_readPart isOperator budget ahead).bind fun first first_placed => ?_
      obtain ⟨ahead_next, placed⟩ := first_placed
      have ahead_end := ahead_next.of_position.skipBlanks
      simp only
      split
      next rest_eq =>
        have ahead_others := ahead_end.next rest_eq
        refine (located_readParts isOperator budget ahead_others).bind fun others others_placed => ?_
        obtain ⟨ahead_last, placed_others⟩ := others_placed
        have next_le := ahead_end.start_le
        have others_le := ahead_last.start_le
        have start_le := ahead_next.start_le
        refine ⟨ahead_last.mono (by omega), ?_⟩
        exact placed.append placed_others (by omega) (by omega) others_le
      · refine ⟨ahead_end.mono ahead_next.start_le, ?_⟩
        rw [clausesOf, clausesOf, List.append_nil]
        exact placed.mono ahead_end.start_le

end

theorem located_read (isOperator : String → Bool) (text : List Char) :
    Located text (fun result => ∀ filter ∈ result, Placed text 0 (text.length + 1) filter.clauses)
      (read isOperator text) := by
  rw [read]
  split
  · simp [Located]
  · have ahead : (Cursor.mk text 0).Ahead text 0 := ⟨Nat.le_refl 0, Nat.zero_le _, rfl⟩
    refine (located_readParts isOperator _ ahead).bind fun parts parts_placed => ?_
    obtain ⟨ahead_next, placed⟩ := parts_placed
    have stop_le : parts.2.position ≤ text.length + 1 := Nat.le_succ_of_le ahead_next.position_le
    simp only
    split
    · exact .refuse ahead_next.skipBlanks _
    · split
      next part parts_eq =>
        rw [parts_eq, clausesOf, clausesOf, List.append_nil] at placed
        simpa [Located] using placed.mono stop_le
      next => simpa [Located, clauses] using placed.mono stop_le

theorem isBlankText_of_read {isOperator : String → Bool} {text : List Char}
    (nothing : read isOperator text = .ok none) : isBlankText text = true := by
  rw [read] at nothing
  split at nothing
  next blank => exact blank
  next =>
    obtain ⟨parts, _, read_rest⟩ := bind_eq_ok_iff.mp nothing
    simp only at read_rest
    split at read_rest
    · simp [Cursor.refuse] at read_rest
    · split at read_rest
      · simp at read_rest
      · simp at read_rest

/-- A word is not spelled at the end of a text. -/
theorem position_lt_of_spelled {key : String} {position : Nat} (is_word : IsWord key)
    (spelled : key.toList <+: text.drop position) : position < text.length := by
  have key_ne : key.toList ≠ [] := fun nothing => is_word.1 (String.toList_eq_nil_iff.mp nothing)
  have key_pos := List.length_pos_iff.mpr key_ne
  have key_le := spelled.length_le
  rw [List.length_drop] at key_le
  omega

/-! ## Paths -/

theorem point_notMem_of_isWord {text : String} (is_word : IsWord text) : '.' ∉ text.toList := by
  intro member
  exact absurd (is_word.2 '.' member) (by decide)

mutual

theorem WellFormed.of_mem_clauses {isOperator : String → Bool} {filter : Filter}
    (well_formed : filter.WellFormed isOperator) {clause : Clause}
    (member : clause ∈ filter.clauses) : clause.WellFormed isOperator := by
  cases filter with
  | all parts => exact AllWellFormed.of_mem_clausesOf well_formed.2 member
  | any parts => exact AllWellFormed.of_mem_clausesOf well_formed.2 member
  | clause comparison =>
      rw [List.mem_singleton.mp member]
      exact well_formed

theorem AllWellFormed.of_mem_clausesOf {isOperator : String → Bool} {parts : List Filter}
    (well_formed : AllWellFormed isOperator parts) {clause : Clause}
    (member : clause ∈ clausesOf parts) : clause.WellFormed isOperator := by
  cases parts with
  | nil => cases member
  | cons part rest =>
      rcases List.mem_append.mp member with in_part | in_rest
      · exact WellFormed.of_mem_clauses well_formed.1 in_part
      · exact AllWellFormed.of_mem_clausesOf well_formed.2 in_rest

end

/-- The segments between the points of a dotted path are words that name no operators. -/
theorem Clause.WellFormed.segments {isOperator : String → Bool} {clause : Clause}
    (well_formed : clause.WellFormed isOperator) {path segment : String}
    (dotted : clause.dottedPath = some path) (member : segment ∈ pieces '.' path) :
    IsWord segment ∧ isOperator segment = false := by
  rw [Clause.dottedPath] at dotted
  split at dotted
  · cases dotted
  next filled =>
    obtain rfl := Option.some.inj dotted
    have no_point : ∀ other ∈ clause.path, '.' ∉ other.toList := fun other other_mem =>
      point_notMem_of_isWord (well_formed.path other other_mem).1
    rw [pieces_join rfl (by simpa using filled) no_point] at member
    exact well_formed.path segment member

/-- Whatever is read from a text is well-formed, stands in its order in the text, and has nothing but
words in its paths; and every refusal is one of the text's syntax, at a place of it. -/
theorem parse_sound (table : OperatorTable) (text : String) :
    match parse table.isName text with
    | .ok none => isBlankText text.toList = true
    | .ok (some filter) =>
        filter.WellFormed table.isName ∧
          (filter.clauses.map Clause.position).Pairwise (· < ·) ∧
          ∀ clause ∈ filter.clauses,
            clause.position < text.length ∧
              clause.key.toList <+: text.toList.drop clause.position ∧
              ∀ path ∈ clause.dottedPath, ∀ segment ∈ pieces '.' path,
                IsWord segment ∧ table.isName segment = false
    | .error error =>
        ∃ position reason, error = .filterSyntax position reason ∧ position ≤ text.length := by
  have located := located_read table.isName text.toList
  cases outcome : read table.isName text.toList with
  | error error =>
      rw [outcome] at located
      rw [parse, outcome]
      exact ⟨error.position, error.reason.message, rfl, located⟩
  | ok found =>
      rw [outcome] at located
      have parsed : parse table.isName text = .ok found := by
        rw [parse, outcome]
        rfl
      rw [parsed]
      cases found with
      | none => exact isBlankText_of_read outcome
      | some filter =>
          have placed := located filter rfl
          have well_formed := wellFormed_of_parse parsed
          refine ⟨well_formed, placed.ascending, fun clause member => ?_⟩
          have clause_fine := well_formed.of_mem_clauses member
          have spelled := placed.spelled clause member
          refine ⟨position_lt_of_spelled clause_fine.key spelled, spelled, ?_⟩
          exact fun path dotted segment => clause_fine.segments dotted

end StationGateway.Filter
