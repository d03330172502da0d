import StationGateway.Proofs.Expansion.Meaning
import StationGateway.Proofs.Expansion.Stages
import StationGateway.Proofs.Order.Entries
import StationGateway.Proofs.Recipe.Stages
import StationGateway.Proofs.Sql.Conjunct

/-!
# Guarded rows

Every branch of a query for measurements or events has the access rule among its conditions, unless
an administrator asks. The conditions are conjuncts, the filter among them in parentheses, so that
no choice of them changes what the others say: a row that meets all of them meets the rule. -/

namespace StationGateway.Recipe

open Text StationGateway.Filter StationGateway.Sql StationGateway.Access Outcome

/-! ## Texts of branches -/

namespace Branch

/-- The text of a selection before its conditions. -/
def opening (branch : Branch) (word : String) : String :=
  join " " (branch.parts word).dropLast

/-- The text of the conditions of a selection. -/
def conditionText (branch : Branch) : String :=
  join " and " (branch.conditions.map Condition.text)

/-- The conditions of a selection end its text. -/
theorem text_eq (branch : Branch) (word : String) :
    branch.text word = branch.opening word ++ " where " ++ branch.conditionText := by
  have ends : ∃ front, front ≠ [] ∧
      branch.parts word = front ++ ["where " ++ branch.conditionText] :=
    ⟨_, by simp, rfl⟩
  obtain ⟨front, front_ne, parts_eq⟩ := ends
  rw [text, opening, parts_eq, List.dropLast_concat, join_append " " front_ne (by simp)]
  apply String.toList_injective
  simp [join]

/-- Rows of a branch meet a rule: it is one of the conditions, these are conjuncts, and their
conjunction implies it whatever the comparisons are. -/
structure GuardedBy (branch : Branch) (rule : String) : Prop where
  /-- The rule is one of the conditions. -/
  rule_mem : rule ∈ branch.conditions.map Condition.text
  /-- The conditions are read as the conjunction of what each of them says. -/
  conjuncts : ∃ formulas, List.Forall₂ Conjunct (branch.conditions.map Condition.text) formulas ∧
    Sql.read branch.conditionText = some (.all formulas)
  /-- The conditions imply the rule. -/
  implies : ∀ (truth : String → Bool) (whole meaning : Formula String),
    Sql.read branch.conditionText = some whole → Sql.read rule = some meaning →
      whole.holds truth = true → meaning.holds truth = true

end Branch

/-- Whether the text of a condition is a conjunct. -/
def Condition.IsConjunct (condition : Condition) : Prop :=
  ∃ formula, Conjunct condition.text formula

/-- A rule among several conjuncts guards a branch. -/
theorem Branch.guardedBy_of_conjuncts {branch : Branch} {rule : String}
    (rule_mem : .access rule ∈ branch.conditions) (several : 2 ≤ branch.conditions.length)
    (conjuncts : ∀ condition ∈ branch.conditions, condition.IsConjunct) :
    branch.GuardedBy rule := by
  obtain ⟨formulas, by_condition⟩ := exists_forall₂ conjuncts
  have all_conjuncts : List.Forall₂ Conjunct (branch.conditions.map Condition.text) formulas :=
    List.forall₂_map_left_iff.mpr by_condition
  have rule_text : rule ∈ branch.conditions.map Condition.text :=
    List.mem_map.mpr ⟨.access rule, rule_mem, rfl⟩
  have whole_eq : Sql.read branch.conditionText = some (.all formulas) :=
    read_conjuncts all_conjuncts (by simpa using several)
  refine ⟨rule_text, ⟨formulas, all_conjuncts, whole_eq⟩, ?_⟩
  intro truth whole meaning whole_read rule_read holds
  obtain ⟨formula, formula_mem, conjunct⟩ := exists_of_mem_left all_conjuncts rule_text
  obtain rfl : formula = meaning :=
    Option.some.inj (conjunct.readsSingle.reads.read_eq.symm.trans rule_read)
  obtain rfl : .all formulas = whole := Option.some.inj (whole_eq.symm.trans whole_read)
  exact Formula.holds_of_mem_of_allHold holds formula_mem

/-! ## The access rule -/

private theorem rules_checked (rows : RowClass) :
    ((RuleFiles.standard.rules rows).toOption.any fun rules =>
      rules.all fun entry => checked isSingle entry.2) = true := by
  cases rows <;> decide +kernel

/-- Whoever is no administrator has a rule, which is a condition in parentheses. -/
theorem exists_rule {roles : List String} (outsider : adminRole ∉ roles) (rows : RowClass) :
    ∃ rule formula, RuleFiles.standard.condition? rows roles = .ok (some rule) ∧
      Conjunct rule formula := by
  obtain ⟨rules, found, fine⟩ := (Option.any_eq_true _ _).mp (rules_checked rows)
  have rules_eq := toOption_eq_some_iff.mp found
  cases predicates_eq : roles.filterMap (fun role => Order.find? role rules) with
  | nil =>
      obtain ⟨formula, conjunct⟩ : ∃ formula, Conjunct ("(" ++ "false" ++ ")") formula :=
        exists_conjunct_of_tokens (by decide)
      refine ⟨"(false)", formula, ?_, conjunct⟩
      simp [RuleFiles.condition?, outsider, rules_eq, predicates_eq, bind, Except.bind]
  | cons first rest =>
      have singles : ∀ predicate ∈ first :: rest, ∃ formula, ReadsSingle predicate formula := by
        intro predicate member
        rw [← predicates_eq] at member
        obtain ⟨role, _, role_found⟩ := List.mem_filterMap.mp member
        have entry_mem := Order.mem_of_find? role_found
        exact exists_readsSingle_of_checked (List.all_eq_true.mp fine _ entry_mem)
      obtain ⟨formulas, reads⟩ := exists_forall₂ singles
      refine ⟨_, _, ?_, .group (reads_or reads (List.cons_ne_nil first rest))⟩
      simp [RuleFiles.condition?, outsider, rules_eq, predicates_eq, bind, Except.bind]

/-! ## The conditions of recipes -/

private theorem isConjunct_comparison {condition : Condition} (text : String)
    (text_eq : condition.text = text) (fine : checked isPlain text = true) :
    condition.IsConjunct := by
  rw [Condition.IsConjunct, text_eq]
  exact ⟨_, conjunct_of_checked fine⟩

private theorem isConjunct_group {condition : Condition} (inner : String)
    (text_eq : condition.text = "(" ++ inner ++ ")") (closed : (tokens? inner).isSome = true) :
    condition.IsConjunct := by
  rw [Condition.IsConjunct, text_eq]
  exact exists_conjunct_of_tokens closed

private theorem isConjunct_availableParent {expansion : Expansion} {condition : Condition}
    (member : condition ∈ availableParent expansion) : condition.IsConjunct := by
  obtain ⟨-, rfl⟩ := mem_onlyIf.mp member
  exact isConjunct_group "p.id is null or p.available = true" rfl (by decide)

private theorem isConjunct_oneOf {expression name : String} {items : Option (List String)}
    (fine : checked isPlain (expression ++ " in (:" ++ name ++ ")") = true) {condition : Condition}
    (member : condition ∈ oneOf expression name items) : condition.IsConjunct := by
  cases items with
  | none => cases member
  | some items =>
      obtain rfl := List.mem_singleton.mp member
      exact isConjunct_comparison _ rfl fine

private theorem isConjunct_window {window : Option Window} {condition : Condition}
    (member : condition ∈ windowConditions window) : condition.IsConjunct := by
  cases window with
  | none => cases member
  | some window =>
      rcases List.mem_pair.mp member with rfl | rfl
      · exact isConjunct_comparison "me.timestamp >= :from::timestamptz" rfl (by decide)
      · exact isConjunct_comparison "me.timestamp < :to::timestamptz" rfl (by decide)

private theorem isConjunct_eventWindow {window : EventWindow} {condition : Condition}
    (member : condition ∈ eventConditions window) : condition.IsConjunct := by
  simp only [eventConditions, List.mem_append, List.mem_map] at member
  rcases member with (in_latest | ⟨first, _, rfl⟩) | ⟨last, _, rfl⟩
  · obtain ⟨-, rfl⟩ := mem_onlyIf.mp in_latest
    exact isConjunct_comparison "lat.rank = 1" rfl (by decide)
  · exact isConjunct_group
      "upper(ev.event_interval) is null or upper(ev.event_interval) > :from::timestamp" rfl
      (by decide)
  · exact isConjunct_comparison "lower(ev.event_interval) <= :to::timestamp" rfl (by decide)

/-- The predicate of a filter is a condition in parentheses. -/
private theorem isConjunct_filter {scope : Scope} (catalogue : scope.catalogue = Mobility.catalogue)
    (operators : scope.operators = .standard) {conditions preferred : Option String}
    {filter : Option Filter} (read : parseOptional scope.operators.isName conditions = .ok filter)
    {predicate : Option Predicate} (found : scope.predicateOf preferred filter = .ok predicate)
    {condition : Condition} (member : condition ∈ filterCondition predicate) :
    condition.IsConjunct := by
  obtain ⟨compiled, rfl, rfl⟩ := mem_filterCondition.mp member
  obtain ⟨text, spelled, parsed, compiles⟩ := Scope.exists_filter_of_predicateOf read found
  obtain ⟨_, inner, formula, written, reads, _⟩ :=
    exists_reads_of_compile catalogue operators (wellFormed_of_parse parsed) compiles 0
  have text_eq : (Condition.filter compiled).text = "(" ++ inner ++ ")" := written
  rw [Condition.IsConjunct, text_eq]
  exact ⟨_, .group reads⟩

/-! ## Guarded recipes -/

/-- The requests for rows that have access rules. -/
inductive Protects (resources : Resources) (options : Options) : RowClass → Prepared → Prop where
  /-- A request for measurements. -/
  | measurements {types datatypes : String} {window : Option Window} {prepared : Prepared}
      (compiled : measurements resources options types datatypes window = .ok prepared) :
      Protects resources options .stations prepared
  /-- A request for events. -/
  | events {origins : String} {window : EventWindow} {prepared : Prepared}
      (compiled : events resources options origins window = .ok prepared) :
      Protects resources options .events prepared

private theorem access_eq {options : Options} {rows : RowClass} {rule : String}
    (found : RuleFiles.standard.condition? rows options.roles = .ok (some rule))
    {access : List Condition} (applies : Resources.bundled.access options rows = .ok access) :
    access = [.access rule] := by
  have rules_eq : Resources.bundled.rules = RuleFiles.standard := rfl
  rw [Resources.access, rules_eq, found] at applies
  exact (Except.ok.inj applies).symm

private theorem guardedBy_of_measurements {options : Options}
    {types datatypes : Option (List String)}
    {window : Option Window} {expansion : Expansion}
    (expanded : Resources.bundled.expand options measurementLists = .ok expansion) {rule : String}
    {formula : Formula String} (rule_conjunct : Conjunct rule formula) {values : ValueTable}
    {predicate : Option Predicate} (found : expansion.predicateFor values.list = .ok predicate) :
    (measurementBranch options types datatypes window expansion [.access rule] values
      predicate).GuardedBy rule := by
  have known := Scope.expands_of_expand expanded
  rw [expansion.predicateFor_eq, known.within] at found
  apply Branch.guardedBy_of_conjuncts
  · simp [measurementBranch]
  · simp [measurementBranch]
  intro condition member
  simp only [measurementBranch, List.mem_append, List.mem_singleton] at member
  rcases member with
    ((((((rfl | rfl) | in_parent) | in_types) | in_datatypes) | in_window) | in_filter)
  · exact isConjunct_comparison "s.available = true" rfl (by decide)
  · exact ⟨formula, rule_conjunct⟩
  · exact isConjunct_availableParent in_parent
  · exact isConjunct_oneOf (by decide) in_types
  · exact isConjunct_oneOf (by decide) in_datatypes
  · exact isConjunct_window in_window
  · exact isConjunct_filter rfl rfl known.filter found in_filter

private theorem guardedBy_of_events {options : Options} {origins : Option (List String)}
    {window : EventWindow} {lists : List String} {expansion : Expansion}
    (expanded : Resources.bundled.expand options lists = .ok expansion) {rule : String}
    {formula : Formula String} (rule_conjunct : Conjunct rule formula) :
    (eventBranch options origins window expansion [.access rule]).GuardedBy rule := by
  have known := Scope.expands_of_expand expanded
  apply Branch.guardedBy_of_conjuncts
  · simp [eventBranch]
  · simp [eventBranch]
  intro condition member
  simp only [eventBranch, List.mem_append, List.mem_singleton] at member
  rcases member with (((rfl | rfl) | in_window) | in_origins) | in_filter
  · exact isConjunct_comparison "true" rfl (by decide)
  · exact ⟨formula, rule_conjunct⟩
  · exact isConjunct_eventWindow in_window
  · exact isConjunct_oneOf (by decide) in_origins
  · exact isConjunct_filter rfl rfl known.filter known.predicate in_filter

/-- Whatever a request for measurements or events selects and requires, its rows meet the access
rule of the caller, unless the caller is an administrator: every selection of the statement ends in
its conditions, and these guard it by the rule. -/
theorem guardedBy_accessRule {options : Options} (outsider : adminRole ∉ options.roles)
    {rows : RowClass} {prepared : Prepared}
    (request : Protects Resources.bundled options rows prepared) :
    ∃ rule meaning, RuleFiles.standard.condition? rows options.roles = .ok (some rule) ∧
      Sql.read rule = some meaning ∧
      prepared.query.branches ≠ [] ∧
      prepared.sql = join " " (prepared.query.prelude.toList ++
        [join " union all " (prepared.query.branches.map fun branch =>
          branch.opening (Statement.selectWord options.distinct) ++ " where " ++
            branch.conditionText)] ++ prepared.query.closing) ∧
      ∀ branch ∈ prepared.query.branches, branch.GuardedBy rule := by
  obtain ⟨rule, meaning, found, conjunct⟩ := exists_rule outsider rows
  refine ⟨rule, meaning, found, conjunct.readsSingle.reads.read_eq, ?_⟩
  have written : prepared.query.distinct = options.distinct →
      prepared.sql = join " " (prepared.query.prelude.toList ++
        [join " union all " (prepared.query.branches.map fun branch =>
          branch.opening (Statement.selectWord options.distinct) ++ " where " ++
            branch.conditionText)] ++ prepared.query.closing) := by
    intro distinct_eq
    simp only [Prepared.sql, Query.sql, distinct_eq, Branch.text_eq]
  cases request with
  | measurements compiled =>
      obtain ⟨expansion, tables, access, branches, expanded, tables_eq, applies, made, query_eq⟩ :=
        exists_of_measurements compiled
      obtain rfl := access_eq found applies
      refine ⟨?_, written (by rw [query_eq]; rfl), ?_⟩
      · rw [query_eq]
        rintro rfl
        cases made
        exact valueTables_ne_nil tables_eq rfl
      · rw [query_eq]
        intro branch member
        obtain ⟨values, _, predicate, predicate_eq, rfl⟩ := exists_of_mem_right made member
        exact guardedBy_of_measurements expanded conjunct predicate_eq
  | events compiled =>
      obtain ⟨expansion, access, expanded, applies, query_eq⟩ := exists_of_events compiled
      obtain rfl := access_eq found applies
      refine ⟨?_, written (by rw [query_eq]; rfl), ?_⟩
      · rw [query_eq]
        exact List.cons_ne_nil _ _
      · rw [query_eq]
        intro branch member
        obtain rfl := List.mem_singleton.mp member
        exact guardedBy_of_events expanded conjunct

/-- A guest asks for numbers above a bound or of a station, without the rule getting lost. -/
theorem guardedBy_accessRule_guest :
    let options : Options :=
      { representation := ⟨.node, .flat⟩, limit := 200, offset := 0, select := some "mvalue",
        filter := some "or(mvalue.gt.1,scode.eq.'a')", showNull := false, distinct := true,
        roles := ["GUEST"] }
    adminRole ∉ options.roles ∧
      ∃ prepared, measurements Resources.bundled options "*" "*" none = .ok prepared ∧
        ∃ rule, RuleFiles.standard.condition? .stations options.roles = .ok (some rule) ∧
          ∀ branch ∈ prepared.query.branches, branch.GuardedBy rule := by
  intro options
  have outsider : adminRole ∉ options.roles := by decide
  have succeeds : (measurements Resources.bundled options "*" "*" none).isOk = true := by
    decide +kernel
  obtain ⟨prepared, compiled⟩ := exists_of_isOk succeeds
  obtain ⟨rule, meaning, found, _, _, _, guarded⟩ :=
    guardedBy_accessRule outsider (.measurements compiled)
  exact ⟨outsider, prepared, compiled, rule, found, guarded⟩

end StationGateway.Recipe
