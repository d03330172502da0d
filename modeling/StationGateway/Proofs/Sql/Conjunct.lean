import StationGateway.Proofs.Sql.Phrase

/-!
# Conjuncts

Texts that can be joined by `and` without changing what any of them says: comparisons without a word
that joins parts, and conditions in parentheses. Their conjunction implies each of them.
-/

namespace StationGateway.Sql

open Text

/-- A text that stands for itself among parts that `and` joins, and what it says. -/
inductive Conjunct : String → Formula String → Prop where
  /-- A comparison without `and` and `or` outside of parentheses. -/
  | comparison {text : String} (reads : ReadsSingle text (.atom text)) : Conjunct text (.atom text)
  /-- A condition in parentheses, the first of which the last one closes. -/
  | group {inner : String} {formula : Formula String} (reads : Reads inner formula) :
      Conjunct ("(" ++ inner ++ ")") (.group formula)

theorem Conjunct.readsSingle {text : String} {formula : Formula String}
    (conjunct : Conjunct text formula) : ReadsSingle text formula := by
  cases conjunct with
  | comparison reads => exact reads
  | group reads => exact reads.group

/-- Joined conjuncts are read as the conjunction of what each of them says. -/
theorem read_conjuncts {texts : List String} {formulas : List (Formula String)}
    (conjuncts : List.Forall₂ Conjunct texts formulas) (several : 2 ≤ texts.length) :
    read (join " and " texts) = some (.all formulas) := by
  have reads := conjuncts.imp fun _ _ conjunct => conjunct.readsSingle
  have texts_ne : texts ≠ [] := by
    rintro rfl
    simp at several
  have several_formulas : 2 ≤ formulas.length := conjuncts.length_eq ▸ several
  have joined_eq : Formula.joined .all formulas = .all formulas := by
    rcases formulas with _ | ⟨first, _ | ⟨second, rest⟩⟩
    · simp at several_formulas
    · simp at several_formulas
    · rfl
  rw [(reads_and reads texts_ne).read_eq, joined_eq]

/-! ## Given texts -/

/-- Whether pieces are a comparison. -/
def isPlain (tokens : List Token) : Bool :=
  isSingle tokens && !isGroup (words tokens)

theorem conjunct_of_checked {text : String} (fine : checked isPlain text = true) :
    Conjunct text (.atom text) := by
  obtain ⟨tokens, scans, plain⟩ := scans_of_checked fine
  rw [isPlain, Bool.and_eq_true, Bool.not_eq_true'] at plain
  refine .comparison ⟨tokens, scans, plain.1, ?_⟩
  rw [ofTokens_eq_atom plain.1 plain.2, scans.spelled_eq, String.ofList_toList]

theorem exists_conjunct_of_tokens {inner : String} (closed : (tokens? inner).isSome = true) :
    ∃ formula, Conjunct ("(" ++ inner ++ ")") formula := by
  obtain ⟨tokens, found⟩ := Option.isSome_iff_exists.mp closed
  exact ⟨_, .group ⟨tokens, scans_of_tokens found, rfl⟩⟩

end StationGateway.Sql
