import Mathlib.Data.List.TakeWhile
import Mathlib.Data.String.Basic
import StationGateway.Catalogue.Selector
import StationGateway.Proofs.Text.Blank
import StationGateway.Proofs.Text.Split

/-!
# Selectors

A name of small letters, a point and a path spell the place of that path inside the attribute of
that name. Of the path, only blanks at its end are lost. Selectors are ordered by name and then by
path, the whole attribute first. -/

namespace StationGateway

open Text

namespace Selector

theorem isBlank_of_isLower {char : Char} (lower : char.isLower = true) : isBlank char = false := by
  obtain ⟨from_a, to_z⟩ := (Bool.and_eq_true _ _).mp lower
  have least : 97 ≤ char.toNat := UInt32.le_iff_toNat_le.mp (of_decide_eq_true from_a)
  have greatest : char.toNat ≤ 122 := UInt32.le_iff_toNat_le.mp (of_decide_eq_true to_z)
  simp only [isBlank, Bool.or_eq_false_iff, Bool.and_eq_false_iff, decide_eq_false_iff_not,
    beq_eq_false_iff_ne]
  omega

/-- The path of a place as it is kept. -/
def keptPath (path : String) : String :=
  String.ofList (dropBlanksRight path.toList)

theorem toList_keptPath (path : String) :
    ∃ blanks, path.toList = (keptPath path).toList ++ blanks ∧
      ∀ char ∈ blanks, isBlank char = true := by
  rw [keptPath, String.toList_ofList]
  exact exists_append_dropBlanksRight path.toList

theorem comma_notMem_keptPath {path : String} (no_comma : ',' ∉ path.toList) :
    ',' ∉ (keptPath path).toList := by
  obtain ⟨blanks, path_eq, _⟩ := toList_keptPath path
  rw [path_eq, List.mem_append, not_or] at no_comma
  exact no_comma.1

theorem ofText?_place {name path : String} (named : name.toList ≠ [])
    (letters : ∀ char ∈ name.toList, char.isLower = true) {char : Char}
    (member : char ∈ path.toList) (visible : isBlank char = false) :
    ofText? (name ++ "." ++ path) = some ⟨name, some (keptPath path)⟩ := by
  obtain ⟨first, others, name_eq⟩ := List.exists_cons_of_ne_nil named
  have first_visible := isBlank_of_isLower (letters first (name_eq ▸ List.mem_cons_self))
  have no_point : '.' ∉ name.toList := fun point => absurd (letters '.' point) (by decide)
  have text_eq : (name ++ "." ++ path).toList = name.toList ++ '.' :: path.toList := by simp
  have trim_eq : trim (name ++ "." ++ path).toList =
      name.toList ++ '.' :: dropBlanksRight path.toList := by
    have start := dropBlanksRight_append (name.toList ++ ['.']) member visible
    rw [List.append_assoc, List.singleton_append, List.append_assoc, List.singleton_append] at start
    rw [trim, text_eq, name_eq, List.cons_append, dropBlanks_cons first_visible, ← List.cons_append,
      ← name_eq, start]
  obtain ⟨path_first, path_others, path_eq⟩ :=
    List.exists_cons_of_ne_nil (dropBlanksRight_ne_nil member visible)
  have filled : (name.toList ++ '.' :: path_first :: path_others).isEmpty = false := by simp
  rw [path_eq] at trim_eq
  simp only [ofText?, trim_eq, filled, splitOnce_append no_point, path_eq, keptPath,
    String.ofList_toList, Bool.false_eq_true, if_false]

/-- A text without blanks and points spells the whole attribute of that name. -/
theorem ofText?_of_visible {name : String} (named : name.toList ≠ [])
    (visible : ∀ char ∈ name.toList, isBlank char = false) (no_point : '.' ∉ name.toList) :
    ofText? name = some (whole name) := by
  have trim_eq : trim name.toList = name.toList := by
    have nothing_after := trim_append named visible (show isBlankText [] = true from rfl)
    rwa [List.append_nil] at nothing_after
  rw [ofText?, trim_eq]
  simp only [splitOnce_eq_none_iff.mpr no_point, String.ofList_toList]
  rw [if_neg (by simpa using named)]

/-- The name of a selector ends before the first point. -/
theorem point_notMem_of_ofText? {text : String} {selector : Selector}
    (spelled : ofText? text = some selector) : '.' ∉ selector.name.toList := by
  rw [ofText?] at spelled
  split_ifs at spelled
  split at spelled
  next name split_eq =>
    obtain rfl := Option.some.inj spelled
    rw [whole, String.toList_ofList]
    exact notMem_of_splitOnce split_eq
  next name path _ split_eq =>
    obtain rfl := Option.some.inj spelled
    rw [String.toList_ofList]
    exact notMem_of_splitOnce split_eq
  next split_eq =>
    obtain rfl := Option.some.inj spelled
    rw [whole, String.toList_ofList]
    exact splitOnce_eq_none_iff.mp split_eq

/-- A text with a visible character spells a selector, whose name is the beginning of the text without
blanks around it. -/
theorem exists_ofText? {text : String} {char : Char} (member : char ∈ text.toList)
    (visible : isBlank char = false) :
    ∃ selector, ofText? text = some selector ∧ selector.name.toList <+: trim text.toList := by
  have filled : (trim text.toList).isEmpty = false := by
    have kept := mem_trim member visible
    exact List.isEmpty_eq_false_iff.mpr (List.ne_nil_of_mem kept)
  rw [ofText?]
  simp only [filled, Bool.false_eq_true, if_false]
  split
  next name split_eq =>
    refine ⟨_, rfl, ?_⟩
    rw [whole, String.toList_ofList, eq_append_of_splitOnce split_eq]
    exact List.prefix_append _ _
  next name path _ split_eq =>
    refine ⟨_, rfl, ?_⟩
    rw [String.toList_ofList, eq_append_of_splitOnce split_eq]
    exact List.prefix_append _ _
  next split_eq =>
    refine ⟨_, rfl, ?_⟩
    simp only [whole, String.toList_ofList, List.prefix_rfl]

/-! ## The order of selectors -/

theorem pathBefore_irrefl (path : Option String) : ¬pathBefore path path = true := by
  cases path with
  | none => exact Bool.false_ne_true
  | some path =>
      simp only [pathBefore, decide_eq_true_eq]
      exact lt_irrefl path

theorem pathBefore_trans {first second third : Option String}
    (first_before : pathBefore first second = true) (second_before : pathBefore second third = true) :
    pathBefore first third = true := by
  cases third with
  | none => cases second <;> cases second_before
  | some third =>
      cases second with
      | none => cases first <;> cases first_before
      | some second =>
          cases first with
          | none => rfl
          | some first =>
              simp only [pathBefore, decide_eq_true_eq] at first_before second_before ⊢
              exact first_before.trans second_before

theorem eq_of_not_pathBefore {first second : Option String}
    (not_before : ¬pathBefore first second = true) (not_after : ¬pathBefore second first = true) :
    first = second := by
  cases first with
  | none =>
      cases second with
      | none => rfl
      | some second => exact absurd rfl not_before
  | some first =>
      cases second with
      | none => exact absurd rfl not_after
      | some second =>
          simp only [pathBefore, decide_eq_true_eq] at not_before not_after
          exact congrArg some (le_antisymm (not_lt.mp not_after) (not_lt.mp not_before))

theorem lt_iff {first second : Selector} :
    first < second ↔ first.name < second.name ∨
      first.name = second.name ∧ pathBefore first.path second.path = true := by
  have lt_eq : (first < second) = (before first second = true) := rfl
  rw [lt_eq, before, Bool.or_eq_true, Bool.and_eq_true, decide_eq_true_eq, beq_iff_eq]

instance : IsStrictTotalOrder Selector (· < ·) where
  irrefl selector before := by
    rcases lt_iff.mp before with name_lt | ⟨-, path_before⟩
    · exact lt_irrefl _ name_lt
    · exact pathBefore_irrefl _ path_before
  trans first second third first_lt second_lt := by
    rw [lt_iff] at first_lt second_lt ⊢
    rcases first_lt with first_name | ⟨first_name, first_path⟩
    · rcases second_lt with second_name | ⟨second_name, -⟩
      · exact .inl (first_name.trans second_name)
      · exact .inl (second_name ▸ first_name)
    · rcases second_lt with second_name | ⟨second_name, second_path⟩
      · exact .inl (first_name ▸ second_name)
      · exact .inr ⟨first_name.trans second_name, pathBefore_trans first_path second_path⟩
  trichotomous first second not_before not_after := by
    rw [lt_iff, not_or, not_and] at not_before not_after
    have same_name := le_antisymm (not_lt.mp not_after.1) (not_lt.mp not_before.1)
    have same_path := eq_of_not_pathBefore (not_before.2 same_name) (not_after.2 same_name.symm)
    cases first
    cases second
    exact congrArg₂ mk same_name same_path

end Selector

end StationGateway
