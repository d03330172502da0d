import Mathlib
import StationGateway.Catalogue.Attribute
import StationGateway.Proofs.Catalogue.Selector
import StationGateway.Proofs.Outcome

/-!
# Names of attributes

Lists and attributes that are made step by step, with a check at every step, have names of letters,
digits, points, hyphens and underscores. In a selector such a name stands for the whole attribute
unless it has a point: the name of a selector never has one. -/

namespace StationGateway

open Text Outcome

/-! ## Made attributes -/

/-- The attributes that can be made. -/
inductive Attribute.Made : Attribute → Prop where
  /-- A column. -/
  | ofColumn {name expression : String} {field : Attribute}
      (made : ofColumn name expression = .ok field) : Made field
  /-- A pointer. -/
  | ofChildren {name : String} {children : List String} {field : Attribute}
      (made : ofChildren name children = .ok field) : Made field
  /-- An attribute under another name for clients. -/
  | withPublicName {name : String} {field named : Attribute} (before : Made field)
      (made : field.withPublicName name = .ok named) : Made named
  /-- An attribute with another label. -/
  | withLabel {label : String} {field labelled : Attribute} (before : Made field)
      (made : field.withLabel label = .ok labelled) : Made labelled
  /-- An attribute with another projection. -/
  | withSelectFormat {format : String} {field formatted : Attribute} (before : Made field)
      (made : field.withSelectFormat format = .ok formatted) : Made formatted
  /-- An attribute with another projected column. -/
  | withColumnFormat {format : String} {field formatted : Attribute} (before : Made field)
      (made : field.withColumnFormat format = .ok formatted) : Made formatted
  /-- An attribute whose values have no inside. -/
  | asScalar {field : Attribute} (before : Made field) : Made field.asScalar

/-- The lists that can be made. -/
inductive TargetList.Made : TargetList → Prop where
  /-- A list without attributes. -/
  | empty {name : String} {lookUp : LookUp} {list : TargetList}
      (made : empty name lookUp = .ok list) : Made list
  /-- A list with one more attribute. -/
  | add {field : Attribute} {list longer : TargetList} (before : Made list) (field_made : field.Made)
      (made : list.add field = .ok longer) : Made longer

theorem checkName_eq_ok_iff {name : String} {checked : Unit} :
    checkName name = .ok checked ↔ isName name = true := by
  rw [checkName]
  split_ifs with is_name
  · exact iff_of_true rfl is_name
  · exact iff_of_false nofun is_name

namespace Attribute

/-- Whether the names of an attribute are names. -/
structure Named (field : Attribute) : Prop where
  name : isName field.name = true
  publicName : ∀ other ∈ field.publicName, isName other = true

theorem Named.finalName {field : Attribute} (named : field.Named) : isName field.finalName = true := by
  rw [Attribute.finalName]
  cases public_eq : field.publicName with
  | none => exact named.name
  | some other => exact named.publicName other public_eq

theorem named_of_ofColumn {name expression : String} {field : Attribute}
    (made : ofColumn name expression = .ok field) : field.Named := by
  rw [ofColumn] at made
  obtain ⟨_, checked, rest⟩ := bind_eq_ok_iff.mp made
  split_ifs at rest
  · cases rest
  · obtain rfl := Except.ok.inj rest
    exact ⟨checkName_eq_ok_iff.mp checked, nofun⟩

theorem named_of_ofChildren {name : String} {children : List String} {field : Attribute}
    (made : ofChildren name children = .ok field) : field.Named := by
  rw [ofChildren] at made
  obtain ⟨_, checked, rest⟩ := bind_eq_ok_iff.mp made
  split_ifs at rest
  · cases rest
  · obtain rfl := Except.ok.inj rest
    exact ⟨checkName_eq_ok_iff.mp checked, nofun⟩

/-- An attribute that is made has names, whichever of them clients use. -/
theorem Made.named {field : Attribute} (made : field.Made) : field.Named := by
  induction made with
  | ofColumn made => exact named_of_ofColumn made
  | ofChildren made => exact named_of_ofChildren made
  | withPublicName _ made named =>
      obtain ⟨_, checked, rest⟩ := bind_eq_ok_iff.mp made
      obtain rfl := Except.ok.inj rest
      refine ⟨named.name, ?_⟩
      rintro _ ⟨⟩
      exact checkName_eq_ok_iff.mp checked
  | withLabel _ made named =>
      obtain ⟨_, _, rest⟩ := bind_eq_ok_iff.mp made
      obtain rfl := Except.ok.inj rest
      exact ⟨named.name, named.publicName⟩
  | withSelectFormat _ made named =>
      rw [Attribute.withSelectFormat] at made
      split_ifs at made
      · cases made
      · obtain rfl := Except.ok.inj made
        exact ⟨named.name, named.publicName⟩
  | withColumnFormat _ made named =>
      rw [Attribute.withColumnFormat] at made
      split_ifs at made
      · cases made
      · obtain rfl := Except.ok.inj made
        exact ⟨named.name, named.publicName⟩
  | asScalar _ named => exact ⟨named.name, named.publicName⟩

end Attribute

namespace TargetList

theorem attributes_of_empty {name : String} {lookUp : LookUp} {list : TargetList}
    (made : empty name lookUp = .ok list) : list.attributes = [] := by
  rw [empty] at made
  obtain ⟨_, _, rest⟩ := bind_eq_ok_iff.mp made
  split_ifs at rest <;> cases rest <;> rfl

theorem attributes_of_add {field : Attribute} {list longer : TargetList}
    (made : list.add field = .ok longer) : longer.attributes = list.attributes ++ [field] := by
  rw [add] at made
  split_ifs at made
  obtain rfl := Except.ok.inj made
  rfl

/-- The attributes of a list that is made have names. -/
theorem Made.isName {list : TargetList} (made : list.Made) :
    ∀ name ∈ list.finalNames, isName name = true := by
  induction made with
  | empty made =>
      rw [finalNames, attributes_of_empty made]
      exact nofun
  | add _ field_made made names =>
      rw [finalNames, attributes_of_add made, List.map_append, List.forall_mem_append]
      exact ⟨names, List.forall_mem_singleton.mpr field_made.named.finalName⟩

end TargetList

/-! ## Names as selectors -/

theorem isBlank_of_isNameChar {char : Char} (name_char : isNameChar char = true) :
    isBlank char = false := by
  have within : 45 ≤ char.toNat ∧ char.toNat ≤ 122 := by
    simp only [isNameChar, Char.isAlphanum, Char.isAlpha, Char.isUpper, Char.isLower, Char.isDigit,
      Bool.or_eq_true, Bool.and_eq_true, decide_eq_true_eq, beq_iff_eq, ge_iff_le,
      UInt32.le_iff_toNat_le] at name_char
    rcases name_char with ((((⟨low, high⟩ | ⟨low, high⟩) | ⟨low, high⟩) | rfl) | rfl) | rfl
    · exact ⟨le_trans (show 45 ≤ 65 by omega) low, le_trans high (show 90 ≤ 122 by omega)⟩
    · exact ⟨le_trans (show 45 ≤ 97 by omega) low, high⟩
    · exact ⟨le_trans (show 45 ≤ 48 by omega) low, le_trans high (show 57 ≤ 122 by omega)⟩
    · simp
    · simp
    · simp
  simp only [isBlank, Bool.or_eq_false_iff, Bool.and_eq_false_iff, decide_eq_false_iff_not,
    beq_eq_false_iff_ne]
  omega

theorem isNameChar_of_mem {name : String} (is_name : isName name = true) {char : Char}
    (member : char ∈ name.toList) : isNameChar char = true :=
  List.all_eq_true.mp ((Bool.and_eq_true _ _).mp is_name).2 char member

theorem comma_notMem_of_isName {name : String} (is_name : isName name = true) :
    ',' ∉ name.toList := fun member => by
  cases isNameChar_of_mem is_name member

theorem toList_ne_nil_of_isName {name : String} (is_name : isName name = true) :
    name.toList ≠ [] := by
  have filled : name ≠ "" := of_decide_eq_true ((Bool.and_eq_true _ _).mp is_name).1
  rwa [ne_eq, String.toList_eq_nil_iff]

namespace Selector

/-- A name without a point spells the whole attribute. -/
theorem ofText?_of_isName {name : String} (is_name : isName name = true)
    (no_point : '.' ∉ name.toList) : ofText? name = some (whole name) :=
  ofText?_of_visible (toList_ne_nil_of_isName is_name)
    (fun _ member => isBlank_of_isNameChar (isNameChar_of_mem is_name member)) no_point

/-- Every name spells a selector, and none that asks for everything. -/
theorem exists_ofText?_of_isName {name : String} (is_name : isName name = true) :
    ∃ selector, ofText? name = some selector ∧ selector.name ≠ "*" := by
  obtain ⟨first, others, name_eq⟩ := List.exists_cons_of_ne_nil (toList_ne_nil_of_isName is_name)
  have first_mem : first ∈ name.toList := name_eq ▸ List.mem_cons_self
  obtain ⟨selector, spelled, begins⟩ := exists_ofText? first_mem
    (isBlank_of_isNameChar (isNameChar_of_mem is_name first_mem))
  refine ⟨selector, spelled, fun is_star => ?_⟩
  rw [is_star] at begins
  have star_mem : '*' ∈ name.toList := trim_subset _ (begins.subset List.mem_cons_self)
  cases isNameChar_of_mem is_name star_mem

end Selector

end StationGateway
