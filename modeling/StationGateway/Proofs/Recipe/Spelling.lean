import StationGateway.Proofs.Catalogue.Selector
import StationGateway.Proofs.Order.Gather
import StationGateway.Proofs.Recipe.Stages

/-!
# Spellings of requests

Items separated by commas say the same in any order, however often they are repeated, and with blanks
or empty items between them. Segments and selections are read as the set of their items, so a request
is prepared in the same way in every spelling. -/

namespace StationGateway

open Text StationGateway.Order

/-- Items that differ in their order, their repetitions, the blanks around them and the empty ones
among them. -/
inductive Respelled : List String → List String → Prop where
  /-- Another order. -/
  | order {items others : List String} (permuted : items.Perm others) : Respelled items others
  /-- An item once more. -/
  | repetition {item : String} {items : List String} (member : item ∈ items) :
      Respelled items (item :: items)
  /-- Other blanks around an item. -/
  | blanks {item other : String} (same : trimmed item = trimmed other) (items : List String) :
      Respelled (item :: items) (other :: items)
  /-- An empty item more. -/
  | empty {item : String} (blank : trimmed item = "") (items : List String) :
      Respelled items (item :: items)
  /-- The other way round. -/
  | symm {items others : List String} (respelled : Respelled items others) : Respelled others items
  /-- One difference after another. -/
  | trans {items middle others : List String} (first : Respelled items middle)
      (second : Respelled middle others) : Respelled items others

/-- Whether two texts have the same items between their commas. -/
def SameItems (first second : String) : Prop :=
  Respelled (pieces ',' first) (pieces ',' second)

namespace Respelled

variable {items others : List String}

theorem refl (items : List String) : Respelled items items :=
  .order (List.Perm.refl items)

/-- Every item that is not empty occurs in every spelling. -/
theorem mem_iff (respelled : Respelled items others) {item : String} (visible : item ≠ "") :
    item ∈ items.map trimmed ↔ item ∈ others.map trimmed := by
  induction respelled with
  | order permuted => exact (permuted.map trimmed).mem_iff
  | repetition member =>
      rw [List.map_cons, List.mem_cons]
      exact ⟨.inr, fun either => either.elim (fun same => same ▸ List.mem_map_of_mem member) id⟩
  | blanks same items => rw [List.map_cons, List.map_cons, same]
  | empty blank items => rw [List.map_cons, List.mem_cons, blank, or_iff_right visible]
  | symm _ induction => exact induction.symm
  | trans _ _ first second => exact first.trans second

/-- The items that are not empty. -/
theorem mem_filter_iff (respelled : Respelled items others) (item : String) :
    item ∈ (items.map trimmed).filter (· ≠ "") ↔ item ∈ (others.map trimmed).filter (· ≠ "") := by
  rw [List.mem_filter, List.mem_filter, and_congr_left_iff]
  exact fun visible => respelled.mem_iff (of_decide_eq_true visible)

end Respelled

/-! ## Segments and selections -/

private theorem isEmpty_congr {α : Type} {members others : List α}
    (same : ∀ member, member ∈ members ↔ member ∈ others) : members.isEmpty = others.isEmpty := by
  rw [Bool.eq_iff_iff, List.isEmpty_iff, List.isEmpty_iff, List.eq_nil_iff_forall_not_mem,
    List.eq_nil_iff_forall_not_mem]
  exact forall_congr' fun member => not_congr (same member)

theorem Recipe.restriction?_congr {first second : String} (same : SameItems first second) :
    restriction? first = restriction? second := by
  have same_items := same.mem_filter_iff
  have same_star : ((pieces ',' first).map trimmed |>.filter (· ≠ "")).contains "*" =
      ((pieces ',' second).map trimmed |>.filter (· ≠ "")).contains "*" := by
    rw [Bool.eq_iff_iff, List.contains_iff_mem, List.contains_iff_mem]
    exact same_items "*"
  simp only [restriction?, isEmpty_congr same_items, same_star, ofList_congr same_items]

/-- A selector is spelled by its text without the blanks around it. -/
theorem Selector.ofText?_congr {first second : String} (same : trimmed first = trimmed second) :
    ofText? first = ofText? second := by
  have same_text : trim first.toList = trim second.toList := String.ofList_injective same
  rw [ofText?, ofText?, same_text]

theorem Selector.ofText?_of_blank {text : String} (blank : trimmed text = "") :
    ofText? text = none := by
  have no_text : trim text.toList = [] := String.ofList_injective blank
  simp [ofText?, no_text]

theorem Selector.mem_filterMap_ofText?_iff {items others : List String}
    (respelled : Respelled items others) (selector : Selector) :
    selector ∈ items.filterMap ofText? ↔ selector ∈ others.filterMap ofText? := by
  have among : ∀ {items others : List String}, Respelled items others →
      selector ∈ items.filterMap ofText? → selector ∈ others.filterMap ofText? := by
    intro items others respelled member
    obtain ⟨item, item_in, spells⟩ := List.mem_filterMap.mp member
    have visible : trimmed item ≠ "" := fun blank => by
      rw [ofText?_of_blank blank] at spells
      cases spells
    obtain ⟨other, other_in, same⟩ :=
      List.mem_map.mp ((respelled.mem_iff visible).mp (List.mem_map_of_mem item_in))
    exact List.mem_filterMap.mpr ⟨other, other_in, (ofText?_congr same).trans spells⟩
  exact ⟨among respelled, among respelled.symm⟩

/-- A selection asks for the same in every spelling. -/
theorem Scope.requested_congr (scope : Scope) {first second : String}
    (same : SameItems first second) : scope.requested first = scope.requested second := by
  rw [requested, requested, ofList_congr (Selector.mem_filterMap_ofText?_iff same)]

/-- What is selected and required does not depend on the spelling of the selection. -/
theorem Scope.expand_congr (scope : Scope) {select other : Option String}
    (same : SameItems (select.getD "") (other.getD "")) (conditions : Option String)
    (distinct : Bool) : scope.expand select conditions distinct = scope.expand other conditions distinct := by
  have same_projections :
      scope.projections (select.getD "") = scope.projections (other.getD "") := by
    rw [projections, projections, scope.requested_congr same]
  rw [expand, expand, same_projections]

namespace Recipe

/-- Requests for the same rows, whatever the spelling of their segments. -/
inductive Request.Respelled : Request → Request → Prop where
  /-- Stations. -/
  | stations {types others : String} (same_types : SameItems types others) :
      Respelled (.stations types) (.stations others)
  /-- Stations with the history of their metadata. -/
  | stationsWithHistory {types others : String} (same_types : SameItems types others)
      (first last : Option Time.Instant) :
      Respelled (.stationsWithHistory types first last) (.stationsWithHistory others first last)
  /-- Stations with the types of their data. -/
  | stationsWithTypes {types others datatypes other_datatypes : String}
      (same_types : SameItems types others) (same_datatypes : SameItems datatypes other_datatypes) :
      Respelled (.stationsWithTypes types datatypes) (.stationsWithTypes others other_datatypes)
  /-- Measurements. -/
  | measurements {types others datatypes other_datatypes : String}
      (same_types : SameItems types others) (same_datatypes : SameItems datatypes other_datatypes)
      (window : Option Window) :
      Respelled (.measurements types datatypes window) (.measurements others other_datatypes window)
  /-- Edges. -/
  | edges {types others : String} (same_types : SameItems types others) :
      Respelled (.edges types) (.edges others)
  /-- Events. -/
  | events {origins others : String} (same_origins : SameItems origins others)
      (window : EventWindow) : Respelled (.events origins window) (.events others window)

/-- A request is prepared or refused in the same way in every spelling of its segments and its
selection. -/
theorem prepare_eq_of_respelled (resources : Resources) (options : Options) (select : Option String)
    (same_select : SameItems (options.select.getD "") (select.getD "")) {request other : Request}
    (respelled : request.Respelled other) :
    other.prepare resources { options with select } = request.prepare resources options := by
  have expand_eq : ∀ lists, resources.expand { options with select } lists =
      resources.expand options lists := fun lists =>
    (Scope.expand_congr _ same_select options.filter options.distinct).symm
  cases respelled with
  | stations same_types =>
      simp only [Request.prepare, Recipe.stations, expand_eq, restriction?_congr same_types]
      rfl
  | stationsWithHistory same_types first last =>
      simp only [Request.prepare, Recipe.stationsWithHistory, expand_eq,
        restriction?_congr same_types]
      rfl
  | stationsWithTypes same_types same_datatypes =>
      simp only [Request.prepare, Recipe.stationsWithTypes, expand_eq,
        restriction?_congr same_types, restriction?_congr same_datatypes]
      rfl
  | measurements same_types same_datatypes window =>
      simp only [Request.prepare, Recipe.measurements, expand_eq,
        restriction?_congr same_types, restriction?_congr same_datatypes]
      rfl
  | edges same_types =>
      simp only [Request.prepare, Recipe.edges, expand_eq, restriction?_congr same_types]
      rfl
  | events same_origins window =>
      simp only [Request.prepare, Recipe.events, expand_eq, restriction?_congr same_origins]
      rfl

/-- Stations of two types, spelled in two ways. -/
theorem prepare_eq_of_respelled_stations :
    let options : Options :=
      { representation := ⟨.node, .tree⟩, limit := 10, offset := 0,
        select := some "sname, scode,,sname", filter := none, showNull := false, distinct := true,
        roles := ["GUEST"] }
    let request : Request := .stations " Weather,Parking"
    let other : Request := .stations "Parking,Weather,Parking"
    SameItems "sname, scode,,sname" "scode,sname" ∧ request.Respelled other ∧
      (request.prepare Resources.bundled options).isOk = true ∧
      other.prepare Resources.bundled { options with select := some "scode,sname" } =
        request.prepare Resources.bundled options := by
  intro options request other
  have select_pieces : pieces ',' "sname, scode,,sname" = ["sname", " scode", "", "sname"] := by
    decide +kernel
  have plain_pieces : pieces ',' "scode,sname" = ["scode", "sname"] := by decide +kernel
  have type_pieces : pieces ',' " Weather,Parking" = [" Weather", "Parking"] := by decide +kernel
  have other_pieces : pieces ',' "Parking,Weather,Parking" = ["Parking", "Weather", "Parking"] := by
    decide +kernel
  have same_select : SameItems "sname, scode,,sname" "scode,sname" := by
    rw [SameItems, select_pieces, plain_pieces]
    have in_order : ["sname", " scode", "", "sname"].Perm ["sname", "", " scode", "sname"] := by
      decide
    refine .trans (.order in_order) (.trans (.symm (.repetition (by decide))) ?_)
    exact .trans (.symm (.empty (by decide) _)) (.blanks (by decide) _)
  have same_types : SameItems " Weather,Parking" "Parking,Weather,Parking" := by
    rw [SameItems, type_pieces, other_pieces]
    have unblanked : trimmed " Weather" = trimmed "Weather" := by decide
    have again : "Parking" ∈ ["Parking", "Weather"] := by decide
    refine .trans (.blanks unblanked _) (.trans (.order (List.Perm.swap _ _ _)) ?_)
    exact .trans (.repetition again) (.order (by decide))
  exact ⟨same_select, .stations same_types, by decide +kernel,
    prepare_eq_of_respelled Resources.bundled options (some "scode,sname") same_select (.stations same_types)⟩

end Recipe

end StationGateway
