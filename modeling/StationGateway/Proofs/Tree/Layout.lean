import StationGateway.Catalogue.Mobility
import StationGateway.Proofs.Recipe.Stages
import StationGateway.Tree.Growth

/-!
# Layouts of trees

The shape of the trees that the API serves: maps nested in maps, objects folded into their entries,
and possibly a list of elements below the innermost entries. Every recipe has one of six layouts. -/

namespace StationGateway.Tree

open Recipe Outcome

/-- A map: its list, and the lists whose objects are folded into its entries. -/
structure Tier where
  /-- The list of the entries. -/
  list : TargetList
  /-- The lists of what is folded into an entry. -/
  inlines : List TargetList

/-- A list of elements: its list, the lists of which each element takes a field, and the lists whose
objects are folded into an element. -/
structure Leaf where
  /-- The list of the elements. -/
  list : TargetList
  /-- The lists of which an element takes a field. -/
  merges : List TargetList
  /-- The lists of what is folded into an element. -/
  inlines : List TargetList

/-- The shape of a tree. -/
structure Layout where
  /-- The list at which the tree begins. -/
  entry : String
  /-- The lists at which it ends. -/
  exits : List ExitPoint
  /-- The maps from the outermost one on. -/
  tiers : List Tier
  /-- What stands below the innermost entries. -/
  leaf : Option Leaf

/-- The levels of a leaf below objects into which some lists are folded. -/
def leafLevels (inlines : List TargetList) : Option Leaf → List (List TargetList)
  | none => [inlines]
  | some leaf => [inlines ++ leaf.list :: leaf.merges, leaf.inlines]

/-- The levels of maps and a leaf below objects into which some lists are folded. -/
def levelsBelow (leaf : Option Leaf) : List TargetList → List Tier → List (List TargetList)
  | inlines, [] => (leafLevels inlines leaf).filter fun level => !level.isEmpty
  | inlines, tier :: rest => (inlines ++ [tier.list]) :: levelsBelow leaf tier.inlines rest

/-- The key column of a map. -/
def Tier.column (tier : Tier) : String :=
  tier.list.lookUp.key.getD ""

/-- The attribute of the parent that holds a map, none if the entries are the parent's own. -/
def Tier.target (tier : Tier) : Option String :=
  tier.list.lookUp.parentTarget

/-- The attribute of the parent under which the objects of a list attach. -/
def targetOf (list : TargetList) : String :=
  list.lookUp.parentTarget.getD ""

section Lists

variable {leaf : Option Leaf} {inlines : List TargetList} {tiers : List Tier} {tier : Tier}
  {list : TargetList}

/-- The lists below an object. -/
theorem mem_levelsBelow_nil :
    list ∈ (levelsBelow leaf inlines []).flatten ↔ list ∈ inlines ∨
      ∃ found ∈ leaf, list = found.list ∨ list ∈ found.merges ∨ list ∈ found.inlines := by
  rw [levelsBelow, List.flatten_filter_not_isEmpty]
  cases leaf with
  | none => simp [leafLevels]
  | some leaf => simp [leafLevels]

theorem mem_levelsBelow_cons :
    list ∈ (levelsBelow leaf inlines (tier :: tiers)).flatten ↔ list ∈ inlines ∨ list = tier.list ∨
      list ∈ (levelsBelow leaf tier.inlines tiers).flatten := by
  simp [levelsBelow]

/-- What is folded into the entries of a map belongs to the lists. -/
theorem mem_levelsBelow_of_inlines (tier_in : tier ∈ tiers) (member : list ∈ tier.inlines) :
    list ∈ (levelsBelow leaf inlines tiers).flatten := by
  induction tiers generalizing inlines with
  | nil => cases tier_in
  | cons first rest induction =>
      refine mem_levelsBelow_cons.mpr (.inr (.inr ?_))
      rcases List.mem_cons.mp tier_in with rfl | in_rest
      · cases rest with
        | nil => exact mem_levelsBelow_nil.mpr (.inl member)
        | cons second rest => exact mem_levelsBelow_cons.mpr (.inl member)
      · exact induction in_rest

end Lists

namespace Layout

/-- The levels of the lists. -/
def levels (layout : Layout) : List (List TargetList) :=
  levelsBelow layout.leaf [] layout.tiers

/-- The key columns. -/
def columns (layout : Layout) : List String :=
  layout.tiers.map Tier.column

/-- Stations by type. -/
def stations : Layout where
  entry := "stationtype"
  exits := exitsBefore ["datatype", "metadatahistory"]
  tiers := [⟨Mobility.stationType, []⟩, ⟨Mobility.station, [Mobility.parent]⟩]
  leaf := none

/-- Stations with their metadata over time. -/
def history : Layout where
  entry := "stationtype"
  exits := exitsBefore ["datatype"]
  tiers := [⟨Mobility.stationType, []⟩, ⟨Mobility.station, [Mobility.parent]⟩]
  leaf := some ⟨Mobility.metadataHistory, [], []⟩

/-- Stations with what is measured there. -/
def dataTypes : Layout where
  entry := "stationtype"
  exits := exitsBefore ["measurement", "measurementdouble", "measurementstring", "measurementjson",
    "metadatahistory"]
  tiers := [⟨Mobility.stationType, []⟩, ⟨Mobility.station, [Mobility.parent]⟩,
    ⟨Mobility.datatype, []⟩]
  leaf := none

/-- Stations with their measurements. -/
def measurements : Layout where
  entry := "stationtype"
  exits := exitsBefore ["metadatahistory"]
  tiers := [⟨Mobility.stationType, []⟩, ⟨Mobility.station, [Mobility.parent]⟩,
    ⟨Mobility.datatype, []⟩]
  leaf := some
    ⟨Mobility.measurement,
      [Mobility.measurementDouble, Mobility.measurementString, Mobility.measurementJson],
      [Mobility.provenance]⟩

/-- Edges by type. -/
def edges : Layout where
  entry := "edgetype"
  exits := []
  tiers := [⟨Mobility.edgeType, []⟩, ⟨Mobility.edge, [Mobility.stationBegin, Mobility.stationEnd]⟩]
  leaf := none

/-- Events by origin and series. -/
def events : Layout where
  entry := "eventorigin"
  exits := []
  tiers := [⟨Mobility.eventOrigin, []⟩, ⟨Mobility.eventSeries, []⟩,
    ⟨Mobility.event, [Mobility.location, Mobility.provenanceEvent]⟩]
  leaf := none

/-- The layouts of the trees that the API serves. -/
def served : List Layout :=
  [stations, history, dataTypes, measurements, edges, events]

end Layout

/-- The layout of the tree that answers a request. -/
def layoutOf : Recipe.Request → Layout
  | .stations _ => .stations
  | .stationsWithHistory .. => .history
  | .stationsWithTypes .. => .dataTypes
  | .measurements .. => .measurements
  | .edges _ => .edges
  | .events .. => .events

theorem layoutOf_served (request : Recipe.Request) : layoutOf request ∈ Layout.served := by
  cases request <;> simp [layoutOf, Layout.served]

/-- A request that is ready for the database builds the tree of its layout. -/
theorem entry_eq_of_prepare {request : Recipe.Request} {resources : Resources} {options : Options}
    {prepared : Prepared} (ready : request.prepare resources options = .ok prepared) :
    prepared.entry = (layoutOf request).entry ∧ prepared.exits = (layoutOf request).exits ∧
      prepared.collapses = request.measures := by
  cases request with
  | stations types =>
      obtain ⟨_, _, ready⟩ := bind_eq_ok_iff.mp ready
      obtain ⟨_, _, ready⟩ := bind_eq_ok_iff.mp ready
      obtain rfl := Except.ok.inj ready
      exact ⟨rfl, rfl, rfl⟩
  | stationsWithHistory types first last =>
      obtain ⟨_, _, ready⟩ := bind_eq_ok_iff.mp ready
      obtain ⟨_, _, ready⟩ := bind_eq_ok_iff.mp ready
      obtain rfl := Except.ok.inj ready
      exact ⟨rfl, rfl, rfl⟩
  | stationsWithTypes types datatypes =>
      obtain ⟨_, _, ready⟩ := bind_eq_ok_iff.mp ready
      obtain ⟨_, _, ready⟩ := bind_eq_ok_iff.mp ready
      obtain rfl := Except.ok.inj ready
      exact ⟨rfl, rfl, rfl⟩
  | measurements types datatypes window =>
      obtain ⟨_, _, ready⟩ := bind_eq_ok_iff.mp ready
      obtain ⟨_, _, ready⟩ := bind_eq_ok_iff.mp ready
      obtain ⟨_, _, ready⟩ := bind_eq_ok_iff.mp ready
      obtain ⟨_, _, ready⟩ := bind_eq_ok_iff.mp ready
      obtain ⟨_, _, ready⟩ := bind_eq_ok_iff.mp ready
      obtain rfl := Except.ok.inj ready
      exact ⟨rfl, rfl, rfl⟩
  | edges types =>
      obtain ⟨_, _, ready⟩ := bind_eq_ok_iff.mp ready
      obtain ⟨_, _, ready⟩ := bind_eq_ok_iff.mp ready
      obtain rfl := Except.ok.inj ready
      exact ⟨rfl, rfl, rfl⟩
  | events origins window =>
      obtain ⟨_, _, ready⟩ := bind_eq_ok_iff.mp ready
      obtain ⟨_, _, ready⟩ := bind_eq_ok_iff.mp ready
      obtain ⟨_, _, ready⟩ := bind_eq_ok_iff.mp ready
      obtain rfl := Except.ok.inj ready
      exact ⟨rfl, rfl, rfl⟩

/-! ## Fitting layouts -/

/-- Whether the objects of a list are folded into those of a parent. -/
def IsInline (parent : Option String) (list : TargetList) : Prop :=
  list.lookUp.attachment = .inline ∧ list.lookUp.parentList = parent ∧
    list.lookUp.parentTarget.isSome

/-- Whether elements take a field from the objects of a list. -/
def IsMerge (parent : Option String) (list : TargetList) : Prop :=
  list.lookUp.attachment = .merge ∧ list.lookUp.parentList = parent ∧
    list.lookUp.parentTarget.isSome

/-- Whether lists are folded into the objects of a parent, each under an attribute of its own. -/
def AreInlines (parent : Option String) (lists : List TargetList) : Prop :=
  (∀ list ∈ lists, IsInline parent list) ∧ (lists.map targetOf).Nodup

/-- Whether the lists of a leaf attach where the layout has them, beside what is folded into the
parent. -/
def Leaf.Fits (leaf : Leaf) (parent : Option String) (beside : List TargetList) : Prop :=
  leaf.list.lookUp.attachment = .list ∧ leaf.list.lookUp.parentList = parent ∧
    leaf.list.lookUp.parentTarget.isSome ∧ (∀ list ∈ beside, targetOf list ≠ targetOf leaf.list) ∧
    (∀ list ∈ leaf.merges, IsMerge (some leaf.list.name) list) ∧
    AreInlines (some leaf.list.name) leaf.inlines

/-- Whether the list of a map attaches where the layout has it, beside what is folded into the
parent. -/
def Tier.Fits (tier : Tier) (parent : Option String) (beside : List TargetList) : Prop :=
  tier.list.lookUp.attachment = .map ∧ tier.list.lookUp.parentList = parent ∧
    tier.list.lookUp.key = some tier.column ∧
    ∀ list ∈ beside, tier.target.isSome ∧ tier.target ≠ some (targetOf list)

/-- Whether lists attach where a layout has them, below objects of a parent. -/
def FitsBelow (leaf : Option Leaf) : Option String → List TargetList → List Tier → Prop
  | parent, inlines, [] =>
      AreInlines parent inlines ∧ ∀ found ∈ leaf, found.Fits parent inlines
  | parent, inlines, tier :: rest =>
      AreInlines parent inlines ∧ tier.Fits parent inlines ∧
        FitsBelow leaf (some tier.list.name) tier.inlines rest

instance (parent : Option String) (list : TargetList) : Decidable (IsInline parent list) :=
  inferInstanceAs (Decidable (_ ∧ _))

instance (parent : Option String) (list : TargetList) : Decidable (IsMerge parent list) :=
  inferInstanceAs (Decidable (_ ∧ _))

instance (parent : Option String) (lists : List TargetList) : Decidable (AreInlines parent lists) :=
  inferInstanceAs (Decidable (_ ∧ _))

instance (leaf : Leaf) (parent : Option String) (beside : List TargetList) :
    Decidable (leaf.Fits parent beside) :=
  inferInstanceAs (Decidable (_ ∧ _))

instance (tier : Tier) (parent : Option String) (beside : List TargetList) :
    Decidable (tier.Fits parent beside) :=
  inferInstanceAs (Decidable (_ ∧ _))

instance decidableFitsBelow (leaf : Option Leaf) :
    (parent : Option String) → (inlines : List TargetList) → (tiers : List Tier) →
      Decidable (FitsBelow leaf parent inlines tiers)
  | parent, inlines, [] =>
      inferInstanceAs (Decidable (AreInlines parent inlines ∧ ∀ found ∈ leaf, found.Fits parent inlines))
  | parent, inlines, tier :: rest =>
      have := decidableFitsBelow leaf (some tier.list.name) tier.inlines rest
      inferInstanceAs (Decidable (AreInlines parent inlines ∧ tier.Fits parent inlines ∧
        FitsBelow leaf (some tier.list.name) tier.inlines rest))

/-- A layout that can be followed: its lists attach where it has them and differ by name. -/
structure Layout.Fits (layout : Layout) : Prop where
  /-- The lists attach where the layout has them. -/
  below : FitsBelow layout.leaf none [] layout.tiers
  /-- The lists differ by name. -/
  names : (layout.levels.flatten.map (·.name)).Nodup

theorem Layout.fits_of_served {layout : Layout} (served : layout ∈ Layout.served) : layout.Fits := by
  have fits : ∀ layout ∈ Layout.served, FitsBelow layout.leaf none [] layout.tiers ∧
      (layout.levels.flatten.map (·.name)).Nodup := by
    decide +kernel
  exact ⟨(fits layout served).1, (fits layout served).2⟩

/-- The plan of a layout for rows with the columns of `first`. -/
def Layout.plan (layout : Layout) (sizeLimit : Int) (first : Row) : Plan where
  levels := layout.levels
  keys := layout.columns
  columns := Order.mapOfList (layout.levels.flatten.map fun list => (list.name, columnsOf list first))
  showNull := false
  sizeLimit := sizeLimit

/-- The names of the lists, level by level. -/
def Layout.levelNames (layout : Layout) : List (List String) :=
  layout.levels.map fun level => level.map (·.name)

/-- The catalogue lays out its lists by the layouts. -/
theorem Layout.hierarchy_eq {layout : Layout} (served : layout ∈ Layout.served) :
    Mobility.catalogue.hierarchy layout.entry layout.exits = .ok layout.levelNames ∧
      layout.levelNames.map (fun level => level.filterMap Mobility.catalogue.get?) = layout.levels ∧
      Mobility.catalogue.triggerKeys layout.levelNames = layout.columns := by
  have hierarchies : ∀ layout ∈ Layout.served,
      (Mobility.catalogue.get? layout.entry).isNone = false ∧
      Mobility.catalogue.levelsFrom layout.exits (Mobility.catalogue.lists.length + 1) [layout.entry]
          [layout.entry] = layout.levelNames ∧
      layout.levelNames.map (fun level => level.filterMap Mobility.catalogue.get?) = layout.levels ∧
      Mobility.catalogue.triggerKeys layout.levelNames = layout.columns := by
    decide +kernel
  obtain ⟨known, names_eq, levels_eq, keys_eq⟩ := hierarchies layout served
  refine ⟨?_, levels_eq, keys_eq⟩
  rw [Catalogue.hierarchy, known, if_neg Bool.false_ne_true, names_eq]

/-- The plan of a layout for rows with the columns of `first`, with or without nulls. -/
theorem Layout.planFor_showing {layout : Layout} (served : layout ∈ Layout.served) (showNull : Bool)
    (sizeLimit : Int) (first : Row) :
    planFor Mobility.catalogue layout.entry layout.exits showNull sizeLimit first =
      .ok { layout.plan sizeLimit first with showNull } := by
  obtain ⟨hierarchy_eq, levels_eq, keys_eq⟩ := Layout.hierarchy_eq served
  simp only [planFor, hierarchy_eq, levels_eq, keys_eq]
  rfl

theorem Layout.planFor_eq {layout : Layout} (served : layout ∈ Layout.served) (sizeLimit : Int)
    (first : Row) :
    planFor Mobility.catalogue layout.entry layout.exits false sizeLimit first =
      .ok (layout.plan sizeLimit first) :=
  Layout.planFor_showing served false sizeLimit first

end StationGateway.Tree
