import StationGateway.Proofs.Tree.Bearing
import StationGateway.Proofs.Tree.Filing
import StationGateway.Proofs.Tree.Nested

/-!
# Trees of ordered rows

Rows whose keys come in one piece at every level are all filed: a row either goes on filling an entry
that the row before was filling or begins a new one, and no entry is ever taken up. So the tree of such
rows is the one that grouping them gives. -/

namespace StationGateway.Tree

open StationGateway.Order

/-! ## Ordered rows -/

/-- Whether equal labels stand next to each other. -/
def Contiguous {β : Type} (labels : List β) : Prop :=
  ∀ last < labels.length, ∀ between < last, ∀ first < between,
    labels[first]? = labels[last]? → labels[between]? = labels[last]?

instance {β : Type} [DecidableEq β] (labels : List β) : Decidable (Contiguous labels) :=
  inferInstanceAs (Decidable (∀ last < labels.length, ∀ between < last, ∀ first < between,
    labels[first]? = labels[last]? → labels[between]? = labels[last]?))

/-- A label that was there before is the last one. -/
theorem Contiguous.getLast? {β : Type} {done rest : List β} {label : β}
    (contiguous : Contiguous (done ++ label :: rest)) (member : label ∈ done) :
    done.getLast? = some label := by
  obtain ⟨first, lt, found⟩ := List.mem_iff_getElem.mp member
  have at_first : (done ++ label :: rest)[first]? = some label := by
    rw [List.getElem?_append_left lt, List.getElem?_eq_getElem lt, found]
  have at_last : (done ++ label :: rest)[done.length]? = some label := by
    rw [List.getElem?_append_right (Nat.le_refl _), Nat.sub_self]
    rfl
  rw [List.getLast?_eq_getElem?]
  by_cases is_last : first = done.length - 1
  · rw [← is_last, List.getElem?_eq_getElem lt, found]
  · have between_lt : done.length - 1 < done.length := by omega
    have between_eq := contiguous done.length (by simp) (done.length - 1) between_lt first (by omega)
      (at_first.trans at_last.symm)
    rw [List.getElem?_append_left between_lt, at_last] at between_eq
    exact between_eq

/-- Whether two rows have the same cells in the columns of a list. -/
def AgreeOn (list : TargetList) (row other : Row) : Prop :=
  ∀ column ∈ columnsOf list row, Json.member? column.label row = Json.member? column.label other

/-- Rows that can be nested by a layout as they come. -/
structure Ordered (layout : Layout) (rows : List Row) : Prop where
  /-- They share their columns. -/
  shared : ∀ row ∈ rows, ∀ other ∈ rows, row.map (·.1) = other.map (·.1)
  /-- They have a text in every key column. -/
  keyed : ∀ row ∈ rows, IsKeyed layout.columns row
  /-- Rows with the same first keys come in one piece. -/
  contiguous : ∀ depth ≤ layout.columns.length,
    Contiguous (rows.map fun row => (keysIn layout.columns row).take depth)
  /-- What is folded into an entry is the same for all rows of the entry. -/
  agree : ∀ row ∈ rows, ∀ other ∈ rows, ∀ depth tier, layout.tiers[depth]? = some tier →
    (keysIn layout.columns row).take (depth + 1) = (keysIn layout.columns other).take (depth + 1) →
      ∀ list ∈ tier.inlines, AgreeOn list row other
  /-- No cell lies inside another one. -/
  apart : ∀ row ∈ rows, ∀ list ∈ layout.levels.flatten, AreApart (columnsOf list row)

theorem cellsOf_congr {list : TargetList} {row other : Row}
    (shared : row.map (·.1) = other.map (·.1)) (agree : AgreeOn list row other) :
    cellsOf list row = cellsOf list other := by
  have placed_eq : placedCells (columnsOf list row) row = placedCells (columnsOf list row) other :=
    List.filterMap_congr fun column member => by rw [agree column member]
  rw [cellsOf, cellsOf, ← columnsOf_congr shared, placed_eq]

/-! ## One more row -/

theorem le_agreement {depth : Nat} {keys others : List String} (within : depth ≤ keys.length)
    (same : keys.take depth = others.take depth) : depth ≤ agreement keys others := by
  induction depth generalizing keys others with
  | zero => exact Nat.zero_le _
  | succ depth induction =>
      obtain ⟨key, keys, rfl⟩ := List.exists_cons_of_length_pos (Nat.zero_lt_of_lt within)
      cases others with
      | nil => cases same
      | cons other others =>
          obtain ⟨same_key, same_rest⟩ := List.cons.inj same
          rw [agreement, if_pos same_key]
          exact Nat.succ_le_succ (induction (Nat.le_of_succ_le_succ within) same_rest)

theorem inlinesAfter_succ {inlines : List TargetList} {tiers : List Tier} {depth : Nat} {tier : Tier}
    (tier_eq : tiers[depth]? = some tier) : inlinesAfter inlines tiers (depth + 1) = tier.inlines := by
  induction depth generalizing tiers inlines with
  | zero =>
      cases tiers with
      | nil => cases tier_eq
      | cons first rest =>
          obtain rfl := Option.some.inj tier_eq
          cases rest with
          | nil => rfl
          | cons second rest => rfl
  | succ depth induction =>
      cases tiers with
      | nil => cases tier_eq
      | cons first rest => exact induction tier_eq

/-- A filing of rows that were all filed one after the other. -/
structure Filing.Whole (layout : Layout) (done : List Row) (filing : Filing) : Prop where
  /-- The keys of the row before are those of the last one. -/
  previous : filing.previous = (done.getLast?.map (keysIn layout.columns)).getD []
  /-- All objects that are being filled stand in the tree. -/
  live : ∀ depth < filing.previous.length, filing.live depth = true
  /-- All rows are filed. -/
  filed : filing.filed = done.map (keysIn layout.columns)

namespace Filing

variable {layout : Layout} {done : List Row} {filing : Filing} {row : Row}

theorem whole_start (layout : Layout) : Filing.start.Whole layout [] :=
  ⟨rfl, fun depth lt => absurd lt (Nat.not_lt_zero depth), rfl⟩

theorem Whole.files (whole : filing.Whole layout done) (keys : List String) :
    filing.files keys = true := by
  have kept_previous : filing.kept keys ≤ filing.previous.length := agreement_le_left _ _
  rw [Filing.files]
  cases kept_eq : filing.kept keys with
  | zero => rfl
  | succ depth =>
      rw [kept_eq] at kept_previous
      simpa using whole.live depth kept_previous

/-- The first new key of a row has not been seen below the entry that the row goes on filling. -/
theorem fresh_of_piece (piece : ∀ depth ≤ layout.columns.length, ∀ earlier ∈ done,
      (keysIn layout.columns earlier).take depth = (keysIn layout.columns row).take depth →
        filing.previous.take depth = (keysIn layout.columns row).take depth)
    (lt : filing.kept (keysIn layout.columns row) < layout.columns.length) :
    ∀ earlier ∈ done,
      (keysIn layout.columns earlier).take (filing.kept (keysIn layout.columns row) + 1) ≠
        (keysIn layout.columns row).take (filing.kept (keysIn layout.columns row) + 1) := by
  intro earlier member same
  have length_eq : (keysIn layout.columns row).length = layout.columns.length := List.length_map _
  have taken := piece _ lt earlier member same
  have within := congrArg List.length taken
  rw [List.length_take, List.length_take] at within
  have one_more : filing.kept (keysIn layout.columns row) + 1 ≤
      agreement filing.previous (keysIn layout.columns row) := le_agreement (by omega) taken
  exact absurd one_more (Nat.not_succ_le_self _)

/-- No row before is on the path of a row beyond what it goes on filling. -/
theorem Whole.knows_eq_false (whole : filing.Whole layout done)
    (piece : ∀ depth ≤ layout.columns.length, ∀ earlier ∈ done,
      (keysIn layout.columns earlier).take depth = (keysIn layout.columns row).take depth →
        filing.previous.take depth = (keysIn layout.columns row).take depth)
    {depth : Nat} (not_above : filing.kept (keysIn layout.columns row) ≤ depth)
    (lt : depth < layout.columns.length) :
    filing.knows ((keysIn layout.columns row).take (depth + 1)) = false := by
  have length_eq : (keysIn layout.columns row).length = layout.columns.length := List.length_map _
  rw [Filing.knows, whole.filed, List.any_eq_false]
  intro keys member is_prefix
  obtain ⟨earlier, earlier_in, rfl⟩ := List.mem_map.mp member
  obtain ⟨more, keys_eq⟩ := List.isPrefixOf_iff_prefix.mp is_prefix
  refine fresh_of_piece piece (by omega) earlier earlier_in ?_
  rw [← keys_eq, List.take_append_of_le_length (by rw [List.length_take]; omega), List.take_take,
    Nat.min_eq_left (by omega)]

/-- One more row is filed. -/
theorem Whole.next (whole : filing.Whole layout done)
    (piece : ∀ depth ≤ layout.columns.length, ∀ earlier ∈ done,
      (keysIn layout.columns earlier).take depth = (keysIn layout.columns row).take depth →
        filing.previous.take depth = (keysIn layout.columns row).take depth) :
    (filing.next (keysIn layout.columns row)).Whole layout (done ++ [row]) := by
  have files := whole.files (keysIn layout.columns row)
  have kept_previous : filing.kept (keysIn layout.columns row) ≤ filing.previous.length :=
    agreement_le_left _ _
  have length_eq : (keysIn layout.columns row).length = layout.columns.length := List.length_map _
  refine ⟨?_, fun depth lt => ?_, ?_⟩
  · rw [List.getLast?_concat]
    rfl
  · change (if depth < filing.kept (keysIn layout.columns row) then filing.live depth else _) = true
    split_ifs with is_above
    · exact whole.live depth (Nat.lt_of_lt_of_le is_above kept_previous)
    · rw [files, Bool.true_and, Bool.or_eq_true, beq_iff_eq, Bool.not_eq_true']
      refine or_iff_not_imp_left.mpr fun not_kept => ?_
      have lt_keys : depth < (keysIn layout.columns row).length := lt
      exact whole.knows_eq_false piece (by omega) (by omega)
  · rw [Filing.next, files, if_pos rfl, whole.filed, List.map_append]
    rfl

end Filing

/-- A tree of rows that were all filed. -/
structure Grown (layout : Layout) (plan : Plan) (done : List Row) (filing : Filing) (growth : Growth)
    (main : Plant) : Prop where
  /-- It stands at the root. -/
  tended : Tended layout filing growth main
  /-- It bears the rows. -/
  bears : Bears (fun list row => fieldsOf plan row list) layout.leaf [] layout.tiers done main
  /-- All rows are filed. -/
  whole : filing.Whole layout done

theorem Grown.addRow {layout : Layout} {plan : Plan} {done : List Row} {filing : Filing}
    {growth : Growth} {main : Plant} {row : Row} (grown : Grown layout plan done filing growth main)
    (fits : layout.Fits) (follows : plan.Follows layout) (shows : plan.showNull = false)
    (keyed : IsKeyed layout.columns row)
    (piece : ∀ depth ≤ layout.columns.length, ∀ earlier ∈ done,
      (keysIn layout.columns earlier).take depth = (keysIn layout.columns row).take depth →
        filing.previous.take depth = (keysIn layout.columns row).take depth)
    (agree : ∀ earlier ∈ done, ∀ depth ≤ layout.tiers.length,
      (keysIn layout.columns earlier).take depth = (keysIn layout.columns row).take depth →
        ∀ list ∈ inlinesAfter [] layout.tiers depth,
          fieldsOf plan earlier list = fieldsOf plan row list) :
    ∃ later grown_main, growth.addRow plan row = .ok later ∧
      Grown layout plan (done ++ [row]) (filing.next (keysIn layout.columns row)) later grown_main := by
  have row_keys := keysOf_eq keyed
  have columns_length : layout.columns.length = layout.tiers.length := List.length_map _
  have kept_le := kept_le_tiers row_keys filing
  have kept_previous : filing.kept (keysIn layout.columns row) ≤ filing.previous.length :=
    agreement_le_left _ _
  have known : 0 < filing.kept (keysIn layout.columns row) → ∃ earlier ∈ done,
      (keysIn layout.columns earlier).take (filing.kept (keysIn layout.columns row)) =
        (keysIn layout.columns row).take (filing.kept (keysIn layout.columns row)) := by
    intro positive
    have previous_eq := grown.whole.previous
    cases last_eq : done.getLast? with
    | none =>
        rw [last_eq] at previous_eq
        rw [previous_eq] at kept_previous
        exact absurd positive (Nat.not_lt.mpr kept_previous)
    | some last =>
        rw [last_eq] at previous_eq
        refine ⟨last, List.mem_of_getLast? last_eq, ?_⟩
        have taken := take_agreement filing.previous (keysIn layout.columns row)
        rw [previous_eq] at taken
        rw [Filing.kept, previous_eq]
        exact taken.symm
  obtain ⟨later, seed, added, fields, no_limbs, -, tended⟩ :=
    grown.tended.addRow_filed fits follows row_keys (grown.whole.files _)
  rw [shows] at tended
  have bears := bears_extend fits.below ⟨fields, no_limbs⟩
    (grown.tended.has.tidy grown.tended.sound.tidy) grown.tended.shaped grown.bears kept_le agree known
    fun lt => Filing.fresh_of_piece piece (columns_length ▸ lt)
  exact ⟨later, _, added, tended, bears, grown.whole.next piece⟩

/-! ## All rows -/

section Run

variable {layout : Layout} {rows : List Row} {first row : Row} {sizeLimit : Int}

/-- The new objects of ordered rows have their cells. -/
theorem Ordered.fieldsOf_eq (ordered : Ordered layout rows) (fits : layout.Fits)
    (first_in : first ∈ rows) (row_in : row ∈ rows) {list : TargetList}
    (list_in : list ∈ layout.levels.flatten) :
    fieldsOf (layout.plan sizeLimit first) row list = cellsOf list row := by
  rw [fieldsOf_plan fits list_in, columnsOf_congr (ordered.shared first first_in row row_in)]
  exact cellsOf_eq (ordered.apart row row_in list list_in)

/-- What is folded into an entry does not change with its rows. -/
theorem Ordered.folded_eq (ordered : Ordered layout rows) (fits : layout.Fits)
    (first_in : first ∈ rows) (row_in : row ∈ rows) {earlier : Row} (earlier_in : earlier ∈ rows)
    {depth : Nat} (depth_le : depth ≤ layout.tiers.length)
    (same : (keysIn layout.columns earlier).take depth = (keysIn layout.columns row).take depth)
    {list : TargetList} (list_in : list ∈ inlinesAfter [] layout.tiers depth) :
    fieldsOf (layout.plan sizeLimit first) earlier list =
      fieldsOf (layout.plan sizeLimit first) row list := by
  cases depth with
  | zero =>
      rw [inlinesAfter_zero] at list_in
      cases list_in
  | succ depth =>
      have tier_eq : layout.tiers[depth]? = some layout.tiers[depth] := List.getElem?_eq_getElem depth_le
      rw [inlinesAfter_succ tier_eq] at list_in
      have in_layout : list ∈ layout.levels.flatten :=
        mem_levelsBelow_of_inlines (List.mem_of_getElem? tier_eq) list_in
      rw [ordered.fieldsOf_eq fits first_in earlier_in in_layout,
        ordered.fieldsOf_eq fits first_in row_in in_layout]
      exact cellsOf_congr (ordered.shared earlier earlier_in row row_in)
        (ordered.agree earlier earlier_in row row_in depth _ tier_eq same list list_in)

/-- The row before a row has the same first keys if any row before has them. -/
theorem last_eq_of_contiguous {done rest : List Row} {depth : Nat}
    (contiguous : Contiguous ((done ++ row :: rest).map fun row => (keysIn layout.columns row).take depth))
    {earlier : Row} (earlier_in : earlier ∈ done)
    (same : (keysIn layout.columns earlier).take depth = (keysIn layout.columns row).take depth) :
    ((done.getLast?.map (keysIn layout.columns)).getD []).take depth =
      (keysIn layout.columns row).take depth := by
  rw [List.map_append, List.map_cons] at contiguous
  have last_label := contiguous.getLast? (same ▸ List.mem_map_of_mem earlier_in)
  rw [List.getLast?_map] at last_label
  obtain ⟨last, last_eq, label_eq⟩ := Option.map_eq_some_iff.mp last_label
  rw [last_eq]
  exact label_eq

theorem exists_grown (fits : layout.Fits) (unlimited : sizeLimit ≤ 0) {done rest : List Row}
    (ordered : Ordered layout (done ++ rest)) (first_in : first ∈ done ++ rest) {filing : Filing}
    {growth : Growth} {main : Plant}
    (grown : Grown layout (layout.plan sizeLimit first) done filing growth main) :
    ∃ all_filing later grown_main,
      rest.foldlM (Growth.addRow (layout.plan sizeLimit first)) growth = .ok later ∧
        Grown layout (layout.plan sizeLimit first) (done ++ rest) all_filing later grown_main := by
  induction rest generalizing done filing growth main with
  | nil =>
      rw [List.append_nil]
      exact ⟨filing, growth, main, rfl, grown⟩
  | cons row rest induction =>
      have row_in : row ∈ done ++ row :: rest := List.mem_append_right _ List.mem_cons_self
      have done_in : ∀ earlier ∈ done, earlier ∈ done ++ row :: rest := fun _ member =>
        List.mem_append_left _ member
      obtain ⟨middle, middle_main, added, middle_grown⟩ := grown.addRow fits
        (layout.follows unlimited first) rfl (ordered.keyed row row_in)
        (fun depth depth_le earlier member same => grown.whole.previous ▸
          last_eq_of_contiguous (ordered.contiguous depth depth_le) member same)
        (fun earlier member depth depth_le same list list_in =>
          ordered.folded_eq fits first_in row_in (done_in earlier member) depth_le same list_in)
      rw [List.append_cons] at ordered first_in ⊢
      obtain ⟨all_filing, later, grown_main, run, all_grown⟩ := induction ordered first_in middle_grown
      refine ⟨all_filing, later, grown_main, ?_, all_grown⟩
      rw [List.foldlM_cons, added]
      exact run

theorem referenceTree_nil (cells : TargetList → Row → List (String × Json))
    (served : layout ∈ Layout.served) : referenceTree cells layout [] = .object [] := by
  simp only [Layout.served, List.mem_cons, List.not_mem_nil, or_false] at served
  rcases served with rfl | rfl | rfl | rfl | rfl | rfl
  all_goals rfl

/-- The tree of ordered rows is the one that grouping them gives. -/
theorem ofRows_eq_referenceTree (served : layout ∈ Layout.served) (unlimited : sizeLimit ≤ 0)
    (ordered : Ordered layout rows) :
    ofRows Mobility.catalogue layout.entry layout.exits false sizeLimit rows =
      .ok (referenceTree cellsOf layout rows) := by
  have fits := Layout.fits_of_served served
  cases rows with
  | nil =>
      rw [referenceTree_nil cellsOf served]
      rfl
  | cons first rest =>
      have start : Grown layout (layout.plan sizeLimit first) [] .start .start
          (.node Forest.root [] []) :=
        ⟨tended_start layout, bears_of_no_limbs rfl _ _ _, Filing.whole_start layout⟩
      obtain ⟨filing, growth, main, run, grown⟩ :=
        exists_grown fits unlimited ordered List.mem_cons_self start
      have shown := limbsJson_of_bears fits.below
        (grown.tended.has.tidy grown.tended.sound.tidy) grown.tended.shaped (List.cons_ne_nil _ _)
        grown.bears
      have same_cells : membersBelow (fun list row => fieldsOf (layout.plan sizeLimit first) row list)
          layout.leaf [] layout.tiers (first :: rest) =
            membersBelow cellsOf layout.leaf [] layout.tiers (first :: rest) :=
        membersBelow_congr fun list list_in row row_in =>
          ordered.fieldsOf_eq fits List.mem_cons_self row_in list_in
      rw [same_cells] at shown
      rw [ofRows_eq served run, grown.tended.render, shown, referenceTree]

end Run

/-- A row of the latest measurements. -/
def readingRow (station parent zone value collector : Json) : Row :=
  [("_stationtype", .string "Meteo"), ("_stationcode", station), ("_datatypename", .string "air"),
    ("scode", station), ("smetadata.zone.code", zone), ("smetadata.owner", .string "city"),
    ("pname", parent), ("tunit", .string "C"), ("mvalue", value), ("prname", collector)]

/-- Two measurements of one station, one of them with nothing to show, and one of another station. -/
def twoStations : List Row :=
  [ readingRow (.string "hill") (.string "range") (.int 7) (.int 21) (.string "desk")
  , readingRow (.string "hill") (.string "range") (.int 7) .null .null
  , readingRow (.string "lake") .null .null (.int 19) .null ]

theorem ordered_twoStations : Ordered Layout.measurements twoStations where
  shared := by decide +kernel
  keyed := by
    intro row row_in column column_in
    have rows_eq : row ∈ twoStations := row_in
    simp only [twoStations, List.mem_cons, List.not_mem_nil, or_false] at rows_eq
    have columns_eq : column ∈ ["_stationtype", "_stationcode", "_datatypename"] := column_in
    simp only [List.mem_cons, List.not_mem_nil, or_false] at columns_eq
    rcases rows_eq with rfl | rfl | rfl
    all_goals rcases columns_eq with rfl | rfl | rfl
    all_goals exact ⟨_, rfl⟩
  contiguous := by decide +kernel
  agree := by
    intro row row_in other other_in depth tier tier_eq same list list_in
    have at_station : depth = 1 ∧ list = Mobility.parent := by
      match depth with
      | 0 =>
          obtain rfl := Option.some.inj tier_eq
          cases list_in
      | 1 =>
          obtain rfl := Option.some.inj tier_eq
          exact ⟨rfl, List.mem_singleton.mp list_in⟩
      | 2 =>
          obtain rfl := Option.some.inj tier_eq
          cases list_in
      | depth + 3 => cases tier_eq
    obtain ⟨rfl, rfl⟩ := at_station
    simp only [twoStations, List.mem_cons, List.not_mem_nil, or_false] at row_in other_in
    have columns_eq : ∀ station parent zone value collector,
        columnsOf Mobility.parent (readingRow station parent zone value collector) =
          [⟨"pname", .whole "pname"⟩] := fun _ _ _ _ _ => rfl
    rcases row_in with rfl | rfl | rfl
    all_goals rcases other_in with rfl | rfl | rfl
    all_goals
      intro column column_in
      simp only [columns_eq, List.mem_singleton] at column_in
      subst column_in
      first
      | rfl
      | exact absurd same (by decide +kernel)
  apart := by decide +kernel

theorem ofRows_eq_referenceTree_twoStations :
    Ordered Layout.measurements twoStations ∧
      ofRows Mobility.catalogue "stationtype" [⟨"metadatahistory", false⟩] false 0 twoStations =
        .ok (.object [("Meteo", .object [("stations", .object
          [("hill", .object
              [("scode", .string "hill"),
                ("sdatatypes", .object [("air", .object
                  [("tmeasurements", .array
                      [.object [("mprovenance", .object [("prname", .string "desk")]),
                        ("mvalue", .int 21)]]),
                    ("tunit", .string "C")])]),
                ("smetadata", .object [("zone", .object [("code", .int 7)]),
                  ("owner", .string "city")]),
                ("sparent", .object [("pname", .string "range")])]),
            ("lake", .object
              [("scode", .string "lake"),
                ("sdatatypes", .object [("air", .object
                  [("tmeasurements", .array [.object [("mvalue", .int 19)]]),
                    ("tunit", .string "C")])]),
                ("smetadata", .object [("owner", .string "city")])])])])]) := by
  have measurements_served : Layout.measurements ∈ Layout.served := by simp [Layout.served]
  refine ⟨ordered_twoStations, ?_⟩
  exact (ofRows_eq_referenceTree measurements_served (Int.le_refl 0) ordered_twoStations).trans
    (congrArg Except.ok rfl)

end StationGateway.Tree
