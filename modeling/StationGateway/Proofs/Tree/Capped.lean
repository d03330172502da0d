import StationGateway.Proofs.Tree.Ledger
import StationGateway.Proofs.Tree.Ordered

/-!
# Capped trees

A tree is refused as soon as the estimated size of the objects made so far exceeds the cap. The
estimate is the sum of what the rows are counted with, and for rows whose keys come in one piece the
text of the tree is at least as long as what they show, but for what others have replaced. -/

namespace StationGateway.Tree

open StationGateway.Order

/-! ## Estimates -/

namespace Growth

variable {plan : Plan} {row : Row} {growth later : Growth} {list : TargetList}

/-- Attaching an object leaves the estimate. -/
theorem size_attach (attached : growth.attach plan row list = .ok later) :
    later.size = growth.size := by
  have kept : ∀ result : Growth, (.ok result : Except GatewayError Growth) = .ok later →
      result.size = growth.size → later.size = growth.size := fun result same size_eq =>
    Except.ok.inj same ▸ size_eq
  rw [attach] at attached
  split at attached
  next => exact kept _ attached rfl
  next node =>
    dsimp only at attached
    split at attached
    next =>
      rw [attachKeyed] at attached
      split at attached
      next => exact kept _ attached rfl
      next =>
        obtain ⟨key, -, attached⟩ := Outcome.bind_eq_ok_iff.mp attached
        split at attached
        next =>
          refine kept _ attached ?_
          rw [attachRootEntry]
          split <;> rfl
        next =>
          refine kept _ attached ?_
          rw [attachEntry]
          split
          next => rfl
          next => split <;> rfl
          next => rfl
    next => exact kept _ attached rfl
    next =>
      refine kept _ attached ?_
      rw [attachInline]
      split <;> rfl
    next =>
      refine kept _ attached ?_
      rw [attachMerged]
      split <;> rfl
    next =>
      refine kept _ attached ?_
      rw [attachElement]
      split <;> rfl

theorem size_attach_all {order : List TargetList}
    (attached : order.foldlM (attach plan row) growth = .ok later) : later.size = growth.size := by
  induction order generalizing growth with
  | nil => exact congrArg size (Except.ok.inj attached).symm
  | cons list rest induction =>
      rw [List.foldlM_cons] at attached
      obtain ⟨middle, first, attached_rest⟩ := Outcome.bind_eq_ok_iff.mp attached
      rw [induction attached_rest, size_attach first]

theorem size_renew_all (lists : List TargetList) :
    (lists.foldl (renew plan row) growth).size =
      growth.size + (lists.map fun list => (draftOf plan row list).size).sum := by
  induction lists generalizing growth with
  | nil => rfl
  | cons list rest induction =>
      rw [List.foldl_cons, induction, List.map_cons, List.sum_cons, ← Nat.add_assoc]
      rfl

/-- A row adds the estimated sizes of the objects that it makes. -/
theorem size_addRow (added : growth.addRow plan row = .ok later) :
    ∃ keys, keysOf row plan.keys = .ok keys ∧ later.size =
      growth.size + ((plan.levels.drop (growth.keptLevels keys)).flatten.map
        fun list => (draftOf plan row list).size).sum := by
  rw [addRow] at added
  obtain ⟨keys, keys_eq, added⟩ := Outcome.bind_eq_ok_iff.mp added
  obtain ⟨attached, attach_eq, checked⟩ := Outcome.bind_eq_ok_iff.mp added
  have size_eq := size_attach_all attach_eq
  rw [size_renew_all] at size_eq
  refine ⟨keys, keys_eq, ?_⟩
  rw [checkSize] at checked
  split at checked
  · split at checked
    · cases checked
    · exact Except.ok.inj checked ▸ size_eq
  · exact Except.ok.inj checked ▸ size_eq

/-- The estimate never shrinks. -/
theorem size_le_of_run {rows : List Row} (run : rows.foldlM (addRow plan) growth = .ok later) :
    growth.size ≤ later.size := by
  induction rows generalizing growth with
  | nil => exact Nat.le_of_eq (congrArg size (Except.ok.inj run))
  | cons row rest induction =>
      rw [List.foldlM_cons] at run
      obtain ⟨middle, added, rest_run⟩ := Outcome.bind_eq_ok_iff.mp run
      obtain ⟨keys, -, size_eq⟩ := size_addRow added
      have rest_le := induction rest_run
      omega

/-! ## Caps -/

/-- A capped row is checked after it has been added. -/
theorem addRow_capped (plan : Plan) (growth : Growth) (row : Row) :
    growth.addRow plan row = (growth.addRow { plan with sizeLimit := 0 } row).bind (checkSize plan) := by
  rw [addRow, addRow]
  cases keysOf row plan.keys with
  | error error => rfl
  | ok keys =>
      have checked : ∀ attached : Except GatewayError Growth,
          (attached.bind fun attached => checkSize plan { attached with previous := some keys }) =
            (attached.bind fun attached =>
              checkSize { plan with sizeLimit := 0 } { attached with previous := some keys }).bind
                (checkSize plan) := by
        intro attached
        cases attached with
        | error error => rfl
        | ok attached => rfl
      exact checked _

/-- Capped rows give the tree of the same rows without a cap, unless its estimated size exceeds the
cap. -/
theorem foldlM_addRow_capped {limit : Nat} (limit_eq : plan.byteLimit? = some limit) {rows : List Row}
    (run : rows.foldlM (addRow { plan with sizeLimit := 0 }) growth = .ok later)
    (within : growth.size ≤ limit) :
    rows.foldlM (addRow plan) growth =
      if later.size > limit then .error (.responseTooLarge plan.sizeLimit) else .ok later := by
  induction rows generalizing growth with
  | nil =>
      obtain rfl := Except.ok.inj run
      exact (if_neg (Nat.not_lt.mpr within)).symm
  | cons row rest induction =>
      rw [List.foldlM_cons] at run
      obtain ⟨middle, added, rest_run⟩ := Outcome.bind_eq_ok_iff.mp run
      have middle_le := size_le_of_run rest_run
      have checked : growth.addRow plan row = if middle.size > limit
          then .error (.responseTooLarge plan.sizeLimit) else .ok middle := by
        rw [addRow_capped, added]
        change checkSize plan middle = _
        rw [checkSize, limit_eq]
      rw [List.foldlM_cons, checked]
      by_cases exceeds : middle.size > limit
      · rw [if_pos exceeds, if_pos (Nat.lt_of_lt_of_le exceeds middle_le)]
        rfl
      · rw [if_neg exceeds]
        exact induction rest_run (Nat.not_lt.mp exceeds)

end Growth

/-! ## Booked rows -/

/-- A tree of rows that are all in the ledger. -/
structure Booked (layout : Layout) (plan : Plan) (done : List Row) (ledger : Ledger) (filing : Filing)
    (growth : Growth) (main : Plant) : Prop where
  /-- It stands at the root. -/
  tended : Tended layout filing growth main
  /-- All rows are filed. -/
  whole : filing.Whole layout done
  /-- The keys of the row before are those of the filing. -/
  previous : ledger.previous = filing.previous
  /-- The estimate is what is counted. -/
  size : growth.size = ledger.counted
  /-- What has been shown is in the tree unless it has been replaced. -/
  weight : ledger.shown ≤ main.weight layout.objectNames + ledger.replaced
  /-- What is folded into the objects that are being filled was made by their makers. -/
  inlaid : Inlaid layout.objectNames
    (fun depth list => shownBytes layout.objectNames (fieldsOf plan (ledger.makers depth) list)) []
    layout.tiers filing.previous main

theorem Layout.hides (layout : Layout) : Hides layout.objectNames layout.levels.flatten := by
  intro list member not_merge target is_target
  refine List.mem_filterMap.mpr ⟨list, member, ?_⟩
  rw [if_neg not_merge]
  exact is_target

/-- All maps but the outermost one stand under a name. -/
theorem Layout.named_of_served {layout : Layout} (served : layout ∈ Layout.served) :
    ∀ tier ∈ layout.tiers.tail, tier.target.isSome := by
  have named : ∀ layout ∈ Layout.served, ∀ tier ∈ layout.tiers.tail, tier.target.isSome := by
    decide +kernel
  exact named layout served

theorem booked_start (layout : Layout) (plan : Plan) :
    Booked layout plan [] .start .start .start (.node Forest.root [] []) where
  tended := tended_start layout
  whole := Filing.whole_start layout
  previous := rfl
  size := rfl
  weight := Nat.zero_le _
  inlaid := by
    intro depth _ object found list _
    have nothing : Filing.start.previous.take depth = [] := List.take_nil
    rw [nothing, Plant.at?_nil] at found
    obtain rfl := Option.some.inj found
    rw [Plant.weightAt_of_no_limbs rfl]
    exact Nat.zero_le _

section Booked

variable {layout : Layout} {plan : Plan} {done : List Row} {ledger : Ledger} {filing : Filing}
  {growth : Growth} {main : Plant} {row : Row}

/-- A row begins a new entry below the last object that it goes on filling. -/
theorem Tended.entryAt?_stem (tended : Tended layout filing growth main)
    (whole : filing.Whole layout done)
    (piece : ∀ depth ≤ layout.columns.length, ∀ earlier ∈ done,
      (keysIn layout.columns earlier).take depth = (keysIn layout.columns row).take depth →
        filing.previous.take depth = (keysIn layout.columns row).take depth)
    {stem : Plant} (stem_eq : main.at? layout.tiers
      ((keysIn layout.columns row).take (filing.kept (keysIn layout.columns row))) = some stem) :
    ∀ tier ∈ (layout.tiers.drop (filing.kept (keysIn layout.columns row))).head?,
      ∀ key ∈ ((keysIn layout.columns row).drop (filing.kept (keysIn layout.columns row))).head?,
        stem.entryAt? tier.target key = none := by
  intro tier is_tier key is_key
  rw [List.head?_drop] at is_tier is_key
  obtain ⟨lt, rfl⟩ := List.getElem?_eq_some_iff.mp is_key
  have unknown := whole.knows_eq_false piece (Nat.le_refl _) (by rwa [keysIn, List.length_map] at lt)
  have some_key : (keysIn layout.columns row).take (filing.kept (keysIn layout.columns row) + 1) ≠ [] := by
    rw [← List.length_pos_iff, List.length_take]
    omega
  rw [← Plant.at?_take_succ is_tier lt stem_eq, ← Option.isNone_iff_eq_none, ← Option.not_isSome,
    tended.knows _ some_key, unknown]
  rfl

theorem Booked.addRow (booked : Booked layout plan done ledger filing growth main) (fits : layout.Fits)
    (named : ∀ tier ∈ layout.tiers.tail, tier.target.isSome) (follows : plan.Follows layout)
    (keyed : IsKeyed layout.columns row)
    (piece : ∀ depth ≤ layout.columns.length, ∀ earlier ∈ done,
      (keysIn layout.columns earlier).take depth = (keysIn layout.columns row).take depth →
        filing.previous.take depth = (keysIn layout.columns row).take depth) :
    ∃ later booked_main, growth.addRow plan row = .ok later ∧
      Booked layout plan (done ++ [row]) (ledger.next layout plan row)
        (filing.next (keysIn layout.columns row)) later booked_main := by
  have row_keys := keysOf_eq keyed
  have length_eq := length_eq_tiers row_keys
  have kept_le := kept_le_tiers row_keys filing
  have kept_eq : agreement ledger.previous (keysIn layout.columns row) =
      filing.kept (keysIn layout.columns row) := by rw [booked.previous]; rfl
  have files := booked.whole.files (keysIn layout.columns row)
  obtain ⟨stem, stem_eq, -⟩ := booked.tended.exists_stem row_keys files
  obtain ⟨later, seed, added, fields, no_limbs, -, tended⟩ :=
    booked.tended.addRow_filed fits follows row_keys files
  have sprouts : Sprouts seed (fieldsOf plan row) :=
    ⟨fields, fun list => ascending_objectOf _ _ row, no_limbs⟩
  have main_tidy := booked.tended.has.tidy booked.tended.sound.tidy
  have fresh := booked.tended.entryAt?_stem booked.whole piece stem_eq
  have weighed := weight_extend plan.showNull sprouts fits.below layout.hides length_eq
    kept_le main_tidy booked.tended.shaped (.inl booked.tended.no_fields) named stem_eq fresh
  have replaced_le : ((inlinesAfter [] layout.tiers (filing.kept (keysIn layout.columns row))).map
        fun list => stem.weightAt layout.objectNames (targetOf list)).sum ≤
      shownOf layout.objectNames
        (fieldsOf plan (ledger.makers (filing.kept (keysIn layout.columns row))))
        (inlinesAfter [] layout.tiers (filing.kept (keysIn layout.columns row))) := by
    refine List.sum_le_sum fun list member => ?_
    rw [Filing.kept, take_agreement] at stem_eq
    exact booked.inlaid _ kept_le stem stem_eq list member
  have inlaid_before : ∀ depth < filing.kept (keysIn layout.columns row), ∀ object,
      main.at? layout.tiers ((keysIn layout.columns row).take depth) = some object →
        ∀ list ∈ inlinesAfter [] layout.tiers depth, object.weightAt layout.objectNames (targetOf list) ≤
          shownBytes layout.objectNames (fieldsOf plan (ledger.makers depth) list) := by
    intro depth lt object found
    rw [take_of_le_agreement (Nat.le_of_lt lt)] at found
    exact booked.inlaid depth (by omega) object found
  have inlaid := Inlaid.extend plan.showNull sprouts fits.below length_eq kept_le main_tidy
    booked.tended.shaped stem_eq fresh inlaid_before
  refine ⟨later, _, added, tended, booked.whole.next piece, rfl, ?_, ?_, ?_⟩
  · obtain ⟨keys, keys_eq, size_eq⟩ := Growth.size_addRow added
    rw [follows.keys, row_keys] at keys_eq
    obtain rfl := Except.ok.inj keys_eq
    rw [size_eq, booked.size, booked.tended.kept, follows.levels, ← kept_eq]
    rfl
  · have booked_weight := booked.weight
    rw [Ledger.next, kept_eq]
    dsimp only
    omega
  · refine fun depth depth_le object found list member => ?_
    have le := inlaid depth depth_le object found list member
    rw [Ledger.next, kept_eq]
    dsimp only at le ⊢
    split_ifs at le ⊢ with is_above
    · exact le
    · exact le

/-- Rows whose keys come in one piece are all in the ledger. -/
theorem exists_booked {rest : List Row} (fits : layout.Fits)
    (named : ∀ tier ∈ layout.tiers.tail, tier.target.isSome) (follows : plan.Follows layout)
    (keyed : ∀ row ∈ rest, IsKeyed layout.columns row)
    (contiguous : ∀ depth ≤ layout.columns.length,
      Contiguous ((done ++ rest).map fun row => (keysIn layout.columns row).take depth))
    (booked : Booked layout plan done ledger filing growth main) :
    ∃ all_filing later booked_main, rest.foldlM (Growth.addRow plan) growth = .ok later ∧
      Booked layout plan (done ++ rest) (rest.foldl (Ledger.next layout plan) ledger) all_filing later
        booked_main := by
  induction rest generalizing done ledger filing growth main with
  | nil =>
      rw [List.append_nil]
      exact ⟨filing, growth, main, rfl, booked⟩
  | cons row rest induction =>
      obtain ⟨middle, middle_main, added, middle_booked⟩ := booked.addRow fits named follows
        (keyed row List.mem_cons_self) fun depth depth_le earlier member same =>
          booked.whole.previous ▸ last_eq_of_contiguous (contiguous depth depth_le) member same
      rw [List.append_cons] at contiguous ⊢
      obtain ⟨all_filing, later, booked_main, run, all_booked⟩ := induction
        (fun other member => keyed other (List.mem_cons_of_mem row member)) contiguous middle_booked
      refine ⟨all_filing, later, booked_main, ?_, all_booked⟩
      rw [List.foldlM_cons, added]
      exact run

end Booked

/-! ## Trees with a cap -/

section Capped

variable {layout : Layout} {rows : List Row} {cap : Nat}

theorem Layout.byteLimit?_eq (layout : Layout) (showNull : Bool) (first : Row) (positive : 0 < cap)
    (bounded : cap ≤ 1000000) :
    { layout.plan cap first with showNull }.byteLimit? = some (cap * megabyte) := by
  have in_range : cap * megabyte < 0x10000000000000000 := by
    rw [megabyte]
    omega
  have is_positive : (cap : Int) > 0 := by omega
  rw [Plan.byteLimit?]
  change (if (cap : Int) > 0 then some ((cap : Int).toNat * megabyte % _) else none) = _
  rw [if_pos is_positive, Int.toNat_natCast, Nat.mod_eq_of_lt in_range]

/-- A tree is refused exactly if the rows are counted with more than the cap, and it is at least as long
as what has been shown and not replaced. -/
theorem ofRows_capped (served : layout ∈ Layout.served) (keyed : ∀ row ∈ rows, IsKeyed layout.columns row)
    (contiguous : ∀ depth ≤ layout.columns.length,
      Contiguous (rows.map fun row => (keysIn layout.columns row).take depth))
    (showNull : Bool) (positive : 0 < cap) (bounded : cap ≤ 1000000) :
    ∃ tree, ofRows Mobility.catalogue layout.entry layout.exits showNull 0 rows = .ok tree ∧
      (layout.ledger showNull rows).shown ≤ tree.bytes + (layout.ledger showNull rows).replaced ∧
      ofRows Mobility.catalogue layout.entry layout.exits showNull cap rows =
        if (layout.ledger showNull rows).counted > cap * megabyte then .error (.responseTooLarge cap)
        else .ok tree := by
  cases rows with
  | nil =>
      exact ⟨.object [], rfl, Nat.zero_le _, (if_neg (Nat.not_lt_zero _)).symm⟩
  | cons first rest =>
      obtain ⟨filing, growth, main, run, booked⟩ := exists_booked (Layout.fits_of_served served)
        (Layout.named_of_served served) (layout.follows_showing showNull (Int.le_refl 0) first) keyed
        contiguous (booked_start layout _)
      have rendered : growth.forest.render = main.json :=
        Forest.render_of_has booked.tended.has booked.tended.single booked.tended.at_root
      have weight_le : main.weight layout.objectNames ≤ main.json.bytes :=
        main.weight_le_bytes (booked.tended.has.tidy booked.tended.sound.tidy)
      have capped := Growth.foldlM_addRow_capped (layout.byteLimit?_eq showNull first positive bounded)
        run (Nat.zero_le _)
      refine ⟨growth.forest.render, ?_, ?_, ?_⟩
      · rw [ofRows]
        exact Outcome.bind_eq_ok_iff.mpr ⟨_, Layout.planFor_showing served showNull 0 first,
          Outcome.bind_eq_ok_iff.mpr ⟨growth, run, rfl⟩⟩
      · rw [rendered]
        exact Nat.le_trans booked.weight (Nat.add_le_add_right weight_le _)
      · rw [ofRows, Layout.planFor_showing served showNull cap first]
        change Except.bind (List.foldlM _ _ _) _ = _
        rw [capped, booked.size]
        change Except.bind (if (layout.ledger showNull (first :: rest)).counted > _ then _ else _) _ = _
        split_ifs with exceeds
        · rfl
        · rfl

/-- The first row is counted with the objects of all lists. -/
theorem counted_singleton (fits : layout.Fits) (showNull : Bool) (row : Row) :
    (layout.ledger showNull [row]).counted =
      (layout.levels.flatten.map fun list => (objectOf showNull (columnsOf list row) row).size).sum := by
  rw [Layout.ledger, List.foldl_cons, List.foldl_nil, Ledger.next]
  simp only [Ledger.start, agreement, List.drop_zero, Nat.zero_add]
  congr 1
  refine List.map_congr_left fun list member => ?_
  rw [draftOf, Layout.find?_columns fits member, Option.getD_some]
  rfl

end Capped

end StationGateway.Tree
