import StationGateway.Proofs.Tree.Filing
import StationGateway.Proofs.Tree.Nested

/-!
# What a tree shows on a path

The names on the way through the maps of a layout lead to the entry of some keys, as long as no field
of an object on the way stands in for a map. Objects that are filled by rows have an entry in the map
below them, so none does. -/

namespace StationGateway.Tree

open StationGateway.Order

/-- The value at the end of a path of names. -/
def valueAt? : List String → Json → Option Json
  | [], value => some value
  | name :: path, .object members => (Json.member? name members).bind (valueAt? path)
  | _ :: _, _ => none

/-- The elements of the list at the end of a path of names, none if there is no list. -/
def listAt (path : List String) (tree : Json) : List Json :=
  match valueAt? path tree with
  | some (.array items) => items
  | _ => []

/-- The names on the way through maps to the entry of some keys. -/
def namesTo : List Tier → List String → List String
  | tier :: rest, key :: keys => tier.target.toList ++ key :: namesTo rest keys
  | _, _ => []

namespace Plant

variable {plant : Plant} {tier : Tier} {tiers : List Tier} {leaf : Option Leaf}

/-- Whether the names of maps lead to their entries: objects on the way have an entry in the map below
them, or no fields. -/
def Leads : List Tier → Plant → Prop
  | [], _ => True
  | tier :: rest, plant =>
      (plant.fields = [] ∨ tier.target.isSome ∧ ∃ key, (plant.entryAt? tier.target key).isSome) ∧
        ∀ key entry, plant.entryAt? tier.target key = some entry → Leads rest entry

theorem leads_of_at? (on_way : ∀ path entry tier, plant.at? tiers path = some entry →
      tiers[path.length]? = some tier →
      entry.fields = [] ∨ tier.target.isSome ∧ ∃ key, (entry.entryAt? tier.target key).isSome) :
    plant.Leads tiers := by
  induction tiers generalizing plant with
  | nil => trivial
  | cons tier rest induction =>
      refine ⟨on_way [] plant tier (at?_nil _ plant) rfl, fun key entry found => ?_⟩
      refine induction fun path below other below_eq other_eq => ?_
      exact on_way (key :: path) below other (by rw [at?, found]; exact below_eq) other_eq

/-- What is attached to an object is shown before its fields. -/
theorem find?_members (tidy : plant.Tidy) (name : String) :
    find? name (putAll plant.fields (limbsJson plant.limbs)) =
      ((find? name plant.limbs).map Limb.json).or (find? name plant.fields) := by
  have ascending := (ascending_limbs tidy.root).map Limb.json
  rw [← limbsJson_eq_map] at ascending
  rw [find?_putAll (nodup_keys ascending), limbsJson_eq_map, find?_map]

theorem valueAt?_cons (tidy : plant.Tidy) (name : String) (path : List String) :
    valueAt? (name :: path) plant.json =
      (((find? name plant.limbs).map Limb.json).or (find? name plant.fields)).bind (valueAt? path) := by
  rw [json_eq, valueAt?, member?_eq_find?, find?_members tidy]

/-- The name of a map and a key lead to the entry. -/
theorem valueAt?_entry (tidy : plant.Tidy) (shaped : plant.Shaped leaf (tier :: tiers))
    (leads : plant.Leads (tier :: tiers)) (key : String) (path : List String) :
    valueAt? (tier.target.toList ++ key :: path) plant.json =
      (plant.entryAt? tier.target key).bind fun entry => valueAt? path entry.json := by
  have holds := shaped.1
  have on_way := leads.1
  cases target_eq : tier.target with
  | none =>
      rw [target_eq] at holds on_way
      have no_fields : plant.fields = [] := on_way.resolve_right fun named => by cases named.1
      rw [Option.toList_none, List.nil_append, valueAt?_cons tidy, no_fields, entryAt?]
      cases found : find? key plant.limbs with
      | none => rfl
      | some limb =>
          obtain ⟨entry, rfl⟩ := holds key limb found
          rfl
  | some target =>
      rw [target_eq] at holds on_way
      rw [Option.toList_some, List.singleton_append, valueAt?_cons tidy, entryAt?]
      cases found : find? target plant.limbs with
      | none =>
          have no_fields : plant.fields = [] := by
            refine on_way.resolve_right fun named => ?_
            obtain ⟨other, has_entry⟩ := named.2
            rw [entryAt?, found] at has_entry
            cases has_entry
          rw [no_fields]
          rfl
      | some limb =>
          obtain ⟨entries, rfl⟩ := holds limb found
          rw [Option.map_some, Option.some_or, Option.bind_some, Limb.json, valueAt?,
            member?_eq_find?, entriesJson_eq_map, find?_map]
          dsimp only
          cases find? key entries with
          | none => rfl
          | some entry => rfl

theorem valueAt?_namesTo (tidy : plant.Tidy) (shaped : plant.Shaped leaf tiers)
    (leads : plant.Leads tiers) {keys : List String} (length_eq : keys.length = tiers.length)
    (path : List String) :
    valueAt? (namesTo tiers keys ++ path) plant.json =
      (plant.at? tiers keys).bind fun entry => valueAt? path entry.json := by
  induction tiers generalizing plant keys with
  | nil =>
      obtain rfl := List.eq_nil_of_length_eq_zero length_eq
      rfl
  | cons tier rest induction =>
      obtain ⟨key, keys, rfl⟩ := List.exists_cons_of_length_eq_add_one length_eq
      rw [namesTo, List.append_assoc, List.cons_append, valueAt?_entry tidy shaped leads, at?,
        Option.bind_assoc]
      refine Option.bind_congr fun entry found => ?_
      exact induction (tidy.entryAt? found) (shaped.2 key entry found) (leads.2 key entry found)
        (Nat.succ.inj length_eq)

/-- The elements below the entry of some keys, unless a field of the entry stands in for them. -/
theorem listAt_namesTo {leaf : Leaf} (tidy : plant.Tidy) (shaped : plant.Shaped (some leaf) tiers)
    (leads : plant.Leads tiers) {keys : List String} (length_eq : keys.length = tiers.length)
    (shown : plant.elementsAt tiers keys (targetOf leaf.list) ≠ [] ∨
      plant.Spares (targetOf leaf.list) tiers) :
    listAt (namesTo tiers keys ++ [targetOf leaf.list]) plant.json =
      (plant.elementsAt tiers keys (targetOf leaf.list)).map json := by
  rw [listAt, valueAt?_namesTo tidy shaped leads length_eq]
  rw [elementsAt] at shown ⊢
  cases found : plant.at? tiers keys with
  | none => rfl
  | some entry =>
      have entry_shaped := shaped.at? found
      rw [length_eq, List.drop_length] at entry_shaped
      rw [found, Option.map_some, Option.getD_some, elements] at shown
      rw [Option.bind_some, valueAt?_cons (tidy.at? found), Option.map_some, Option.getD_some, elements]
      cases limb_eq : find? (targetOf leaf.list) entry.limbs with
      | none =>
          rw [limb_eq] at shown
          have spares := shown.resolve_left (not_not_intro rfl)
          rw [spares keys entry length_eq found]
          rfl
      | some limb =>
          obtain ⟨items, rfl⟩ := entry_shaped leaf rfl limb limb_eq
          rw [Option.map_some, Option.some_or, Option.bind_some, Limb.json, valueAt?]
          exact itemsJson_eq_map items

end Plant

/-- The names of the maps of a layout lead to the entries of a tree. -/
theorem Tended.leads {layout : Layout} {filing : Filing} {growth : Growth} {main : Plant}
    (tended : Tended layout filing growth main)
    (named : ∀ tier ∈ layout.tiers.tail, tier.target.isSome) : main.Leads layout.tiers := by
  refine Plant.leads_of_at? fun path entry tier found tier_eq => ?_
  cases path with
  | nil =>
      obtain rfl := Plant.eq_of_at?_nil found
      exact .inl tended.no_fields
  | cons key path =>
      have known : filing.knows (key :: path) = true := by
        rw [← tended.knows _ (List.cons_ne_nil key path), found]
        rfl
      obtain ⟨keys, filed, is_prefix⟩ := List.any_eq_true.mp known
      obtain ⟨more, keys_eq⟩ := List.isPrefixOf_iff_prefix.mp is_prefix
      have lt : (key :: path).length < layout.tiers.length := (List.getElem?_eq_some_iff.mp tier_eq).1
      have length_eq := tended.lengths keys filed
      obtain ⟨next, others, rfl⟩ : ∃ next others, more = next :: others := by
        refine List.exists_cons_of_ne_nil fun nothing => ?_
        rw [← keys_eq, nothing, List.append_nil] at length_eq
        exact absurd length_eq (Nat.ne_of_lt lt)
      -- a filed row that has the path has an entry one step further
      have further : (main.at? layout.tiers ((key :: path) ++ [next])).isSome = true := by
        rw [tended.knows _ (by simp)]
        refine List.any_eq_true.mpr ⟨keys, filed, List.isPrefixOf_iff_prefix.mpr ⟨others, ?_⟩⟩
        rw [List.append_assoc]
        exact keys_eq
      have tiers_eq : layout.tiers.drop (key :: path).length =
          tier :: layout.tiers.drop ((key :: path).length + 1) := by
        rw [List.drop_eq_getElem_cons lt, (List.getElem?_eq_some_iff.mp tier_eq).2]
      rw [Plant.at?_append, found, Option.bind_some, tiers_eq, Plant.at?] at further
      have below_first : layout.tiers.tail[path.length]? = some tier := by
        rw [List.getElem?_tail]
        exact tier_eq
      refine .inr ⟨named tier (List.mem_of_getElem? below_first), next, ?_⟩
      cases entry_eq : entry.entryAt? tier.target next with
      | none =>
          rw [entry_eq] at further
          cases further
      | some below => rfl

end StationGateway.Tree
