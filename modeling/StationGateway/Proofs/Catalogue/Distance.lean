import StationGateway.Proofs.Catalogue.Building

/-!
# Levels by distance

The hierarchy below an entry list has on each level the lists at one distance from the entry, counted in
pointers. Walks through pointers never leave an inclusive exit and never enter an exclusive one. The
invariant of the walk is that what has been visited lies within the distance of the level that comes
next, so that the level holds what is new at its own distance. -/

namespace StationGateway

/-! ## Walks through pointers -/

section Walks

variable (lists : List TargetList) (exits : List ExitPoint)

/-- The lists that a list points to, in order and with repetitions. -/
def pointers (name : String) : List String :=
  (lists.filter fun list => list.name = name).flatMap fun list =>
    list.attributes.flatMap Attribute.children

/-- The lists that a walk may enter from a list, in the order in which it points to them. -/
def passages (name : String) : List String :=
  if ⟨name, true⟩ ∈ exits then [] else (pointers lists name).filter fun child => ⟨child, false⟩ ∉ exits

/-- Whether a walk of some length leads from the entry to a list. -/
inductive Walk (entry : String) : Nat → String → Prop where
  /-- The walk that stays. -/
  | start : Walk entry 0 entry
  /-- One more pointer. -/
  | step {length : Nat} {source target : String} (walk : Walk entry length source)
      (enters : target ∈ passages lists exits source) : Walk entry (length + 1) target

/-- Whether the shortest walk from the entry to a list has some length. -/
def AtDistance (entry : String) (distance : Nat) (name : String) : Prop :=
  Walk lists exits entry distance name ∧ ∀ shorter < distance, ¬Walk lists exits entry shorter name

/-- Levels by distance: each level holds the lists at the distance of its depth, in the order in which
the level above first points to them. -/
structure ByDistance (entry : String) (levels : List (List String)) : Prop where
  /-- A level holds the lists at its distance. -/
  members : ∀ depth level, levels[depth]? = some level →
    ∀ name, name ∈ level ↔ AtDistance lists exits entry depth name
  /-- A level holds no list twice. -/
  nodup : ∀ level ∈ levels, level.Nodup
  /-- A level holds a list. -/
  filled : ∀ level ∈ levels, level ≠ []
  /-- A level is in the order in which the level above first points to its lists. -/
  order : ∀ depth level next, levels[depth]? = some level → levels[depth + 1]? = some next →
    next.Pairwise fun first second =>
      (level.flatMap (passages lists exits)).idxOf first <
        (level.flatMap (passages lists exits)).idxOf second
  /-- A list that can be reached stands on exactly one level. -/
  once : ∀ length name, Walk lists exits entry length name →
    ∃! depth : Nat, ∃ level, levels[depth]? = some level ∧ name ∈ level

end Walks

section Distances

variable {lists : List TargetList} {exits : List ExitPoint} {entry name : String} {distance : Nat}

/-- Whatever can be reached is at some distance. -/
theorem Walk.exists_atDistance {length : Nat} (walk : Walk lists exits entry length name) :
    ∃ distance ≤ length, AtDistance lists exits entry distance name := by
  classical
  have reached : ∃ length, Walk lists exits entry length name := ⟨length, walk⟩
  exact ⟨Nat.find reached, Nat.find_min' reached walk, Nat.find_spec reached, fun shorter lt =>
    Nat.find_min reached lt⟩

/-- A list is at one distance only. -/
theorem AtDistance.unique {other : Nat} (first : AtDistance lists exits entry distance name)
    (second : AtDistance lists exits entry other name) : distance = other :=
  Nat.le_antisymm (Nat.not_lt.mp fun lt => first.2 other lt second.1)
    (Nat.not_lt.mp fun lt => second.2 distance lt first.1)

/-- The lists at one distance more are those that can be entered from the lists at a distance and that
no shorter walk reaches. -/
theorem atDistance_succ_iff :
    AtDistance lists exits entry (distance + 1) name ↔
      (∃ source, AtDistance lists exits entry distance source ∧ name ∈ passages lists exits source) ∧
        ∀ length ≤ distance, ¬Walk lists exits entry length name := by
  constructor
  · rintro ⟨walk, shortest⟩
    refine ⟨?_, fun length le => shortest length (Nat.lt_succ_of_le le)⟩
    cases walk with
    | @step _ source _ walk enters =>
        exact ⟨source, ⟨walk, fun shorter lt other =>
          shortest (shorter + 1) (Nat.succ_lt_succ lt) (other.step enters)⟩, enters⟩
  · rintro ⟨⟨source, ⟨walk, -⟩, enters⟩, shortest⟩
    exact ⟨walk.step enters, fun shorter lt => shortest shorter (Nat.le_of_lt_succ lt)⟩

/-- What walks of at most some length reach is reached by shorter ones or stands at that distance. -/
theorem exists_walk_le_succ_iff :
    (∃ length ≤ distance + 1, Walk lists exits entry length name) ↔
      (∃ length ≤ distance, Walk lists exits entry length name) ∨
        AtDistance lists exits entry (distance + 1) name := by
  constructor
  · rintro ⟨length, le, walk⟩
    obtain ⟨shortest, shortest_le, at_shortest⟩ := walk.exists_atDistance
    rcases Nat.le_or_eq_of_le_succ (shortest_le.trans le) with nearer | same
    · exact .inl ⟨shortest, nearer, at_shortest.1⟩
    · obtain rfl := same
      exact .inr at_shortest
  · rintro (⟨length, le, walk⟩ | at_next)
    · exact ⟨length, Nat.le_succ_of_le le, walk⟩
    · exact ⟨_, Nat.le_refl _, at_next.1⟩

/-- Something at a distance has something at every smaller distance on its way. -/
theorem AtDistance.exists_before {more : Nat}
    (far : AtDistance lists exits entry (distance + more) name) :
    ∃ other, AtDistance lists exits entry distance other := by
  induction more generalizing name with
  | zero => exact ⟨name, far⟩
  | succ more induction =>
      obtain ⟨⟨source, source_at, -⟩, -⟩ := atDistance_succ_iff.mp far
      exact induction source_at

end Distances

/-! ## Layers -/

/-- Levels by distance from some distance on: the first one holds what is at that distance, and the
others go on from there. -/
inductive Layers (lists : List TargetList) (exits : List ExitPoint) (entry : String) :
    Nat → List (List String) → Prop where
  /-- Nothing is that far away. -/
  | done {distance : Nat} (nothing : ∀ name, ¬AtDistance lists exits entry distance name) :
      Layers lists exits entry distance []
  /-- One level and those below it. -/
  | level {distance : Nat} {level : List String} {rest : List (List String)}
      (members : ∀ name, name ∈ level ↔ AtDistance lists exits entry distance name)
      (nodup : level.Nodup) (filled : level ≠ [])
      (order : ∀ next ∈ rest.head?, next.Pairwise fun first second =>
        (level.flatMap (passages lists exits)).idxOf first <
          (level.flatMap (passages lists exits)).idxOf second)
      (below : Layers lists exits entry (distance + 1) rest) :
      Layers lists exits entry distance (level :: rest)

namespace Layers

variable {lists : List TargetList} {exits : List ExitPoint} {entry name : String} {distance : Nat}
  {levels : List (List String)}

theorem of_getElem? (layers : Layers lists exits entry distance levels) {depth : Nat}
    {level : List String} (found : levels[depth]? = some level) :
    (∀ name, name ∈ level ↔ AtDistance lists exits entry (distance + depth) name) ∧ level.Nodup ∧
      level ≠ [] := by
  induction layers generalizing depth with
  | done nothing => cases found
  | level members nodup filled order below induction =>
      cases depth with
      | zero =>
          obtain rfl := Option.some.inj found
          exact ⟨members, nodup, filled⟩
      | succ depth =>
          rw [List.getElem?_cons_succ] at found
          rw [Nat.add_succ, ← Nat.succ_add]
          exact induction found

theorem order_of_getElem? (layers : Layers lists exits entry distance levels) {depth : Nat}
    {level next : List String} (found : levels[depth]? = some level)
    (found_next : levels[depth + 1]? = some next) :
    next.Pairwise fun first second =>
      (level.flatMap (passages lists exits)).idxOf first <
        (level.flatMap (passages lists exits)).idxOf second := by
  induction layers generalizing depth with
  | done nothing => cases found
  | level members nodup filled order below induction =>
      rw [List.getElem?_cons_succ] at found_next
      cases depth with
      | zero =>
          obtain rfl := Option.some.inj found
          exact order next (List.head?_eq_getElem? ▸ found_next)
      | succ depth => exact induction found found_next

theorem exists_level (layers : Layers lists exits entry distance levels) {depth : Nat}
    (far : AtDistance lists exits entry (distance + depth) name) :
    ∃ level, levels[depth]? = some level ∧ name ∈ level := by
  induction layers generalizing depth with
  | done nothing =>
      obtain ⟨other, nearer⟩ := far.exists_before
      exact absurd nearer (nothing other)
  | @level distance level rest members nodup filled order below induction =>
      cases depth with
      | zero => exact ⟨level, rfl, (members name).mpr far⟩
      | succ depth =>
          rw [Nat.add_succ, ← Nat.succ_add] at far
          exact induction far

theorem byDistance (layers : Layers lists exits entry 0 levels) :
    ByDistance lists exits entry levels where
  members depth level found := by simpa using (layers.of_getElem? found).1
  nodup level level_in := by
    obtain ⟨depth, found⟩ := List.getElem?_of_mem level_in
    exact (layers.of_getElem? found).2.1
  filled level level_in := by
    obtain ⟨depth, found⟩ := List.getElem?_of_mem level_in
    exact (layers.of_getElem? found).2.2
  order depth level next found found_next := layers.order_of_getElem? found found_next
  once length name walk := by
    obtain ⟨distance, -, at_distance⟩ := walk.exists_atDistance
    have far : AtDistance lists exits entry (0 + distance) name := by rwa [Nat.zero_add]
    refine ⟨distance, layers.exists_level far, ?_⟩
    rintro depth ⟨level, found, member⟩
    have at_depth := ((layers.of_getElem? found).1 name).mp member
    exact (at_depth.unique far).trans (Nat.zero_add _) ▸ (Nat.zero_add depth).symm

end Layers

namespace Catalogue

/-! ## New names -/

section Unvisited

variable {visited names : List String} {name : String}

theorem mem_unvisited : name ∈ unvisited visited names ↔ name ∈ names ∧ name ∉ visited := by
  induction names generalizing visited with
  | nil => simp [unvisited]
  | cons first rest induction =>
      rw [unvisited]
      split_ifs with is_old
      · rw [induction, List.mem_cons]
        refine and_congr_left fun unseen => (or_iff_right ?_).symm
        exact fun same => unseen (same ▸ is_old)
      · rw [List.mem_cons, induction, List.mem_cons, List.mem_cons, not_or]
        constructor
        · rintro (rfl | ⟨in_rest, -, unseen⟩)
          · exact ⟨.inl rfl, is_old⟩
          · exact ⟨.inr in_rest, unseen⟩
        · rintro ⟨same | in_rest, unseen⟩
          · exact .inl same
          · exact or_iff_not_imp_left.mpr fun other => ⟨in_rest, other, unseen⟩

/-- New names stand in the order of their first occurrences. -/
theorem pairwise_unvisited (visited names : List String) :
    (unvisited visited names).Pairwise fun first second =>
      names.idxOf first < names.idxOf second := by
  have later : ∀ {first name other : String} {rest : List String}, name ≠ first → other ≠ first →
      rest.idxOf name < rest.idxOf other →
        (first :: rest).idxOf name < (first :: rest).idxOf other := by
    intro first name other rest name_ne other_ne lt
    rw [List.idxOf_cons_ne _ name_ne.symm, List.idxOf_cons_ne _ other_ne.symm]
    exact Nat.succ_lt_succ lt
  induction names generalizing visited with
  | nil => exact List.Pairwise.nil
  | cons first rest induction =>
      rw [unvisited]
      split_ifs with is_old
      · refine (induction visited).imp_of_mem fun name_in other_in => later ?_ ?_
        · exact fun same => (mem_unvisited.mp name_in).2 (same ▸ is_old)
        · exact fun same => (mem_unvisited.mp other_in).2 (same ▸ is_old)
      · have others_ne : ∀ name ∈ unvisited (first :: visited) rest, name ≠ first :=
          fun name member same => (mem_unvisited.mp member).2 (same ▸ List.mem_cons_self)
        refine List.pairwise_cons.mpr ⟨fun name member => ?_, ?_⟩
        · rw [List.idxOf_cons_self, List.idxOf_cons_ne _ (others_ne name member).symm]
          exact Nat.succ_pos _
        · exact (induction (first :: visited)).imp_of_mem fun name_in other_in =>
            later (others_ne _ name_in) (others_ne _ other_in)

theorem nodup_unvisited (visited names : List String) : (unvisited visited names).Nodup := by
  refine (pairwise_unvisited visited names).imp ?_
  rintro name _ lt rfl
  exact Nat.lt_irrefl _ lt

end Unvisited

/-! ## Levels -/

section Levels

variable {lists : List TargetList} {catalogue : Catalogue} {exits : List ExitPoint}
  {entry name : String}

theorem filter_name_eq (nodup : (lists.map (·.name)).Nodup) (name : String) :
    (lists.filter fun list => list.name = name) =
      (lists.find? fun list => list.name = name).toList := by
  induction lists with
  | nil => rfl
  | cons first rest induction =>
      obtain ⟨first_new, rest_nodup⟩ := List.nodup_cons.mp nodup
      by_cases is_first : first.name = name
      · have others_ne : rest.filter (fun list => list.name = name) = [] :=
          List.filter_eq_nil_iff.mpr fun list list_in same => first_new <|
            List.mem_map.mpr ⟨list, list_in, (of_decide_eq_true same).trans is_first.symm⟩
        simp [is_first, others_ne]
      · simp [is_first, induction rest_nodup]

/-- A built catalogue steps along the pointers of its lists. -/
theorem successors_of_build (built : build lists = .ok catalogue) (name : String) :
    catalogue.successors exits name = passages lists exits name := by
  obtain ⟨nodup, -, -⟩ := build_eq_ok_iff.mp built
  rw [successors, passages, pointers, filter_name_eq nodup, get?_of_build built]
  simp only [List.contains_iff_mem]
  split_ifs with leaves
  · rfl
  · cases lists.find? fun list => list.name = name with
    | none => rfl
    | some list => simp [List.contains_eq_mem]

/-- A walk does not leave the catalogue. -/
theorem mem_names_of_walk (built : build lists = .ok catalogue)
    (known : entry ∈ lists.map (·.name)) {length : Nat} (walk : Walk lists exits entry length name) :
    name ∈ lists.map (·.name) := by
  obtain ⟨-, refers, -⟩ := build_eq_ok_iff.mp built
  cases walk with
  | start => exact known
  | @step _ source _ _ enters =>
      rw [passages] at enters
      split_ifs at enters with leaves
      · cases enters
      · obtain ⟨pointed, -⟩ := List.mem_filter.mp enters
        obtain ⟨list, list_in, in_list⟩ := List.mem_flatMap.mp pointed
        obtain ⟨field, field_in, child_in⟩ := List.mem_flatMap.mp in_list
        exact (refers list (List.mem_of_mem_filter list_in)).2 field field_in name child_in

theorem head?_levelsFrom {budget : Nat} {visited level found : List String}
    (first : found ∈ (catalogue.levelsFrom exits budget visited level).head?) : found = level := by
  cases budget with
  | zero => cases first
  | succ budget =>
      rw [levelsFrom] at first
      split_ifs at first with is_empty
      · cases first
      · exact (Option.some.inj first).symm

/-- What a level points to for the first time stands one pointer further away. -/
theorem mem_unvisited_iff_atDistance {distance : Nat} {visited level : List String}
    (near : ∀ name, name ∈ visited ↔ ∃ length ≤ distance, Walk lists exits entry length name)
    (members : ∀ name, name ∈ level ↔ AtDistance lists exits entry distance name) (name : String) :
    name ∈ unvisited visited (level.flatMap (passages lists exits)) ↔
      AtDistance lists exits entry (distance + 1) name := by
  rw [mem_unvisited, near, List.mem_flatMap, atDistance_succ_iff]
  simp only [members, not_exists, not_and]

/-- The levels from a distance on, when all that is nearer has been visited. Every level but an empty
one visits a new list, so the number of lists bounds the levels that are left. -/
theorem layers_levelsFrom (built : build lists = .ok catalogue) (known : entry ∈ lists.map (·.name))
    {budget distance : Nat} {visited level : List String}
    (near : ∀ name, name ∈ visited ↔ ∃ length ≤ distance, Walk lists exits entry length name)
    (visited_nodup : visited.Nodup)
    (members : ∀ name, name ∈ level ↔ AtDistance lists exits entry distance name)
    (nodup : level.Nodup)
    (enough : level ≠ [] → catalogue.lists.length + 2 ≤ budget + visited.length) :
    Layers lists exits entry distance (catalogue.levelsFrom exits budget visited level) := by
  have nothing : ∀ {distance level}, (∀ name, name ∈ level ↔
      AtDistance lists exits entry distance name) → level = [] →
        ∀ name, ¬AtDistance lists exits entry distance name := by
    rintro distance _ members rfl name at_distance
    exact List.not_mem_nil ((members name).mpr at_distance)
  induction budget generalizing distance visited level with
  | zero =>
      by_cases filled : level = []
      · exact .done (nothing members filled)
      · have within : visited ⊆ catalogue.names := by
          intro name member
          obtain ⟨length, -, walk⟩ := (near name).mp member
          exact (mem_names_of_build built).mpr (mem_names_of_walk built known walk)
        have visited_le := (visited_nodup.subperm within).length_le
        have too_many := enough filled
        rw [names, List.length_map] at visited_le
        omega
  | succ budget induction =>
      rw [levelsFrom]
      by_cases filled : level = []
      · rw [filled, List.isEmpty_nil, if_pos rfl]
        exact .done (nothing members filled)
      · have successors_eq : catalogue.successors exits = passages lists exits :=
          funext (successors_of_build built)
        rw [List.isEmpty_eq_false_iff.mpr filled, if_neg Bool.false_ne_true, successors_eq]
        have next_members := mem_unvisited_iff_atDistance near members
        have next_near : ∀ name,
            name ∈ visited ++ unvisited visited (level.flatMap (passages lists exits)) ↔
              ∃ length ≤ distance + 1, Walk lists exits entry length name := by
          intro name
          rw [List.mem_append, near, next_members, exists_walk_le_succ_iff]
        have next_nodup :
            (visited ++ unvisited visited (level.flatMap (passages lists exits))).Nodup :=
          List.nodup_append.mpr ⟨visited_nodup, nodup_unvisited _ _, fun name old other new same =>
            (mem_unvisited.mp new).2 (same ▸ old)⟩
        refine .level members nodup filled (fun next found => ?_)
          (induction next_near next_nodup next_members (nodup_unvisited _ _) fun next_filled => ?_)
        · rw [head?_levelsFrom found]
          exact pairwise_unvisited _ _
        · have left := enough filled
          have visits := List.length_pos_iff.mpr next_filled
          rw [List.length_append]
          omega

/-- The hierarchy below a list that is known has its levels by distance; there is none below a list
that is not. -/
theorem byDistance_of_build (built : build lists = .ok catalogue) (exits : List ExitPoint)
    (entry : String) :
    ((∃ error, catalogue.hierarchy entry exits = .error error) ↔ entry ∉ lists.map (·.name)) ∧
      (entry ∈ lists.map (·.name) → ∃ levels, catalogue.hierarchy entry exits = .ok levels ∧
        ByDistance lists exits entry levels) := by
  have unknown_iff : (catalogue.get? entry).isNone = true ↔ entry ∉ lists.map (·.name) := by
    rw [get?_of_build built, Option.isNone_iff_eq_none, List.find?_eq_none]
    simp
  rw [hierarchy]
  by_cases known : entry ∈ lists.map (·.name)
  · have found : (catalogue.get? entry).isNone = false :=
      Bool.eq_false_iff.mpr fun unknown => unknown_iff.mp unknown known
    have near : ∀ name, name ∈ [entry] ↔ ∃ length ≤ 0, Walk lists exits entry length name := by
      intro name
      rw [List.mem_singleton]
      constructor
      · rintro rfl
        exact ⟨0, Nat.le_refl 0, .start⟩
      · rintro ⟨length, le, walk⟩
        obtain rfl := Nat.le_zero.mp le
        cases walk
        rfl
    have members : ∀ name, name ∈ [entry] ↔ AtDistance lists exits entry 0 name := by
      intro name
      rw [near]
      constructor
      · rintro ⟨length, le, walk⟩
        exact ⟨Nat.le_zero.mp le ▸ walk, fun shorter lt => absurd lt (Nat.not_lt_zero shorter)⟩
      · exact fun at_start => ⟨0, Nat.le_refl 0, at_start.1⟩
    have layers := layers_levelsFrom built known near (List.nodup_singleton entry) members
      (List.nodup_singleton entry) (fun _ => Nat.le_refl (catalogue.lists.length + 2))
    rw [found, if_neg Bool.false_ne_true]
    exact ⟨iff_of_false nofun fun unknown => unknown known, fun _ => ⟨_, rfl, layers.byDistance⟩⟩
  · rw [unknown_iff.mpr known, if_pos rfl]
    exact ⟨iff_of_true ⟨_, rfl⟩ known, fun is_known => absurd is_known known⟩

/-- Lists that point back and forth, one of which is not left and one of which is not entered. -/
theorem byDistance_of_build_cyclic :
    let list (name : String) (children : List String) : TargetList :=
      ⟨name, ⟨.map, none, none, some "key"⟩, [.plain "parts" (.pointer children)]⟩
    let lists : List TargetList :=
      [list "town" ["road", "land", "house", "lake"], list "road" ["town", "house", "bridge"],
        list "land" ["sea"], list "house" ["town", "road", "lake"], list "lake" ["town"],
        list "bridge" ["land", "road"], list "sea" ["land"]]
    let exits : List ExitPoint := [⟨"land", true⟩, ⟨"lake", false⟩]
    let levels := [["town"], ["road", "land", "house"], ["bridge"]]
    build lists = .ok ⟨sortLists lists⟩ ∧
      hierarchy ⟨sortLists lists⟩ "town" exits = .ok levels ∧
      ByDistance lists exits "town" levels := by
  intro list lists exits levels
  have built : build lists = .ok ⟨sortLists lists⟩ := by cbv
  have known : "town" ∈ lists.map (·.name) := by decide
  have levels_eq : hierarchy ⟨sortLists lists⟩ "town" exits = .ok levels := by cbv
  obtain ⟨found, hierarchy_eq, layered⟩ := (byDistance_of_build built exits "town").2 known
  obtain rfl := Except.ok.inj (levels_eq.symm.trans hierarchy_eq)
  exact ⟨built, levels_eq, layered⟩

end Levels

end Catalogue

end StationGateway
