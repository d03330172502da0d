import Mathlib
import StationGateway.Gateway.Data
import StationGateway.Gateway.Route
import StationGateway.Proofs.Order.Gather
import StationGateway.Proofs.Text.Blank
import StationGateway.Proofs.Text.Percent
import StationGateway.Proofs.Text.Split

/-!
# Links of listings

An entry of a listing has a link to its rows. The path of the link is that of the listing with the
entry as one more segment, written as it is. So the link leads to the rows of a text if the text needs
no escapes in a path, and it leads back to the entry if that text is one item of a segment. -/

namespace StationGateway

open Text

/-! ## Items of segments -/

namespace Recipe

/-- Whether a text is one item of a segment. -/
structure IsItem (text : String) : Prop where
  /-- It is not empty. -/
  filled : text ≠ ""
  /-- It does not stand for all items. -/
  restricts : text ≠ "*"
  /-- It has no comma. -/
  no_comma : ',' ∉ text.toList
  /-- It has no blanks at its ends. -/
  trimmed_eq : trimmed text = text

instance (text : String) : Decidable (IsItem text) :=
  decidable_of_iff (text ≠ "" ∧ text ≠ "*" ∧ ',' ∉ text.toList ∧ trimmed text = text)
    ⟨fun ⟨filled, restricts, no_comma, trimmed_eq⟩ => ⟨filled, restricts, no_comma, trimmed_eq⟩,
      fun item => ⟨item.filled, item.restricts, item.no_comma, item.trimmed_eq⟩⟩

/-- A segment restricts a request to itself exactly if it is one item. -/
theorem restriction?_eq_singleton_iff {text : String} :
    restriction? text = some [text] ↔ IsItem text := by
  constructor
  · intro restricted
    simp only [restriction?] at restricted
    split_ifs at restricted with free
    have member : text ∈ ((pieces ',' text).map trimmed).filter (· ≠ "") := by
      rw [← Order.mem_ofList, Option.some.inj restricted]
      exact List.mem_cons_self
    obtain ⟨in_pieces, filled⟩ := List.mem_filter.mp member
    obtain ⟨piece, piece_in, text_eq⟩ := List.mem_map.mp in_pieces
    obtain ⟨chars, chars_in, rfl⟩ := List.mem_map.mp piece_in
    refine ⟨by simpa using filled, fun is_star => free ?_, fun comma => ?_, ?_⟩
    · rw [Bool.or_eq_true, List.contains_iff_mem, ← is_star]
      exact .inr member
    · have in_piece : ',' ∈ chars := by
        rw [← text_eq, trimmed, String.toList_ofList, String.toList_ofList] at comma
        exact trim_subset chars comma
      exact (mem_splitOn_iff.mp ⟨chars, chars_in, in_piece⟩).2 rfl
    · rw [← text_eq]
      simp only [trimmed, String.toList_ofList, trim_trim]
  · intro item
    have pieces_eq : pieces ',' text = [text] := by
      rw [pieces, splitOn_eq_singleton item.no_comma, List.map_singleton, String.ofList_toList]
    have items_eq : ((pieces ',' text).map trimmed).filter (· ≠ "") = [text] := by
      rw [pieces_eq, List.map_singleton, item.trimmed_eq]
      simp [item.filled]
    have named : "*" ≠ text := Ne.symm item.restricts
    simp only [restriction?, items_eq]
    simp [named, Order.ofList, Order.insert]

end Recipe

/-! ## Segments of representations -/

namespace Representation

/-- What has a meaning of its own in the path of a URL. -/
def reserved : List Char := ['/', '?', '#', '%']

private theorem reserved_checked : (reserved.all fun char => char ≠ ',' ∧ isBlank char = false ∧
    char.toLower = char ∧ (∀ shape ∈ [Shape.flat, .tree], char ∉ shape.name.toList) ∧
    ∀ dataset ∈ [Dataset.node, .edge, .event], char ∉ dataset.name.toList) = true := by
  decide

/-- All words of a text that names a representation are names of shapes or of kinds of rows. -/
theorem known_of_ofText {given word : String} {representation : Representation}
    (accepted : ofText given = .ok representation) (word_in : word ∈ words given) :
    (Shape.ofName? word).isSome = true ∨ (Dataset.ofName? word).isSome = true := by
  rw [← Bool.or_eq_true_iff]
  by_contra unknown
  have not_all : ((words given).all fun word =>
      (Shape.ofName? word).isSome || (Dataset.ofName? word).isSome) = false :=
    List.all_eq_false.mpr ⟨word, word_in, unknown⟩
  simp only [ofText, not_all] at accepted
  cases accepted

/-- What is in a text and neither separates words nor changes in them is in one of them. -/
theorem exists_word_of_mem {given : String} {char : Char} (member : char ∈ given.toList)
    (not_comma : char ≠ ',') (visible : isBlank char = false) (small : char.toLower = char) :
    ∃ word ∈ words given, char ∈ word.toList := by
  obtain ⟨piece, piece_in, in_piece⟩ := mem_splitOn_iff.mpr ⟨member, not_comma⟩
  have in_word : char ∈ (String.ofList ((trim piece).map Char.toLower)).toList := by
    rw [String.toList_ofList, ← small]
    exact List.mem_map_of_mem (mem_trim in_piece visible)
  refine ⟨_, List.mem_filter.mpr ⟨List.mem_map_of_mem piece_in, decide_eq_true fun empty => ?_⟩,
    in_word⟩
  rw [empty] at in_word
  cases in_word

/-- A text that names a representation has words, commas and blanks, and nothing that has a meaning of
its own in a path. -/
theorem notMem_of_ofText {given : String} {representation : Representation}
    (accepted : ofText given = .ok representation) {char : Char} (is_reserved : char ∈ reserved) :
    char ∉ given.toList := by
  obtain ⟨not_comma, visible, small, no_shape, no_dataset⟩ :=
    of_decide_eq_true (List.all_eq_true.mp reserved_checked char is_reserved)
  intro member
  obtain ⟨word, word_in, in_word⟩ := exists_word_of_mem member not_comma visible small
  rcases known_of_ofText accepted word_in with is_shape | is_dataset
  · obtain ⟨shape, shape_in, named⟩ := List.find?_isSome.mp is_shape
    obtain rfl := of_decide_eq_true named
    exact no_shape shape shape_in in_word
  · obtain ⟨dataset, dataset_in, named⟩ := List.find?_isSome.mp is_dataset
    obtain rfl := of_decide_eq_true named
    exact no_dataset dataset dataset_in in_word

theorem ne_empty_of_ofText {given : String} {representation : Representation}
    (accepted : ofText given = .ok representation) : given ≠ "" := by
  rintro rfl
  cases accepted

end Representation

namespace Route

/-- A path of two segments leads to data. -/
theorem ofPath_two {first second : String} (first_filled : first ≠ "") (second_filled : second ≠ "")
    (first_plain : '/' ∉ first.toList) (second_plain : '/' ∉ second.toList) :
    ofPath ("/" ++ first ++ "/" ++ second) = .data [⟨"repr", first⟩, ⟨"types", second⟩] := by
  have path_eq : ("/" ++ first ++ "/" ++ second).toList =
      '/' :: (first.toList ++ '/' :: second.toList) := by
    simp
  have split_eq : (splitOn '/' (first.toList ++ '/' :: second.toList)).map String.ofList =
      [first, second] := by
    rw [splitOn_append first_plain, splitOn_eq_singleton second_plain]
    simp
  have other : ∀ rest : List Char, '/' ∉ rest →
      "/" ++ first ++ "/" ++ second ≠ String.ofList ('/' :: rest) := by
    intro rest absent same
    rw [← String.toList_inj, path_eq, String.toList_ofList] at same
    exact absent ((List.cons.inj same).2 ▸ List.mem_append_right _ List.mem_cons_self)
  rw [ofPath, path_eq]
  · simp only [split_eq, ofSegments]
    rw [if_neg (by simp [Ne.symm first_filled, Ne.symm second_filled])]
    rfl
  · exact other [] (by decide)
  · exact other "apispec".toList (by decide)
  · exact other "healthz".toList (by decide)

theorem decode_two {name other first second : String} (first_unescaped : Unescaped first.toList)
    (second_unescaped : Unescaped second.toList) :
    decode [⟨name, first⟩, ⟨other, second⟩] = .ok [first, second] := by
  simp only [decode, decodeSegment?_eq_some first_unescaped, decodeSegment?_eq_some second_unescaped]
  rfl

end Route

/-! ## Links -/

namespace Listing

/-- The name of the link of an entry to its rows. -/
def ownName : Dataset → String
  | .node => "stations"
  | .edge => "edges"
  | .event => "events"

/-- The path of a link below a base URL, which ends before a query or a fragment. -/
def pathBelow? (base link : String) : Option String :=
  (stripStart? base.toList link.toList).map fun rest =>
    String.ofList (rest.takeWhile fun char => char ≠ '?' && char ≠ '#')

/-- What a link below a base URL asks for. -/
def follow? (base link : String) : Option DataPath :=
  match (pathBelow? base link).map Route.ofPath with
  | some (.data segments) => (Route.decode segments).toOption.bind DataPath.ofTexts?
  | _ => none

/-- Whether a text stands for itself as a segment of the path of a URL. -/
structure PlainSegment (text : String) : Prop where
  /-- It is not empty. -/
  filled : text ≠ ""
  /-- It is one segment. -/
  no_slash : '/' ∉ text.toList
  /-- It does not begin a query. -/
  no_query : '?' ∉ text.toList
  /-- It does not begin a fragment. -/
  no_fragment : '#' ∉ text.toList
  /-- It has no percent signs to resolve. -/
  unescaped : Unescaped text.toList

/-- Whether the link of an entry to its rows leads to the rows of the entry alone. -/
def LeadsBack (base given : String) (dataset : Dataset) (id : String) : Prop :=
  ∀ link, (ownName dataset, link) ∈ links dataset (base ++ "/" ++ given ++ "/") id →
    ∃ types, follow? base link = some (.byTypes given types) ∧
      Recipe.restriction? types = some [id]

variable {base given id link : String} {dataset : Dataset} {representation : Representation}

theorem mem_links_iff {url : String} :
    (ownName dataset, link) ∈ links dataset url id ↔ link = url ++ id := by
  cases dataset <;> simp [ownName, links]

/-- A text that names a representation stands for itself in a path. -/
theorem plainSegment_of_ofText (accepted : Representation.ofText given = .ok representation) :
    PlainSegment given where
  filled := Representation.ne_empty_of_ofText accepted
  no_slash := Representation.notMem_of_ofText accepted (by decide)
  no_query := Representation.notMem_of_ofText accepted (by decide)
  no_fragment := Representation.notMem_of_ofText accepted (by decide)
  unescaped := unescaped_of_notMem (Representation.notMem_of_ofText accepted (by decide))

/-- Two plain segments below a base URL ask for the rows of a text. -/
theorem follow?_eq_byTypes (given_plain : PlainSegment given) (id_plain : PlainSegment id) :
    follow? base (base ++ "/" ++ given ++ "/" ++ id) = some (.byTypes given id) := by
  have path_eq : pathBelow? base (base ++ "/" ++ given ++ "/" ++ id) =
      some ("/" ++ given ++ "/" ++ id) := by
    rw [pathBelow?, Option.map_eq_some_iff]
    refine ⟨("/" ++ given ++ "/" ++ id).toList, stripStart?_eq_some_iff.mpr (by simp), ?_⟩
    rw [List.takeWhile_eq_self_iff.mpr, String.ofList_toList]
    intro char member
    have no_query : '?' ∉ ("/" ++ given ++ "/" ++ id).toList := by
      simp [given_plain.no_query, id_plain.no_query]
    have no_fragment : '#' ∉ ("/" ++ given ++ "/" ++ id).toList := by
      simp [given_plain.no_fragment, id_plain.no_fragment]
    rw [Bool.and_eq_true, decide_eq_true_iff, decide_eq_true_iff]
    exact ⟨fun same => no_query (same ▸ member), fun same => no_fragment (same ▸ member)⟩
  rw [follow?, path_eq, Option.map_some, Route.ofPath_two given_plain.filled id_plain.filled
    given_plain.no_slash id_plain.no_slash]
  simp only [Route.decode_two given_plain.unescaped id_plain.unescaped]
  rfl

/-- The link of an entry that stands for itself in a path leads to the rows of the entry. -/
theorem follow?_of_mem_links (accepted : Representation.ofText given = .ok representation)
    (plain : PlainSegment id)
    (member : (ownName dataset, link) ∈ links dataset (base ++ "/" ++ given ++ "/") id) :
    follow? base link = some (.byTypes given id) := by
  rw [mem_links_iff.mp member]
  exact follow?_eq_byTypes (plainSegment_of_ofText accepted) plain

/-- The link of an entry that stands for itself in a path leads to the requests for the rows of the
entry, in the representation of the listing. They are asked for the entry alone exactly if it is one
item of a segment. -/
theorem leadsBack_iff (accepted : Representation.ofText given = .ok representation)
    (plain : PlainSegment id) :
    (∀ link, (ownName representation.dataset, link) ∈
        links representation.dataset (base ++ "/" ++ given ++ "/") id →
      follow? base link = some (.byTypes given id)) ∧
    (LeadsBack base given representation.dataset id ↔ Recipe.IsItem id) := by
  refine ⟨fun link member => follow?_of_mem_links accepted plain member, ?_⟩
  rw [← Recipe.restriction?_eq_singleton_iff]
  constructor
  · intro leads_back
    obtain ⟨types, followed, restricted⟩ := leads_back _ (mem_links_iff.mpr rfl)
    rw [follow?_eq_byTypes (plainSegment_of_ofText accepted) plain] at followed
    obtain ⟨-, rfl⟩ := DataPath.byTypes.inj (Option.some.inj followed)
    exact restricted
  · exact fun restricted link member =>
      ⟨id, follow?_of_mem_links accepted plain member, restricted⟩

/-- Blanks inside, letters outside ASCII and percent signs survive. -/
theorem leadsBack_iff_percent : LeadsBack "http://host" "flat,node" .node "100% Öko" := by
  have accepted : Representation.ofText "flat,node" = .ok ⟨.node, .flat⟩ := by decide +kernel
  have unescaped : Unescaped "100% Öko".toList := by
    intro first second rest ends
    have followed : first = ' ' ∧ second = 'Ö' ∧ rest = ['k', 'o'] := by
      simpa [List.suffix_cons_iff] using ends
    rw [followed.1]
    exact .inl (by decide)
  have plain : PlainSegment "100% Öko" :=
    ⟨by decide, by decide, by decide, by decide, unescaped⟩
  exact (leadsBack_iff accepted plain).2.mpr (by decide)

/-- The link of an entry with a comma leads to the rows of its parts. -/
theorem not_leadsBack_comma :
    ¬∀ (base given id : String) (representation : Representation),
      Representation.ofText given = .ok representation → id ≠ "" → id ≠ "*" →
        LeadsBack base given representation.dataset id := by
  intro all_lead_back
  have accepted : Representation.ofText "flat" = .ok ⟨.node, .flat⟩ := by decide +kernel
  have plain : PlainSegment "A,B" :=
    ⟨by decide, by decide, by decide, by decide, unescaped_of_notMem (by decide)⟩
  obtain ⟨types, followed, restricted⟩ :=
    all_lead_back "http://host" "flat" "A,B" ⟨.node, .flat⟩ accepted (by decide) (by decide) _
      (mem_links_iff.mpr rfl)
  rw [follow?_eq_byTypes (plainSegment_of_ofText accepted) plain] at followed
  obtain ⟨-, rfl⟩ := DataPath.byTypes.inj (Option.some.inj followed)
  exact (Recipe.restriction?_eq_singleton_iff.mp restricted).no_comma (by decide)

end Listing

end StationGateway
