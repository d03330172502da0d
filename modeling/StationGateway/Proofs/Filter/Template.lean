import Mathlib.Data.Bool.AllAny
import StationGateway.Filter.Operator
import StationGateway.Filter.Template
import StationGateway.Proofs.Sql.Phrase

/-!
# Templates as comparisons

Every template of the API is a place for the column, perhaps inside its JSON value, a sign, and a
place for one value, perhaps in parentheses, with blanks between them. So whatever stands in the
places, as long as it closes its quotes and parentheses, a template is read as one comparison. -/

namespace StationGateway.Filter

open Sql

/-- A character of a template, or a place in it. -/
inductive Symbol where
  /-- A character that is kept. -/
  | char (char : Char)
  /-- The place of the column. -/
  | column
  /-- The place of the path. -/
  | path
  /-- The place of the operand or of a slice of it. -/
  | value (slice : Option Slice)
  deriving DecidableEq

/-- The symbols of a part of a template. -/
def TemplatePart.symbols : TemplatePart → List Symbol
  | .text kept => kept.toList.map .char
  | .column => [.column]
  | .path => [.path]
  | .value slice => [.value slice]

/-- The symbols of the characters of a template. -/
def symbols (template : List Char) : List Symbol :=
  (templateParts (.text []) template).flatMap TemplatePart.symbols

/-- The slice of the operand that a symbol stands for, if it stands for a value. -/
def Symbol.slice? : Symbol → Option (Option Slice)
  | .value slice => some slice
  | _ => none

/-- What stands in the places of a template. -/
structure Filling where
  /-- The column. -/
  column : String
  /-- The path into its value. -/
  path : String
  /-- The word for the operand. -/
  reference : String

namespace Filling

/-- What stands for a symbol. -/
def text (filling : Filling) : Symbol → List Char
  | .char char => [char]
  | .column => filling.column.toList
  | .path => filling.path.toList
  | .value _ => filling.reference.toList

/-- The text of symbols with their places filled. -/
def fill (filling : Filling) (symbols : List Symbol) : List Char :=
  symbols.flatMap filling.text

/-- What may stand in the places of a template. -/
structure Fits (filling : Filling) : Prop where
  /-- The column is one word. -/
  column : Solid filling.column.toList
  /-- The path does not close the quotes around it. -/
  path : '\'' ∉ filling.path.toList
  /-- The operand has neither `and` nor `or`. -/
  reference : Phrase filling.reference.toList

theorem fill_append (filling : Filling) (first second : List Symbol) :
    filling.fill (first ++ second) = filling.fill first ++ filling.fill second :=
  List.flatMap_append

theorem fill_cons (filling : Filling) (symbol : Symbol) (rest : List Symbol) :
    filling.fill (symbol :: rest) = filling.text symbol ++ filling.fill rest :=
  List.flatMap_cons

theorem fill_chars (filling : Filling) (chars : List Char) :
    filling.fill (chars.map .char) = chars := by
  induction chars with
  | nil => rfl
  | cons char chars induction => rw [List.map_cons, fill_cons, induction]; rfl

end Filling

/-! ## Symbols of joined templates -/

private theorem symbols_flushText (seen : List Char) (parts : List TemplatePart) :
    (flushText seen parts).flatMap TemplatePart.symbols =
      seen.reverse.map .char ++ parts.flatMap TemplatePart.symbols := by
  cases seen with
  | nil => rfl
  | cons char seen => simp [flushText, TemplatePart.symbols]

/-- Characters that have been seen stand in front of what follows. -/
private theorem symbols_seen (rest : List Char) : ∀ seen,
    (templateParts (.text seen) rest).flatMap TemplatePart.symbols =
        seen.reverse.map .char ++ symbols rest ∧
      (templateParts (.percent seen) rest).flatMap TemplatePart.symbols =
        seen.reverse.map .char ++ symbols ('%' :: rest) := by
  induction rest with
  | nil =>
      intro seen
      simp [symbols, templateParts, symbols_flushText]
  | cons char rest induction =>
      intro seen
      have text_rest := fun seen => (induction seen).1
      have percent_rest := fun seen => (induction seen).2
      constructor
      · by_cases is_percent : char = '%'
        · subst is_percent
          simp [templateParts, percent_rest]
        · rw [symbols]
          simp only [templateParts, if_neg is_percent]
          simp [text_rest]
      · rw [symbols]
        simp only [templateParts, ↓reduceIte]
        split_ifs with is_percent is_column is_path is_value
        all_goals simp [symbols_flushText, text_rest, TemplatePart.symbols]

/-- Whether what follows a piece of a template is read as if nothing stood before it. -/
def Resumes (piece : List Char) : Prop :=
  ∀ rest, symbols (piece ++ rest) = symbols piece ++ symbols rest

theorem symbols_plain_append {piece : List Char} (plain : '%' ∉ piece) (rest : List Char) :
    symbols (piece ++ rest) = piece.map .char ++ symbols rest := by
  induction piece with
  | nil => rfl
  | cons char piece induction =>
      simp only [List.mem_cons, not_or] at plain
      have first : symbols (char :: (piece ++ rest)) = .char char :: symbols (piece ++ rest) := by
        rw [symbols, templateParts, if_neg (Ne.symm plain.1), (symbols_seen _ [char]).1]
        rfl
      rw [List.cons_append, first, induction plain.2, List.map_cons, List.cons_append]

theorem symbols_plain {piece : List Char} (plain : '%' ∉ piece) :
    symbols piece = piece.map .char := by
  simpa [symbols, templateParts, flushText] using symbols_plain_append plain []

theorem Resumes.plain {piece : List Char} (plain : '%' ∉ piece) : Resumes piece := fun rest => by
  rw [symbols_plain_append plain, symbols_plain plain]

theorem Resumes.column : Resumes ['%', 'c'] :=
  fun _ => rfl

theorem Resumes.path : Resumes ['%', 'j'] :=
  fun _ => rfl

theorem Resumes.append {piece more : List Char} (first : Resumes piece) (second : Resumes more) :
    Resumes (piece ++ more) := fun rest => by
  rw [List.append_assoc, first, second, first, List.append_assoc]

/-! ## The templates of the API -/

/-- The places of columns in templates. -/
def columnPlaces : List String :=
  ["%c", jsonPlace, textPlace, numberPlace, booleanPlace]

/-- The signs of templates. -/
def templateSigns : List String :=
  ["is", "is not", "=", "<>", "<", ">", "<=", ">=", "~", "~*", "!~", "!~*", "in", "not in", "&&",
    "@"]

/-- The places of values in templates. -/
def valuePlaces : List String :=
  ["%v", "(%v)", "ST_MakeEnvelope(%v)"]

/-- A template with a place for the column, a sign and a place for the value. -/
def IsComparison (template : String) : Prop :=
  ∃ place ∈ columnPlaces, ∃ sign ∈ templateSigns, ∃ ending ∈ valuePlaces,
    template = place ++ " " ++ sign ++ " " ++ ending

private theorem mem_of_mem_entries {operators : List (String × String × Operator)}
    {table : OperatorTable} {id : String} {operator : Operator}
    (member : (id, operator) ∈ (operators.foldl
      (fun table (shape, name, operator) => table.add shape name operator) table).entries) :
    (id, operator) ∈ table.entries ∨ ∃ shape name, (shape, name, operator) ∈ operators := by
  induction operators generalizing table with
  | nil => exact .inl member
  | cons first rest induction =>
      obtain ⟨shape, name, found⟩ := first
      rcases induction member with in_table | ⟨other_shape, other_name, in_rest⟩
      · rcases List.mem_cons.mp in_table with is_new | is_old
        · obtain ⟨rfl, rfl⟩ := Prod.mk.inj is_new
          exact .inr ⟨shape, name, List.mem_cons_self⟩
        · exact .inl is_old
      · exact .inr ⟨other_shape, other_name, List.mem_cons_of_mem _ in_rest⟩

private theorem isComparison_of_mem_signed {shape left right shown name : String}
    {signs : List (String × String)} {operator : Operator} (left_mem : left ∈ columnPlaces)
    (signs_mem : ∀ entry ∈ signs, entry.2 ∈ templateSigns) (right_mem : right ∈ valuePlaces)
    (member : (shown, name, operator) ∈ signed shape left right signs) :
    IsComparison operator.template := by
  obtain ⟨entry, entry_mem, equal⟩ := List.mem_map.mp member
  obtain ⟨_, _, rfl⟩ : shape = shown ∧ entry.1 = name ∧ _ = operator := by simpa using equal
  exact ⟨left, left_mem, entry.2, signs_mem entry entry_mem, right, right_mem, rfl⟩

/-- The templates of the API are comparisons. -/
theorem isComparison_of_standard {id : String} {operator : Operator}
    (found : OperatorTable.standard.get? id = some operator) : IsComparison operator.template := by
  obtain ⟨⟨key, other⟩, entry_found, rfl⟩ := Option.map_eq_some_iff.mp found
  rcases mem_of_mem_entries (List.mem_of_find?_eq_some entry_found) with in_empty | listed
  · cases in_empty
  · obtain ⟨shape, name, member⟩ := listed
    simp only [standardOperators, List.mem_append, or_assoc] at member
    rcases member with row | row | row | row | row | row | row | row | row | row | row | row | row |
      row | row | row
    iterate 11 exact isComparison_of_mem_signed (by decide) (by decide) (by decide) row
    · simp only [List.mem_cons, List.not_mem_nil, or_false, Prod.mk.injEq] at row
      rcases row with ⟨_, _, rfl⟩ | ⟨_, _, rfl⟩
      · exact ⟨"%c", by decide, "&&", by decide, "ST_MakeEnvelope(%v)", by decide, rfl⟩
      · exact ⟨"%c", by decide, "@", by decide, "ST_MakeEnvelope(%v)", by decide, rfl⟩
    iterate 4 exact isComparison_of_mem_signed (by decide) (by decide) (by decide) row

private theorem resumes_columnPlace {place : String} (member : place ∈ columnPlaces) :
    Resumes place.toList := by
  have at_path : ∀ arrow : List Char, '%' ∉ arrow →
      Resumes (['%', 'c'] ++ (arrow ++ (['%', 'j'] ++ ['\x7d', '\'']))) := fun arrow plain =>
    .append .column (.append (.plain plain) (.append .path (.plain (by decide))))
  have json : Resumes jsonPlace.toList := at_path ['#', '>', '\'', '\x7b'] (by decide)
  have in_group : ∀ cast : List Char, '%' ∉ cast → Resumes (['('] ++ (jsonPlace.toList ++ cast)) :=
    fun cast plain => .append (.plain (by decide)) (.append json (.plain plain))
  simp only [columnPlaces, List.mem_cons, List.not_mem_nil, or_false] at member
  rcases member with rfl | rfl | rfl | rfl | rfl
  · exact .column
  · exact json
  · exact at_path ['#', '>', '>', '\'', '\x7b'] (by decide)
  · simpa [numberPlace] using in_group ")::double precision".toList (by decide)
  · simpa [booleanPlace] using in_group ")::boolean".toList (by decide)

/-- The symbols of a comparison are those of its three parts, with blanks between them. -/
theorem symbols_comparison {place sign ending : String} (place_mem : place ∈ columnPlaces)
    (sign_mem : sign ∈ templateSigns) :
    symbols (place ++ " " ++ sign ++ " " ++ ending).toList =
      symbols place.toList ++ .char ' ' :: (sign.toList.map .char ++
        .char ' ' :: symbols ending.toList) := by
  have sign_plain : ∀ sign ∈ templateSigns, '%' ∉ sign.toList := by decide
  have blank_sign : '%' ∉ ' ' :: (sign.toList ++ [' ']) := by
    simp [sign_plain sign sign_mem]
  have split : (place ++ " " ++ sign ++ " " ++ ending).toList =
      place.toList ++ (' ' :: (sign.toList ++ [' ']) ++ ending.toList) := by simp
  rw [split, resumes_columnPlace place_mem, symbols_plain_append blank_sign]
  simp

/-- A comparison has one place for a value, which stands for the whole operand. -/
theorem slices_of_isComparison {template : String} (comparison : IsComparison template) :
    (symbols template.toList).filterMap Symbol.slice? = [none] := by
  obtain ⟨place, place_mem, sign, sign_mem, ending, ending_mem, rfl⟩ := comparison
  have of_place : ∀ place ∈ columnPlaces,
      (symbols place.toList).filterMap Symbol.slice? = [] := by decide
  have of_ending : ∀ ending ∈ valuePlaces,
      (symbols ending.toList).filterMap Symbol.slice? = [none] := by decide
  have of_chars : ∀ chars : List Char, (chars.map Symbol.char).filterMap Symbol.slice? = [] := by
    intro chars
    simp [Symbol.slice?]
  rw [symbols_comparison place_mem sign_mem, List.filterMap_append, of_place place place_mem,
    List.filterMap_cons_none rfl, List.filterMap_append, of_chars, List.filterMap_cons_none rfl,
    of_ending ending ending_mem]
  rfl

/-! ## Reading filled templates -/

/-- The symbols of a column and a path into its value, after an arrow. -/
private def pathSymbols (arrow : List Char) : List Symbol :=
  .column :: ((arrow ++ ['\'', '\x7b']).map .char ++ .path :: ['\x7d', '\''].map .char)

namespace Filling

variable {filling : Filling}

private theorem Fits.solid_pathSymbols (fits : filling.Fits) (arrow : List Char)
    (tame : ∀ char ∈ arrow, char ∉ ['\'', '"', '(', ')', ' ']) :
    Solid (filling.fill (pathSymbols arrow)) := by
  have whole : filling.fill (pathSymbols arrow) = filling.column.toList ++
      (arrow ++ ('\'' :: ('\x7b' :: filling.path.toList ++ ['\x7d']) ++ ['\''])) := by
    rw [pathSymbols, fill_cons, fill_append, fill_chars, fill_cons, fill_chars]
    simp [text]
  have quoted : '\'' ∉ '\x7b' :: filling.path.toList ++ ['\x7d'] := by
    simp [fits.path]
  rw [whole]
  exact fits.column.append ((Connected.plain tame).append (Solid.quotation quoted).connected)

private theorem Fits.solid_cast (fits : filling.Fits) {cast : List Char}
    (tame : ∀ char ∈ cast, char ∉ ['\'', '"', '(', ')', ' ']) :
    Solid (filling.fill (.char '(' :: (pathSymbols ['#', '>'] ++ (')' :: cast).map .char))) := by
  obtain ⟨tokens, scans, _⟩ :=
    fits.solid_pathSymbols ['#', '>'] (List.all_iff_forall_prop.mp (by decide))
  have whole : filling.fill (.char '(' :: (pathSymbols ['#', '>'] ++ (')' :: cast).map .char)) =
      ('(' :: filling.fill (pathSymbols ['#', '>']) ++ [')']) ++ cast := by
    rw [fill_cons, fill_append, fill_chars]
    simp [text]
  rw [whole]
  exact (Solid.group scans).append (.plain tame)

/-- The column of a comparison, or the place inside its value, is a phrase. -/
theorem Fits.phrase_columnPlace (fits : filling.Fits) {place : String}
    (member : place ∈ columnPlaces) : Phrase (filling.fill (symbols place.toList)) := by
  simp only [columnPlaces, List.mem_cons, List.not_mem_nil, or_false] at member
  rcases member with rfl | rfl | rfl | rfl | rfl
  · have found : symbols "%c".toList = [.column] := by decide
    rw [found, fill_cons]
    simpa [fill, text] using fits.column.phrase
  · have found : symbols jsonPlace.toList = pathSymbols ['#', '>'] := by decide
    rw [found]
    exact (fits.solid_pathSymbols _ (List.all_iff_forall_prop.mp (by decide))).phrase
  · have found : symbols textPlace.toList = pathSymbols ['#', '>', '>'] := by decide
    rw [found]
    exact (fits.solid_pathSymbols _ (List.all_iff_forall_prop.mp (by decide))).phrase
  · have found : symbols numberPlace.toList =
        .char '(' :: (pathSymbols ['#', '>'] ++ (')' :: "::double".toList).map .char) ++
          (' ' :: "precision".toList).map .char := by decide
    rw [found, fill_append, fill_chars]
    exact (fits.solid_cast (List.all_iff_forall_prop.mp (by decide))).phrase.blank
      (phrase_of_checked (by decide))
  · have found : symbols booleanPlace.toList =
        .char '(' :: (pathSymbols ['#', '>'] ++ (')' :: "::boolean".toList).map .char) := by decide
    rw [found]
    exact (fits.solid_cast (List.all_iff_forall_prop.mp (by decide))).phrase

/-- The operand of a comparison is a phrase, also in parentheses. -/
theorem Fits.phrase_valuePlace (fits : filling.Fits) {ending : String}
    (member : ending ∈ valuePlaces) : Phrase (filling.fill (symbols ending.toList)) := by
  obtain ⟨tokens, scans, _⟩ := fits.reference
  have grouped := Solid.group scans
  simp only [valuePlaces, List.mem_cons, List.not_mem_nil, or_false] at member
  rcases member with rfl | rfl | rfl
  · have found : symbols "%v".toList = [.value none] := by decide
    rw [found, fill_cons]
    simpa [fill, text] using fits.reference
  · have found : symbols "(%v)".toList = [.char '(', .value none, .char ')'] := by decide
    rw [found]
    simpa [fill, text] using grouped.phrase
  · have found : symbols "ST_MakeEnvelope(%v)".toList =
        "ST_MakeEnvelope".toList.map .char ++ [.char '(', .value none, .char ')'] := by decide
    have name : Connected "ST_MakeEnvelope".toList :=
      .plain (List.all_iff_forall_prop.mp (by decide))
    rw [found, fill_append, fill_chars]
    simpa [fill, text] using (Solid.append_left name grouped).phrase

/-- A comparison with its places filled is read as one comparison. -/
theorem Fits.readsSingle (fits : filling.Fits) {template : String}
    (comparison : IsComparison template) :
    ReadsSingle (String.ofList (filling.fill (symbols template.toList)))
      (.atom (String.ofList (filling.fill (symbols template.toList)))) := by
  obtain ⟨place, place_mem, sign, sign_mem, ending, ending_mem, rfl⟩ := comparison
  have sign_phrases : ∀ sign ∈ templateSigns, checked isSingle sign = true := by decide
  have sign_phrase := phrase_of_checked (sign_phrases sign sign_mem)
  have whole : filling.fill (symbols (place ++ " " ++ sign ++ " " ++ ending).toList) =
      filling.fill (symbols place.toList) ++ ' ' ::
        (sign.toList ++ ' ' :: filling.fill (symbols ending.toList)) := by
    rw [symbols_comparison place_mem sign_mem, fill_append, fill_cons, fill_append, fill_chars,
      fill_cons]
    rfl
  rw [whole]
  exact (fits.phrase_columnPlace place_mem).readsSingle_blank
    (sign_phrase.blank (fits.phrase_valuePlace ending_mem))

end Filling

end StationGateway.Filter
