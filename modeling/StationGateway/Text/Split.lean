/-!
# Cutting and joining texts

Texts are cut at every occurrence of one character, so a text with `n` separators has `n + 1`
pieces, and are joined with a separator between neighbours.
-/

namespace StationGateway.Text

/-- The pieces of a text between the occurrences of `separator`, of which there is one more. -/
def splitOn (separator : Char) : List Char → List (List Char)
  | [] => [[]]
  | char :: rest =>
      if char = separator then
        [] :: splitOn separator rest
      else
        match splitOn separator rest with
        | [] => [[char]]
        | piece :: pieces => (char :: piece) :: pieces

/-- The texts before and after the first occurrence of `separator`. -/
def splitOnce (separator : Char) (text : List Char) : Option (List Char × List Char) :=
  match text.dropWhile (· ≠ separator) with
  | [] => none
  | _ :: after => some (text.takeWhile (· ≠ separator), after)

/-- The texts before and after the last occurrence of `separator`. -/
def splitLast (separator : Char) (text : List Char) : Option (List Char × List Char) :=
  (splitOnce separator text.reverse).map fun (after, before) => (before.reverse, after.reverse)

/-- `splitOn` on strings. -/
def pieces (separator : Char) (text : String) : List String :=
  (splitOn separator text.toList).map String.ofList

/-- The texts in order with `separator` between neighbours. -/
def join (separator : String) : List String → String
  | [] => ""
  | [text] => text
  | text :: next :: rest => text ++ separator ++ join separator (next :: rest)

/-- The rest of a text after `start`, if the text begins with it. -/
def stripStart? : List Char → List Char → Option (List Char)
  | [], text => some text
  | _ :: _, [] => none
  | expected :: start, char :: text => if expected = char then stripStart? start text else none

/-- The part of a text before `ending`, if the text ends with it. -/
def stripEnd? (ending text : List Char) : Option (List Char) :=
  (stripStart? ending.reverse text.reverse).map List.reverse

/-- The text with its first occurrence of `pattern` replaced; `pattern` is not empty. -/
def replaceFirst (pattern replacement : List Char) : List Char → List Char
  | [] => []
  | char :: rest =>
      match stripStart? pattern (char :: rest) with
      | some after => replacement ++ after
      | none => char :: replaceFirst pattern replacement rest

/-- Whether `pattern` occurs in the text. -/
def occursIn (pattern : List Char) : List Char → Bool
  | [] => pattern.isEmpty
  | char :: rest => (stripStart? pattern (char :: rest)).isSome || occursIn pattern rest

/-- The text with every occurrence of `pattern` replaced, from the left and without overlaps. -/
def replaceAll (pattern replacement : List Char) (text : List Char) : List Char :=
  go 0 text
where
  /-- `skip` characters of an occurrence that has been replaced are still ahead. -/
  go : Nat → List Char → List Char
    | _, [] => []
    | skip + 1, _ :: rest => go skip rest
    | 0, char :: rest =>
        if (stripStart? pattern (char :: rest)).isSome && !pattern.isEmpty then
          replacement ++ go (pattern.length - 1) rest
        else
          char :: go 0 rest

end StationGateway.Text
