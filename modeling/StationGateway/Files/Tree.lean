import StationGateway.Text.Split

/-!
# Trees of files

Directories and text files below one place. A path is walked name by name: two dots lead up, one dot
and an empty name stay, and every step, also one that stays, needs a directory to start from. Of
what lies outside a tree only the directories above it are known. -/

namespace StationGateway

open Text

/-- Where a path leads. -/
inductive FilePlace where
  /-- A directory above the tree. -/
  | above
  /-- A directory of the tree, by the names that lead to it, the last one first. -/
  | directory (names : List String)
  /-- A file with a text. -/
  | file (text : String)
  deriving DecidableEq, Repr

/-- Directories and files below one place. -/
structure FileTree where
  /-- The path of the place. -/
  location : String
  /-- The directories below it, each by the names that lead to it, the last one first. -/
  directories : List (List String)
  /-- The texts of files by the names that lead to them, of which the first entry counts. -/
  files : List (List String × String)
  deriving Repr

namespace FileTree

/-- The tree of an empty directory. -/
def empty (location : String) : FileTree :=
  ⟨location, [], []⟩

/-- The names on a path. -/
def namesOn (path : List Char) : List String :=
  (splitOn '/' path).map String.ofList

/-- The names that lead one step on from a directory. -/
def enter (names : List String) (name : String) : List String :=
  if name = "" ∨ name = "." then names
  else if name = ".." then names.tail
  else name :: names

/-- The directories on the way from a directory along some names. -/
def wayAlong (start : List String) : List String → List (List String)
  | [] => [start]
  | name :: rest => start :: wayAlong (enter start name) rest

/-- The tree with one more file at a path below its place, and with the directories on the way. -/
def add (tree : FileTree) (path text : String) : FileTree :=
  let names := namesOn path.toList
  let way := wayAlong [] names.dropLast
  { tree with
    directories := way ++ tree.directories
    files := (enter (way.getLastD []) (names.getLastD ""), text) :: tree.files }

/-- The tree of some files by their paths below a place. Of files with one path the last one counts.
-/
def ofList (location : String) (files : List (String × String)) : FileTree :=
  files.foldl (fun tree file => tree.add file.1 file.2) (empty location)

/-- The place one step on. -/
def step? (tree : FileTree) (name : String) : FilePlace → Option FilePlace
  | .file _ => none
  | .above => if name = "" ∨ name = "." ∨ name = ".." then some .above else none
  | .directory names =>
      if name = ".." ∧ names.isEmpty then some .above
      else
        let names := enter names name
        if names.isEmpty ∨ names ∈ tree.directories then some (.directory names)
        else (tree.files.find? fun file => file.1 = names).map fun file => .file file.2

/-- The place along some names. -/
def walk? (tree : FileTree) : FilePlace → List String → Option FilePlace
  | place, [] => some place
  | place, name :: rest => do
      let next ← tree.step? name place
      tree.walk? next rest

/-- The greatest number of bytes of a path. -/
def maxPathBytes : Nat := 4095

/-- Where a path leads: below the place of the tree if it begins there, else from the root of all
directories. -/
def place? (tree : FileTree) (path : String) : Option FilePlace :=
  if path.utf8ByteSize > maxPathBytes ∨ Char.ofNat 0 ∈ path.toList then none
  else
    match stripStart? tree.location.toList path.toList, path.toList with
    | some [], _ => some (.directory [])
    | some ('/' :: rest), _ => tree.walk? (.directory []) (namesOn rest)
    | _, '/' :: rest => tree.walk? .above (namesOn rest)
    | _, _ => none

/-- The text of the file at a path. -/
def read? (tree : FileTree) (path : String) : Option String :=
  match tree.place? path with
  | some (.file text) => some text
  | _ => none

/-- The path of a name in a directory. A name that begins with a slash is a whole path. -/
def pathIn (directory name : String) : String :=
  if name.toList.head? = some '/' then name else directory ++ "/" ++ name

end FileTree

end StationGateway
