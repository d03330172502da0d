/-!
# Sets and maps as strictly ascending lists

A finite set is the ascending list of its members and a finite map the list of its entries with
ascending keys, so equal collections are equal lists however they were filled.
-/

namespace StationGateway.Order

section

variable {α : Type} [LT α] [DecidableLT α] [DecidableEq α]

/-- A set with one member added. -/
def insert (member : α) : List α → List α
  | [] => [member]
  | first :: rest =>
      if member < first then member :: first :: rest
      else if member = first then first :: rest
      else first :: insert member rest

/-- The set of the members of a list. -/
def ofList (members : List α) : List α :=
  members.foldl (fun set member => insert member set) []

end

variable {β : Type}

/-- The map with `key` sent to `value`, whatever was there before. -/
def put (key : String) (value : β) : List (String × β) → List (String × β)
  | [] => [(key, value)]
  | (first, old) :: rest =>
      if key < first then (key, value) :: (first, old) :: rest
      else if key = first then (key, value) :: rest
      else (first, old) :: put key value rest

/-- The value at `key`. -/
def find? (key : String) : List (String × β) → Option β
  | [] => none
  | (first, value) :: rest => if key = first then some value else find? key rest

/-- The map without `key`. -/
def erase (key : String) : List (String × β) → List (String × β)
  | [] => []
  | (first, value) :: rest => if key = first then rest else (first, value) :: erase key rest

/-- Whether the map has an entry for `key`. -/
def hasKey (key : String) (map : List (String × β)) : Bool :=
  (find? key map).isSome

/-- The map of the entries of a list, where later entries win. -/
def mapOfList (entries : List (String × β)) : List (String × β) :=
  entries.foldl (fun map entry => put entry.1 entry.2 map) []

/-- The first map with the entries of the second put over it. -/
def putAll (map entries : List (String × β)) : List (String × β) :=
  entries.foldl (fun map entry => put entry.1 entry.2 map) map

end StationGateway.Order
