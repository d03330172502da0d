import StationGateway.Files.Tree
import StationGateway.Order.Sorted
import StationGateway.Text.Blank
import StationGateway.Text.Split
import StationGateway.Text.UpperCase

/-!
# Access rules

Which rows a caller may see is said by a predicate for each of its roles. The predicates of a class
of rows are files, listed in a manifest. Administrators see everything, and roles without a
predicate add nothing. -/

namespace StationGateway.Access

open Text

/-- The role that sees everything. -/
def adminRole : String := "ADMIN"

/-- The role of every caller who is no administrator. -/
def guestRole : String := "GUEST"

/-- The rows that have rules of their own. -/
inductive RowClass where
  /-- Stations and their measurements. -/
  | stations
  /-- Events. -/
  | events
  deriving DecidableEq, Repr

/-- The name of a class, which is the name of its directory. -/
def RowClass.name : RowClass → String
  | stations => "stations"
  | events => "events"

/-- The files that hold the rules, in a directory for each class. -/
structure RuleFiles where
  /-- The tree of all of them. -/
  tree : FileTree
  deriving Repr

/-- Why rules cannot be used. -/
inductive RuleError where
  /-- There is no file. -/
  | unreadable (path : String)
  /-- An entry of a manifest names no predicate file. -/
  | notPredicate (entry : String)
  /-- A predicate is empty. -/
  | emptyPredicate (entry : String) (rows : RowClass)
  deriving DecidableEq, Repr

/-- The wording of an error. -/
def RuleError.message : RuleError → String
  | unreadable path => s!"failed to read acl rule {path}"
  | notPredicate entry => s!"acl manifest entry '{entry}' is not a .sql file"
  | emptyPredicate entry rows => s!"acl rule '{entry}' for " ++ rows.name ++ " is empty"

/-- The characters before a comment. A comment begins with two hyphens or slashes outside quotes;
`quote` is the quote that is open. -/
def beforeComment (quote : Option Char) : List Char → List Char
  | [] => []
  | char :: rest =>
      match quote with
      | some mark => char :: beforeComment (if char = mark then none else some mark) rest
      | none =>
          if char = '\'' ∨ char = '"' then char :: beforeComment (some char) rest
          else if (char = '-' ∨ char = '/') ∧ rest.head? = some char then []
          else char :: beforeComment none rest

/-- The text without comments and blank lines, and without blanks at the ends of its lines. Quotes
are followed within a line. -/
def stripComments (text : String) : String :=
  let lines := (splitOn '\n' text.toList).map fun line => dropBlanksRight (beforeComment none line)
  join "\n" ((lines.filter fun line => !isBlankText line).map String.ofList)

/-- The rules that come with the gateway: guests see what does not come from a closed origin. -/
def RuleFiles.standard : RuleFiles :=
  ⟨.ofList "rules"
    [("stations/rules.txt", "ADMIN.sql\nGUEST.sql\n"),
      ("stations/GUEST.sql", "(s.origin is null or s.origin not like 'CLOSED/%')\n"),
      ("events/rules.txt", "ADMIN.sql\nGUEST.sql\n"),
      ("events/GUEST.sql", "(ev.origin is null or ev.origin not like 'CLOSED/%')\n")]⟩

namespace RuleFiles

/-- The text of a file of a class. -/
def read (files : RuleFiles) (rows : RowClass) (file : String) : Except RuleError String :=
  let path := FileTree.pathIn (FileTree.pathIn files.tree.location rows.name) file
  match files.tree.read? path with
  | some text => .ok text
  | none => .error (.unreadable path)

/-- The predicates that the entries of a manifest add to those by role. The administrators' file is
not read. -/
def addEntries (files : RuleFiles) (rows : RowClass) :
    List (String × String) → List String → Except RuleError (List (String × String))
  | rules, [] => .ok rules
  | rules, entry :: rest =>
      match stripEnd? ['.', 's', 'q', 'l'] entry.toList with
      | none => .error (.notPredicate entry)
      | some name =>
          let role := upperCase (String.ofList name)
          if role = adminRole then files.addEntries rows rules rest
          else do
            let predicate := stripComments (← files.read rows entry)
            if predicate = "" then .error (.emptyPredicate entry rows)
            else files.addEntries rows (Order.put role predicate rules) rest

/-- The predicates of a class by role. -/
def rules (files : RuleFiles) (rows : RowClass) : Except RuleError (List (String × String)) := do
  let manifest ← files.read rows "rules.txt"
  let lines := (splitOn '\n' manifest.toList).map fun line => String.ofList (trim line)
  files.addEntries rows [] (lines.filter (· ≠ ""))

/-- The condition on the rows of a class for a caller with some roles, none for administrators. Who
has no predicate sees nothing. -/
def condition? (files : RuleFiles) (rows : RowClass) (roles : List String) :
    Except RuleError (Option String) :=
  if roles.contains adminRole then .ok none
  else do
    let rules ← files.rules rows
    match roles.filterMap fun role => Order.find? role rules with
    | [] => .ok (some "(false)")
    | predicates => .ok (some ("(" ++ join " or " predicates ++ ")"))

end RuleFiles

end StationGateway.Access
