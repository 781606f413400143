import Patchbay.Document

set_option autoImplicit false

namespace Patchbay.Toml

inductive Origin where
  | implied
  | header
  | dotted
deriving DecidableEq

/-- What stands under a name: a finished value, a table that later lines may add to, or tables in a
row, of which the last is added to. -/
inductive Tree where
  | leaf (value : Document)
  | table (origin : Origin) (entries : List (String × Tree))
  | tables (rows : List (List (String × Tree)))

abbrev Entries := List (String × Tree)

namespace Entries

def find? (name : String) : Entries → Option Tree
  | [] => none
  | (key, tree) :: rest => if key = name then some tree else find? name rest

def put (name : String) (tree : Tree) : Entries → Entries
  | [] => [(name, tree)]
  | (key, old) :: rest => if key = name then (key, tree) :: rest else (key, old) :: put name tree rest

/-- Change the table at the end of a path; `change` is told how that table came to be. Tables on the
way that do not exist are made, and of tables in a row the last is meant. A dotted key does not lead
into a table that has a header of its own. -/
def changeAt (dotted : Bool) (change : Origin → Entries → Option Entries) :
    Origin → List String → Entries → Option Entries
  | origin, [], entries => change origin entries
  | _, name :: path, entries =>
    match find? name entries with
    | none =>
      let origin := if dotted then .dotted else .implied
      (changeAt dotted change origin path []).map fun inner => put name (.table origin inner) entries
    | some (.table origin inner) =>
      if dotted ∧ origin = .header then none
      else (changeAt dotted change origin path inner).map fun inner => put name (.table origin inner) entries
    | some (.tables rows) =>
      match rows.getLast? with
      | some row =>
        (changeAt dotted change .header path row).map fun row => put name (.tables (rows.dropLast ++ [row])) entries
      | none => none
    | some (.leaf _) => none

def assign (name : String) (value : Document) (entries : Entries) : Option Entries :=
  match find? name entries with
  | none => some (put name (.leaf value) entries)
  | some _ => none

def beginTable (name : String) (entries : Entries) : Option Entries :=
  match find? name entries with
  | none => some (put name (.table .header []) entries)
  | some (.table .implied inner) => some (put name (.table .header inner) entries)
  | some _ => none

def beginRow (name : String) (entries : Entries) : Option Entries :=
  match find? name entries with
  | none => some (put name (.tables [[]]) entries)
  | some (.tables rows) => some (put name (.tables (rows ++ [[]])) entries)
  | some _ => none

end Entries

mutual

def Tree.toDocument : Tree → Document
  | .leaf value => value
  | .table _ entries => .object (documents entries)
  | .tables rows => .array (rowDocuments rows)

def documents : List (String × Tree) → List (String × Document)
  | [] => []
  | (name, tree) :: rest => (name, tree.toDocument) :: documents rest

def rowDocuments : List (List (String × Tree)) → List Document
  | [] => []
  | row :: rest => .object (documents row) :: rowDocuments rest

end

end Patchbay.Toml
