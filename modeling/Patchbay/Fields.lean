set_option autoImplicit false

namespace Patchbay

section

variable {α : Type} [LT α] [DecidableLT α]

def insertSorted (item : α) : List α → List α
  | [] => [item]
  | head :: rest => if head < item then head :: insertSorted item rest else item :: head :: rest

/-- Items in increasing order. -/
def sorted (items : List α) : List α := items.foldr insertSorted []

end

/-- Named entries in increasing order of name, each name once. Names are ordered by code point. -/
abbrev Fields (α : Type) := List (String × α)

namespace Fields

variable {α : Type}

def find? (name : String) : Fields α → Option α
  | [] => none
  | (key, value) :: rest => if key = name then some value else find? name rest

/-- Add an entry, taking the place of one with the same name. -/
def insert (name : String) (value : α) : Fields α → Fields α
  | [] => [(name, value)]
  | (key, old) :: rest =>
    if name = key then (name, value) :: rest
    else if name < key then (name, value) :: (key, old) :: rest
    else (key, old) :: insert name value rest

def ofList (entries : List (String × α)) : Fields α :=
  entries.foldl (fun fields entry => insert entry.1 entry.2 fields) []

def modify (name : String) (change : α → α) : Fields α → Fields α
  | [] => []
  | (key, value) :: rest =>
    if key = name then (key, change value) :: rest else (key, value) :: modify name change rest

end Fields

end Patchbay
