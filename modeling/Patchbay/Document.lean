import Patchbay.Guid
import Patchbay.Number.Text

set_option autoImplicit false

namespace Patchbay

/-- A JSON document. Objects keep the order of their entries, also of two with one name. `single`
is a number of single precision: it is written with fewer digits. `invalid` stands for a part of
sound form that has no content: a number out of range, half a surrogate pair, or nesting beyond
the limit. It does no harm in a part that nobody reads. -/
inductive Document where
  | null
  | bool (value : Bool)
  | int (value : Int)
  | float (value : Float)
  | single (value : Float32)
  | string (value : String)
  | array (items : List Document)
  | object (entries : List (String × Document))
  | invalid
deriving Inhabited

namespace Document

mutual

def depth : Document → Nat
  | .array items => depthItems items + 1
  | .object entries => depthEntries entries + 1
  | _ => 1

def depthItems : List Document → Nat
  | [] => 0
  | item :: rest => max item.depth (depthItems rest)

def depthEntries : List (String × Document) → Nat
  | [] => 0
  | (_, item) :: rest => max item.depth (depthEntries rest)

end

mutual

def sound : Document → Bool
  | .invalid => false
  | .array items => soundItems items
  | .object entries => soundEntries entries
  | _ => true

def soundItems : List Document → Bool
  | [] => true
  | item :: rest => item.sound && soundItems rest

def soundEntries : List (String × Document) → Bool
  | [] => true
  | (_, item) :: rest => item.sound && soundEntries rest

end

def entriesNamed (name : String) (entries : List (String × Document)) : List Document :=
  (entries.filter (·.1 == name)).map (·.2)

def ofText? (text : Option String) : Document := (text.map .string).getD .null

def ofNat (n : Nat) : Document := .int n

def ofGuid (guid : Guid) : Document := .string guid.text

def ofList {α : Type} (write : α → Document) (items : List α) : Document := .array (items.map write)

end Document

end Patchbay
