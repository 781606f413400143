import Patchbay.Document
import Patchbay.Fields

set_option autoImplicit false

namespace Patchbay.Document

mutual

/-- The content of a document: entries in order of name with the last of each name, and null for a
number that is not finite. -/
def canonical : Document → Document
  | .float value => if value.isFinite then .float value else .null
  | .single value => if value.isFinite then .float (Number.ofSingle value) else .null
  | .array items => .array (canonicalItems items)
  | .object entries => .object (Fields.ofList (canonicalEntries entries))
  | leaf => leaf

def canonicalItems : List Document → List Document
  | [] => []
  | item :: rest => item.canonical :: canonicalItems rest

def canonicalEntries : List (String × Document) → List (String × Document)
  | [] => []
  | (name, item) :: rest => (name, item.canonical) :: canonicalEntries rest

end

def any? (document : Document) : Option Document := if document.sound then some document.canonical else none

end Patchbay.Document
