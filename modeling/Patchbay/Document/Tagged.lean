import Patchbay.Document
import Patchbay.Document.Medium

set_option autoImplicit false

namespace Patchbay.Document

def tagName? (medium : Medium) (names : List String) : Document → Option String
  | .string name => some name
  | .int position => if medium = .held ∧ 0 ≤ position then names[position.toNat]? else none
  | _ => none

/-- The name that stands beside a content: as text, or as the only entry of an object. That entry is
null; in held content it may be an empty object. -/
def kindName? (medium : Medium) : Document → Option String
  | .string name => some name
  | .object [(name, .null)] => some name
  | .object [(name, .object [])] => if medium = .held then some name else none
  | _ => none

/-- Tag and content of a record whose tag stands among its fields, or first in a list. The content
is held. -/
def tagged? (medium : Medium) (key : String) (names : List String) : Document → Option (String × Document)
  | .object entries =>
    let content := entries.filter (·.1 != key)
    match entriesNamed key entries with
    | [tag] => if soundEntries content then (tag.tagName? medium names).map (·, .object content) else none
    | _ => none
  | .array (tag :: items) =>
    if soundItems items then (tag.tagName? medium names).map (·, .array items) else none
  | _ => none

/-- Tag and content that stand beside each other, each under a key of its own, or in a list. A
content that comes first is held: it has to be sound as a whole. -/
def beside? (medium : Medium) (tagKey contentKey : String) (names : List String) :
    Document → Option (String × Medium × Option Document)
  | .object entries =>
    match entries.filter fun entry => entry.1 == tagKey || entry.1 == contentKey with
    | [(first, tag)] => if first = tagKey then (tag.kindName? medium).map (·, medium, none) else none
    | [(first, a), (second, b)] =>
      if first = tagKey ∧ second = contentKey then (a.kindName? medium).map (·, medium, some b)
      else if first = contentKey ∧ second = tagKey ∧ a.sound then (b.kindName? medium).map (·, .held, some a)
      else none
    | _ => none
  | .array [tag, content] => (tag.tagName? medium names).map (·, medium, some content)
  | _ => none

def isEmptyContent : Document → Bool
  | .object _ => true
  | .array items => items.isEmpty
  | _ => false

def tag (key name : String) (fields : List (String × Document)) : Document :=
  .object ((key, .string name) :: fields)

end Patchbay.Document
