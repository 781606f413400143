import Patchbay.PinType

set_option autoImplicit false

namespace Patchbay

/-- A named and typed variable of a script or of one graph. The value is the initial one for a graph
and the current one for a script. -/
structure Variable where
  guid : Guid
  name : String
  type : PinType
  value : Value

def Variable.fresh (guid : Guid) (name : String) (type : PinType) : Variable :=
  ⟨guid, name, type, type.defaultValue⟩

def Variable.position? (guid : Guid) (vars : List Variable) : Option Nat :=
  vars.findIdx? fun entry => entry.guid = guid

/-- How a node names its variable: in memory, by position in a saved script, or by identifier on the
clipboard. -/
inductive Reference where
  | live (guid : Guid)
  | indexed (isLocal : Bool) (index : Nat)
  | byGuid (guid : Guid)
deriving DecidableEq

inductive ReferenceForm where
  | live
  | indexed
  | byGuid
deriving DecidableEq

namespace Reference

def guid? : Reference → Option Guid
  | .live guid | .byGuid guid => some guid
  | .indexed _ _ => none

def text : Reference → String
  | .live guid => "Live \x7b guid: " ++ guid.text ++ " \x7d"
  | .indexed isLocal index =>
    "Indexed \x7b local: " ++ toString isLocal ++ ", index: " ++ toString index ++ " \x7d"
  | .byGuid guid => "Guid \x7b guid: " ++ guid.text ++ " \x7d"

/-- The list and position that a reference names. The variables of the graph come first. -/
def resolve? (locals globals : List Variable) : Reference → Option (Bool × Nat)
  | .live guid | .byGuid guid =>
    match Variable.position? guid locals with
    | some index => some (true, index)
    | none => (Variable.position? guid globals).map (false, ·)
  | .indexed isLocal index =>
    if index < (if isLocal then locals else globals).length then some (isLocal, index) else none

def convert? (locals globals : List Variable) (form : ReferenceForm) (reference : Reference) : Option Reference :=
  match reference.resolve? locals globals with
  | none => none
  | some (isLocal, index) =>
    match (if isLocal then locals else globals)[index]? with
    | none => none
    | some entry =>
      match form with
      | .live => some (.live entry.guid)
      | .indexed => some (.indexed isLocal index)
      | .byGuid => some (.byGuid entry.guid)

end Reference

end Patchbay
