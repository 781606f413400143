import Patchbay.Event
import Patchbay.Fields

set_option autoImplicit false

namespace Patchbay

structure Binding where
  script : Nat
  graph : Guid
deriving DecidableEq

structure Thing where
  guid : Guid
  typeName : String
  properties : Fields Value
  events : Fields (Event Binding)

structure Entity where
  self : Thing
  components : List Thing

namespace Thing

def handle (thing : Thing) : Handle := ⟨thing.guid, thing.typeName⟩

def withEvent (event : Event Binding) (thing : Thing) : Thing :=
  { thing with events := Fields.insert event.name event thing.events }

def setProperty? (name : String) (value : Value) (thing : Thing) : Option Thing :=
  match Fields.find? name thing.properties with
  | some _ => some { thing with properties := Fields.insert name value thing.properties }
  | none => none

def modifyEvent (name : String) (change : Event Binding → Event Binding) (thing : Thing) : Thing :=
  { thing with events := Fields.modify name change thing.events }

end Thing

namespace Entity

def handle (entity : Entity) : Handle := entity.self.handle

def componentIndex? (guid : Guid) (entity : Entity) : Option Nat := entity.components.findIdx? (·.guid == guid)

def component? (guid : Guid) (entity : Entity) : Option Thing := entity.components.find? (·.guid == guid)

/-- The thing that a scope means: the entity, or the first component with an identifier. -/
def scope? (component : Option Guid) (entity : Entity) : Option Thing :=
  match component with
  | none => some entity.self
  | some guid => entity.component? guid

def modifyScope (component : Option Guid) (change : Thing → Thing) (entity : Entity) : Entity :=
  match component with
  | none => { entity with self := change entity.self }
  | some guid =>
    match entity.componentIndex? guid with
    | some index => { entity with components := entity.components.modify index change }
    | none => entity

def event? (component : Option Guid) (name : String) (entity : Entity) : Option (Event Binding) :=
  match entity.scope? component with
  | some thing => Fields.find? name thing.events
  | none => none

def modifyEvent (component : Option Guid) (name : String) (change : Event Binding → Event Binding) (entity : Entity) :
    Entity :=
  entity.modifyScope component (·.modifyEvent name change)

def scopeOf (object : Guid) (entity : Entity) : Option Guid :=
  if object = entity.self.guid then none else some object

def property? (object : Guid) (name : String) (entity : Entity) : Option Value :=
  match entity.scope? (entity.scopeOf object) with
  | some thing => Fields.find? name thing.properties
  | none => none

def setProperty? (object : Guid) (name : String) (value : Value) (entity : Entity) : Option Entity :=
  let scope := entity.scopeOf object
  match entity.scope? scope with
  | none => none
  | some thing => (thing.setProperty? name value).map fun changed => entity.modifyScope scope fun _ => changed

end Entity

end Patchbay
