import Patchbay.Entity
import Patchbay.Storage.Catalog
import Patchbay.Storage.Plain
import Patchbay.Document.Canonical

set_option autoImplicit false

namespace Patchbay

structure ParameterEntry where
  name : String
  type : String

structure EventEntry where
  name : String
  parameters : List ParameterEntry

structure ComponentEntry where
  typeName : String
  guid : Option Guid
  properties : Fields Document
  events : List EventEntry

structure EntityEntry where
  typeName : String
  guid : Option Guid
  properties : Fields Document
  events : List EventEntry
  components : List ComponentEntry

structure Manifest where
  id : String
  name : String
  version : String
  description : Option String
  logFilter : Option String
  limits : Limits
  entity : EntityEntry

inductive EntityError where
  | unknownType (name : String)
  | invalidEvent (name : String) (cause : ScriptError)
deriving DecidableEq

def EntityError.message : EntityError → String
  | .unknownType name => "Invalid pin type: " ++ PinType.unknownMessage name
  | .invalidEvent name cause => "Invalid event '" ++ name ++ "': " ++ cause.message

namespace ParameterEntry

def parameter (entry : ParameterEntry) : Except EntityError Parameter :=
  match PinType.parse entry.type with
  | .ok type => .ok ⟨entry.name, type⟩
  | .error name => .error (.unknownType name)

def toDocument (entry : ParameterEntry) : Document :=
  .object [("name", .string entry.name), ("type", .string entry.type)]

def read (medium : Medium) (document : Document) : Option ParameterEntry := do
  let record ← document.recordIn? medium ["name", "type"]
  return ⟨← record.required "name" Document.string?, ← record.required "type" Document.string?⟩

end ParameterEntry

namespace EventEntry

def build (entry : EventEntry) : Except EntityError (Event Binding) := do
  let parameters ← entry.parameters.mapM ParameterEntry.parameter
  match Event.create entry.name parameters with
  | .ok event => .ok event
  | .error cause => .error (.invalidEvent entry.name cause)

def toDocument (entry : EventEntry) : Document :=
  .object [("name", .string entry.name), ("params", .ofList ParameterEntry.toDocument entry.parameters)]

def read (medium : Medium) (document : Document) : Option EventEntry := do
  let record ← document.recordIn? medium ["name", "params"]
  return ⟨← record.required "name" Document.string?,
    ← record.withDefault "params" [] (Document.list? (ParameterEntry.read medium))⟩

end EventEntry

def buildThing (guid : Guid) (typeName : String) (properties : Fields Document) (events : List EventEntry) :
    Except EntityError Thing := do
  let events ← events.mapM EventEntry.build
  let thing : Thing := ⟨guid, typeName, properties.map fun (name, value) => (name, value.toValue), []⟩
  return events.foldl (fun thing event => thing.withEvent event) thing

def properties? : Document → Option (Fields Document) := fun document =>
  (document.map? Document.any?).map Fields.ofList

namespace ComponentEntry

def toDocument (entry : ComponentEntry) : Document :=
  .object [("type", .string entry.typeName), ("guid", .ofText? (entry.guid.map (·.text))),
    ("properties", .object entry.properties), ("events", .ofList EventEntry.toDocument entry.events)]

def read (medium : Medium) (document : Document) : Option ComponentEntry := do
  let record ← document.recordIn? medium ["type", "guid", "properties", "events"]
  return ⟨← record.required "type" Document.string?, ← record.nullable "guid" (Document.guidIn? medium),
    ← record.withDefault "properties" [] properties?,
    ← record.withDefault "events" [] (Document.list? (EventEntry.read medium))⟩

end ComponentEntry

def buildComponents (fresh : Nat → Guid) (index : Nat) : List ComponentEntry → Except EntityError (List Thing)
  | [] => .ok []
  | entry :: rest => do
    let thing ← buildThing (entry.guid.getD (fresh index)) entry.typeName entry.properties entry.events
    let things ← buildComponents fresh (index + 1) rest
    return thing :: things

namespace EntityEntry

def default : EntityEntry := ⟨"Entity", none, [], [], []⟩

def build (fresh : Nat → Guid) (entry : EntityEntry) : Except EntityError Entity := do
  let self ← buildThing (entry.guid.getD (fresh 0)) entry.typeName entry.properties entry.events
  let components ← buildComponents fresh 1 entry.components
  return ⟨self, components⟩

def toDocument (entry : EntityEntry) : Document :=
  .object [("type", .string entry.typeName), ("guid", .ofText? (entry.guid.map (·.text))),
    ("properties", .object entry.properties), ("events", .ofList EventEntry.toDocument entry.events),
    ("components", .ofList ComponentEntry.toDocument entry.components)]

def read (medium : Medium) (document : Document) : Option EntityEntry := do
  let record ← document.recordIn? medium ["type", "guid", "properties", "events", "components"]
  let typeName ← record.withDefault "type" default.typeName Document.string?
  return ⟨typeName, ← record.nullable "guid" (Document.guidIn? medium),
    ← record.withDefault "properties" [] properties?,
    ← record.withDefault "events" [] (Document.list? (EventEntry.read medium)),
    ← record.withDefault "components" [] (Document.list? (ComponentEntry.read medium))⟩

def ofDocument? : Document → Option EntityEntry := read .json

end EntityEntry

namespace Manifest

def defaultVersion : String := "1.0.0"

def runtime? (document : Document) : Option (Option String × Limits) := do
  if document.sound then
    let record ← document.namedRecord? ("log_filter" :: Limits.fieldNames)
    return (← record.nullable "log_filter" Document.string?, ← Limits.ofRecord? record)
  else none

def toDocument (manifest : Manifest) : Document :=
  .object [
    ("project", .object [("id", .string manifest.id), ("name", .string manifest.name),
      ("version", .string manifest.version), ("description", .ofText? manifest.description)]),
    ("runtime", .object (("log_filter", .ofText? manifest.logFilter) :: manifest.limits.entries)),
    ("entity", manifest.entity.toDocument)]

def read (medium : Medium) (document : Document) : Option Manifest := do
  let record ← document.recordIn? medium ["project", "runtime", "entity"]
  let project ← record.required "project" (Document.recordIn? medium ["id", "name", "version", "description"])
  let id ← project.required "id" Document.string?
  let name ← project.required "name" Document.string?
  let version ← project.withDefault "version" defaultVersion Document.string?
  let description ← project.nullable "description" Document.string?
  let (logFilter, limits) ← record.withDefault "runtime" (none, Limits.default) runtime?
  let entity ← record.withDefault "entity" EntityEntry.default (EntityEntry.read medium)
  return ⟨id, name, version, description, logFilter, limits, entity⟩

def ofDocument? : Document → Option Manifest := read .json

end Manifest

end Patchbay
