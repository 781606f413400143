import Patchbay.Document.Printer
import Patchbay.Document.Reader
import Patchbay.Script.Edit
import Patchbay.Storage.Graph

set_option autoImplicit false

namespace Patchbay

namespace Body

def entries? (body : Body) : Option (List (String × Document)) := do
  return [("graph", ← body.graph.toDocument?),
    ("input_parameters", .ofList Parameter.toDocument body.inputs),
    ("output_parameters", .ofList Parameter.toDocument body.outputs)]

def fieldNames : List String := ["graph", "input_parameters", "output_parameters"]

/-- The fields of a body are held, for they stand among others. -/
def ofRecord? (record : Record) : Option Body := do
  return ⟨← record.required "graph" (Graph.read .held),
    ← record.withDefault "input_parameters" [] (Document.list? (Parameter.read .held)),
    ← record.withDefault "output_parameters" [] (Document.list? (Parameter.read .held))⟩

end Body

/-- A record that shares an object with another: it is no list, and it is sound as a whole. -/
def Document.mergedRecord? (names : List String) (document : Document) : Option Record :=
  if document.sound then document.namedRecord? names else none

namespace Function

def toDocument? (function : Function) : Option Document := do
  return .object ([("guid", .ofGuid function.guid), ("name", .string function.name)] ++ (← function.body.entries?))

def ofDocument? (document : Document) : Option Function := do
  let record ← document.mergedRecord? ("guid" :: "name" :: Body.fieldNames)
  return ⟨← record.required "guid" Document.guid?, ← record.required "name" Document.string?, ← Body.ofRecord? record⟩

end Function

namespace InterfaceFunction

def toDocument? (function : InterfaceFunction) : Option Document := do
  return .object ([("interface", .string function.interface), ("name", .string function.name)]
    ++ (← function.body.entries?))

def ofDocument? (document : Document) : Option InterfaceFunction := do
  let record ← document.mergedRecord? ("interface" :: "name" :: Body.fieldNames)
  return ⟨← record.required "interface" Document.string?, ← record.required "name" Document.string?,
    ← Body.ofRecord? record⟩

end InterfaceFunction

namespace EventGraph

def toDocument? (graph : EventGraph) : Option Document := do
  return .object [("guid", .ofGuid graph.guid), ("graph", ← graph.graph.toDocument?)]

def ofDocument? (document : Document) : Option EventGraph := do
  let record ← document.record? ["guid", "graph"]
  return ⟨← record.required "guid" Document.guid?, ← record.required "graph" Graph.ofDocument?, none⟩

end EventGraph

namespace InterfaceSignature

def toDocument (signature : InterfaceSignature) : Document :=
  .object [("name", .string signature.name), ("inputs", .ofList Parameter.toDocument signature.inputs),
    ("outputs", .ofList Parameter.toDocument signature.outputs)]

def ofDocument? (document : Document) : Option InterfaceSignature := do
  let record ← document.record? ["name", "inputs", "outputs"]
  return ⟨← record.required "name" Document.string?,
    ← record.withDefault "inputs" [] (Document.list? Parameter.ofDocument?),
    ← record.withDefault "outputs" [] (Document.list? Parameter.ofDocument?)⟩

end InterfaceSignature

namespace InterfaceDefinition

def toDocument (definition : InterfaceDefinition) : Document :=
  .object [("name", .string definition.name),
    ("functions", .ofList InterfaceSignature.toDocument definition.functions)]

def ofDocument? (document : Document) : Option InterfaceDefinition := do
  let record ← document.record? ["name", "functions"]
  return ⟨← record.required "name" Document.string?,
    ← record.withDefault "functions" [] (Document.list? InterfaceSignature.ofDocument?)⟩

end InterfaceDefinition

namespace Script

def fieldNames : List String :=
  ["name", "variables", "event_graphs", "interface_graphs", "function_graphs", "included_interfaces"]

def toDocument? (script : Script) : Option Document := do
  return .object [("name", .string script.name),
    ("variables", .ofList Variable.toDocument script.vars),
    ("event_graphs", .array (← script.eventGraphs.mapM EventGraph.toDocument?)),
    ("interface_graphs", .array (← script.interfaceFunctions.mapM InterfaceFunction.toDocument?)),
    ("function_graphs", .array (← script.functions.mapM Function.toDocument?)),
    ("included_interfaces", .ofList Document.string script.interfaces)]

def ofDocument? (document : Document) : Option Script := do
  let record ← document.record? fieldNames
  return ⟨← record.required "name" Document.string?,
    ← record.withDefault "variables" [] (Document.list? Variable.ofDocument?),
    ← record.withDefault "event_graphs" [] (Document.list? EventGraph.ofDocument?),
    ← record.withDefault "interface_graphs" [] (Document.list? InterfaceFunction.ofDocument?),
    ← record.withDefault "function_graphs" [] (Document.list? Function.ofDocument?),
    ← record.withDefault "included_interfaces" [] (Document.list? Document.string?), none, none⟩

/-- Save a script in the text that `write` makes of its document: variables are named by position in
the text, and live again afterwards. Nodes whose variable or function is gone are lost on the way. -/
def saveWith (write : Document → String) (script : Script) : Except ScriptError String × Script :=
  let indexed := (script.convertReferences .indexed).1
  let result := match indexed.toDocument? with
    | some document => .ok (write document)
    | none => .error .serialization
  (result, (indexed.convertReferences .live).1)

def loadWith (read : String → Option Document) (text : String) : Except ScriptError Script :=
  match (read text).bind ofDocument? with
  | some script => .ok (script.convertReferences .live).1
  | none => .error .serialization

def save (script : Script) : Except ScriptError String × Script := script.saveWith Document.pretty

def load (text : String) : Except ScriptError Script := loadWith Document.parse? text

end Script

end Patchbay
