import Patchbay.Node
import Patchbay.Storage.Value

set_option autoImplicit false

namespace Patchbay

namespace Variable

def toDocument (entry : Variable) : Document :=
  .object [("guid", .ofGuid entry.guid), ("name", .string entry.name), ("type", entry.type.toDocument),
    ("value", entry.value.toDocument)]

def read (medium : Medium) (document : Document) : Option Variable := do
  let record ← document.record? ["guid", "name", "type", "value"]
  return ⟨← record.required "guid" Document.guid?, ← record.required "name" Document.string?,
    ← record.required "type" (PinType.read medium), ← record.withDefault "value" .null (Value.read medium)⟩

def ofDocument? : Document → Option Variable := read .json

end Variable

namespace Reference

/-- Stored form. A live reference has none: it means something in memory alone. -/
def toDocument? : Reference → Option Document
  | .live _ => none
  | .indexed isLocal index => some (.tag "by" "indexed" [("local", .bool isLocal), ("index", .ofNat index)])
  | .byGuid guid => some (.tag "by" "guid" [("guid", .ofGuid guid)])

def tagNames : List String := ["indexed", "guid"]

def read (medium : Medium) (document : Document) : Option Reference := do
  match ← document.tagged? medium "by" tagNames with
  | ("indexed", content) =>
    let record ← content.record? ["local", "index"]
    return .indexed (← record.required "local" Document.bool?) (← record.required "index" Document.nat?)
  | ("guid", content) => return .byGuid (← (← content.record? ["guid"]).required "guid" Document.guid?)
  | _ => none

def ofDocument? : Document → Option Reference := read .json

end Reference

namespace NodeKind

def componentEntry : Option Guid → List (String × Document)
  | some component => [("component", .ofGuid component)]
  | none => []

def toDocument? (kind : NodeKind) : Option Document := do
  let fields ← match kind with
    | .receiveEvent event component => some (("event", Document.string event) :: componentEntry component)
    | .cast target | .implicitCast target => some [("target", target.toDocument)]
    | .getVariable reference | .setVariable reference => do some [("variable", ← reference.toDocument?)]
    | .getMember member | .setMember member => some [("member", Document.string member)]
    | .getComponent component => some [("component", .ofGuid component)]
    | .callNative key isPure => some [("function", Document.string key), ("pure", .bool isPure)]
    | .callFunction function => some [("function", .ofGuid function)]
    | _ => some []
  return .tag "type" kind.name fields

def simple? : String → Option NodeKind
  | "FunctionEntry" => some .functionEntry
  | "FunctionReturn" => some .functionReturn
  | "Branch" => some .branch
  | "Sequence" => some .sequence
  | "ForLoop" => some .forLoop
  | "ForEach" => some .forEach
  | "WhileLoop" => some .whileLoop
  | "Switch" => some .switch
  | "SelfReference" => some .selfReference
  | "MakeArray" => some .makeArray
  | _ => none

def tagNames : List String :=
  ["FunctionEntry", "FunctionReturn", "ReceiveEvent", "Branch", "Sequence", "ForLoop", "ForEach", "WhileLoop",
    "Switch", "Cast", "ImplicitCast", "GetVariable", "SetVariable", "GetMember", "SetMember", "SelfReference",
    "GetComponent", "MakeArray", "CallNative", "CallFunction"]

def read (medium : Medium) (document : Document) : Option NodeKind := do
  let (name, content) ← document.tagged? medium "type" tagNames
  let field {α : Type} (key : String) (read : Document → Option α) : Option α := do
    (← content.record? [key]).required key read
  match name with
  | "ReceiveEvent" =>
    let record ← content.record? ["event", "component"]
    return .receiveEvent (← record.required "event" Document.string?) (← record.optional "component" Document.guid?)
  | "Cast" => (field "target" (PinType.read .held)).map .cast
  | "ImplicitCast" => (field "target" (PinType.read .held)).map .implicitCast
  | "GetVariable" => (field "variable" (Reference.read .held)).map .getVariable
  | "SetVariable" => (field "variable" (Reference.read .held)).map .setVariable
  | "GetMember" => (field "member" Document.string?).map .getMember
  | "SetMember" => (field "member" Document.string?).map .setMember
  | "GetComponent" => (field "component" Document.guid?).map .getComponent
  | "CallNative" =>
    let record ← content.record? ["function", "pure"]
    let key ← record.required "function" Document.string?
    return .callNative key (← record.withDefault "pure" false Document.bool?)
  | "CallFunction" => (field "function" Document.guid?).map .callFunction
  | name => if content.isEmptyContent then simple? name else none

def ofDocument? : Document → Option NodeKind := read .json

end NodeKind

def PinSource.toDocument (source : PinSource) : Document :=
  .object [("node", .ofNat source.node), ("parameter", .ofNat source.parameter)]

def PinSource.ofDocument? (document : Document) : Option PinSource := do
  let record ← document.record? ["node", "parameter"]
  return ⟨← record.required "node" Document.nat?, ← record.required "parameter" Document.nat?⟩

def ExecTarget.toDocument (target : ExecTarget) : Document :=
  .object [("node", .ofNat target.node), ("pin", .ofNat target.pin)]

def ExecTarget.ofDocument? (document : Document) : Option ExecTarget := do
  let record ← document.record? ["node", "pin"]
  return ⟨← record.required "node" Document.nat?, ← record.required "pin" Document.nat?⟩

def SwitchCase.toDocument (case : SwitchCase) : Document :=
  .object [("type", case.type.toDocument), ("value", case.value.toDocument)]

def SwitchCase.read (medium : Medium) (document : Document) : Option SwitchCase := do
  let record ← document.record? ["type", "value"]
  return ⟨← record.required "type" (PinType.read medium), ← record.required "value" (Value.read medium)⟩

def optionalEntry {α : Type} (name : String) (write : α → Document) : Option α → List (String × Document)
  | some value => [(name, write value)]
  | none => []

namespace InputPin

def toDocument (pin : InputPin) : Document :=
  .object ([("name", .string pin.name), ("type", pin.type.toDocument), ("literal", pin.literal.toDocument)]
    ++ optionalEntry "source" PinSource.toDocument pin.source
    ++ if pin.literalOnly then [("literal_only", .bool true)] else [])

def read (medium : Medium) (document : Document) : Option InputPin := do
  let record ← document.record? ["name", "type", "literal", "source", "literal_only"]
  return ⟨← record.required "name" Document.string?, ← record.required "type" (PinType.read medium),
    ← record.withDefault "literal" .null (Value.read medium), ← record.optional "source" PinSource.ofDocument?, none,
    ← record.withDefault "literal_only" false Document.bool?⟩

end InputPin

namespace OutputPin

def toDocument (pin : OutputPin) : Document := .object [("name", .string pin.name), ("type", pin.type.toDocument)]

def read (medium : Medium) (document : Document) : Option OutputPin := do
  let record ← document.record? ["name", "type"]
  return ⟨← record.required "name" Document.string?, ← record.required "type" (PinType.read medium)⟩

end OutputPin

namespace ExecPin

def toDocument (pin : ExecPin) : Document :=
  .object (("name", .string pin.name) :: optionalEntry "target" ExecTarget.toDocument pin.target
    ++ optionalEntry "discriminant" SwitchCase.toDocument pin.case)

def read (medium : Medium) (document : Document) : Option ExecPin := do
  let record ← document.record? ["name", "target", "discriminant"]
  return ⟨← record.required "name" Document.string?, ← record.optional "target" ExecTarget.ofDocument?,
    ← record.optional "discriminant" (SwitchCase.read medium)⟩

end ExecPin

namespace Position

def toDocument (position : Position) : Document := .array [.single position.x, .single position.y]

def ofDocument? : Document → Option Position
  | .array [x, y] => do return ⟨← x.single?, ← y.single?⟩
  | _ => none

end Position

namespace Node

def fieldNames : List String :=
  ["kind", "name", "position", "in_execution_pins", "out_execution_pins", "input_pins", "output_pins"]

def toDocument? (node : Node) : Option Document := do
  return .object [("kind", ← node.kind.toDocument?), ("name", .string node.name),
    ("position", node.position.toDocument),
    ("in_execution_pins", .ofList ExecPin.toDocument node.execIn),
    ("out_execution_pins", .ofList ExecPin.toDocument node.execOut),
    ("input_pins", .ofList InputPin.toDocument node.inputs),
    ("output_pins", .ofList OutputPin.toDocument node.outputs)]

def read (medium : Medium) (document : Document) : Option Node := do
  let record ← document.record? fieldNames
  return ⟨← record.required "kind" (NodeKind.read medium), ← record.required "name" Document.string?,
    ← record.withDefault "position" origin Position.ofDocument?,
    ← record.withDefault "in_execution_pins" [] (Document.list? (ExecPin.read medium)),
    ← record.withDefault "out_execution_pins" [] (Document.list? (ExecPin.read medium)),
    ← record.withDefault "input_pins" [] (Document.list? (InputPin.read medium)),
    ← record.withDefault "output_pins" [] (Document.list? (OutputPin.read medium)), 0, .idle⟩

def ofDocument? : Document → Option Node := read .json

end Node

namespace PinRef

def toDocument : PinRef → Document
  | .input index => .object [("Input", .ofNat index)]
  | .output index => .object [("Output", .ofNat index)]
  | .execIn index => .object [("InExecution", .ofNat index)]
  | .execOut index => .object [("OutExecution", .ofNat index)]

def ofDocument? : Document → Option PinRef
  | .object [("Input", index)] => index.nat?.map .input
  | .object [("Output", index)] => index.nat?.map .output
  | .object [("InExecution", index)] => index.nat?.map .execIn
  | .object [("OutExecution", index)] => index.nat?.map .execOut
  | _ => none

end PinRef

namespace NodeAction

def toDocument : NodeAction → Document
  | .pinTypeChanged pin type => .tag "action" "PinTypeChanged" [("pin", pin.toDocument), ("pin_type", type.toDocument)]
  | .pinRenamed pin name => .tag "action" "PinRenamed" [("pin", pin.toDocument), ("name", .string name)]
  | .nodeRenamed name => .tag "action" "NodeRenamed" [("name", .string name)]
  | .pinInserted pin => .tag "action" "PinInserted" [("pin", pin.toDocument)]
  | .pinRemoved pin => .tag "action" "PinRemoved" [("pin", pin.toDocument)]

def tagNames : List String := ["PinTypeChanged", "PinRenamed", "NodeRenamed", "PinInserted", "PinRemoved"]

def ofDocument? (document : Document) : Option NodeAction := do
  match ← document.tagged? .json "action" tagNames with
  | ("PinTypeChanged", content) =>
    let record ← content.record? ["pin", "pin_type"]
    return .pinTypeChanged (← record.required "pin" PinRef.ofDocument?)
      (← record.required "pin_type" (PinType.read .held))
  | ("PinRenamed", content) =>
    let record ← content.record? ["pin", "name"]
    return .pinRenamed (← record.required "pin" PinRef.ofDocument?) (← record.required "name" Document.string?)
  | ("NodeRenamed", content) => return .nodeRenamed (← (← content.record? ["name"]).required "name" Document.string?)
  | ("PinInserted", content) => return .pinInserted (← (← content.record? ["pin"]).required "pin" PinRef.ofDocument?)
  | ("PinRemoved", content) => return .pinRemoved (← (← content.record? ["pin"]).required "pin" PinRef.ofDocument?)
  | _ => none

end NodeAction

end Patchbay
