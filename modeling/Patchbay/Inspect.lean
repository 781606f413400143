import Patchbay.Report

set_option autoImplicit false

/-!
Snapshots of live state as documents, with what a saved form leaves out: stacks, places and progress.
A float is given by its bits, so that a snapshot tells apart what a text would not.
-/

namespace Patchbay

namespace Inspect

def optional {α : Type} (view : α → Document) (value : Option α) : Document := (value.map view).getD .null

def texts (items : List String) : Document := .ofList .string items

def numbers (items : List Nat) : Document := .ofList .ofNat items

def guid (guid : Guid) : Document := .ofGuid guid

def floatBits (value : Float) : String :=
  if value.isNaN then "nan" else String.ofList (Guid.hexDigits 16 value.toBits.toNat)

mutual

/-- Stored form of a value, but with the bits of its floats, and with a type also where there is none. -/
def value : Value → Document
  | .float x => .object [("kind", .string "Float"), ("bits", .string (floatBits x))]
  | .array items => Value.kindDocument "Array" (.array (values items))
  | .object typeId fields =>
    Value.kindDocument "Object" (.object [("type", .ofText? typeId), ("fields", .object (fieldValues fields))])
  | simple => simple.toDocument

def values : List Value → List Document
  | [] => []
  | item :: rest => value item :: values rest

def fieldValues : List (String × Value) → List (String × Document)
  | [] => []
  | (name, item) :: rest => (name, value item) :: fieldValues rest

end

def valueList (items : List Value) : Document := .array (values items)

def parameters (parameters : List Parameter) : Document :=
  .ofList (fun parameter => texts [parameter.name, parameter.type.text]) parameters

def variableView (entry : Variable) : Document :=
  .object [("guid", guid entry.guid), ("name", .string entry.name), ("type", .string entry.type.text),
    ("value", value entry.value)]

def kind (kind : NodeKind) : Document :=
  match kind.reference? with
  | some (.live id) =>
    .tag "type" kind.name [("variable", .object [("by", .string "live"), ("guid", guid id)])]
  | _ => optional id kind.toDocument?

def progress (kind : NodeKind) (progress : Progress) : Document :=
  match kind, progress with
  | .sequence, .stepping next => .ofNat next
  | .sequence, _ => .ofNat 0
  | .forLoop, .counting index last => .array [.int index.toInt, .int last.toInt]
  | .forEach, .walking items index => numbers [index, items.length]
  | .whileLoop, .looping => .bool true
  | .whileLoop, _ => .bool false
  | _, _ => .null

def inputPin (pin : InputPin) : Document :=
  .object [("name", .string pin.name), ("type", .string pin.type.text), ("literal", value pin.literal),
    ("from", optional (fun source => numbers [source.node, source.parameter]) pin.source),
    ("slot", optional .ofNat pin.slot), ("literal_only", .bool pin.literalOnly)]

def execPin (pin : ExecPin) : Document :=
  .object [("name", .string pin.name),
    ("to", optional (fun target => numbers [target.node, target.pin]) pin.target),
    ("case", optional (fun case => .array [.string case.type.text, value case.value]) pin.case)]

def coordinate (x : Float32) : String := floatBits (Number.ofSingle x)

def node (node : Node) : Document :=
  .object [("kind", kind node.kind), ("name", .string node.name), ("state", progress node.kind node.progress),
    ("implicit", .bool node.isImplicit),
    ("pos", texts [coordinate node.position.x, coordinate node.position.y]),
    ("exec_in", texts (node.execIn.map (·.name))), ("exec_out", .ofList execPin node.execOut),
    ("in", .ofList inputPin node.inputs),
    ("out", .ofList (fun pin => texts [pin.name, pin.type.text]) node.outputs), ("base", .ofNat node.base)]

def abilities (name : String) (node : Node) : Document :=
  let place {α : Type} (label : α → String) (pins : List α) : Document :=
    optional .ofNat (pins.findIdx? fun pin => label pin == name)
  .object [("type", .string node.kind.name), ("copy", .bool node.isCopyable), ("delete", .bool node.isDeletable),
    ("add_in", .bool node.takesInputs), ("add_out", .bool node.takesOutputs),
    ("pins", .array [place InputPin.name node.inputs, place OutputPin.name node.outputs,
      place ExecPin.name node.execIn, place ExecPin.name node.execOut]),
    ("ref", optional guid (node.kind.reference?.bind Reference.guid?))]

def graph (graph : Graph) : Document :=
  .object [("nodes", .ofList node graph.nodes), ("locals", .ofList variableView graph.locals),
    ("size", optional .ofNat graph.size), ("stack", valueList graph.stack),
    ("return_points", numbers graph.returnPoints.reverse)]

def body (body : Body) : List (String × Document) :=
  [("inputs", parameters body.inputs), ("outputs", parameters body.outputs), ("graph", graph body.graph)]

def script (script : Script) : Document :=
  let receiver (event : EventGraph) : Document :=
    match event.event with
    | .ok (name, component) => .array [.string name, optional guid component]
    | .error cause => Report.scriptError cause
  .object [("name", .string script.name), ("initialized", .bool script.isInitialized),
    ("node_count", .ofNat script.nodeCount), ("interfaces", texts script.interfaces),
    ("variables", .ofList variableView script.vars),
    ("events", .ofList (fun event => .object [("guid", guid event.guid),
      ("subscribed", .bool event.subscription.isSome), ("event", receiver event), ("graph", graph event.graph)])
      script.eventGraphs),
    ("interface_graphs", .ofList (fun function => .object
      ([("interface", .string function.interface), ("name", .string function.name)] ++ body function.body))
      script.interfaceFunctions),
    ("functions", .ofList (fun function => .object
      ([("guid", guid function.guid), ("name", .string function.name)] ++ body function.body)) script.functions)]

def events (entity : Entity) (scope : Option Guid) (entries : List EventEntry) : Document :=
  .object <| entries.filterMap fun entry => (entity.event? scope entry.name).map fun event =>
    (entry.name, .object [("params", parameters event.parameters), ("subscribers", .ofNat event.handlers.length)])

def component (entity : Entity) (entry : ComponentEntry) (thing : Thing) : Document :=
  let property (name : String) : Option (String × Document) :=
    (Fields.find? name thing.properties).map fun found => (name, value found)
  .object [("type", .string thing.typeName), ("guid", optional guid entry.guid),
    ("properties", .object (entry.properties.filterMap fun entry => property entry.1)),
    ("events", events entity (some thing.guid) entry.events)]

def entity (entry : EntityEntry) (entity : Entity) : Document :=
  .object [("type", .string entity.self.typeName), ("guid", optional guid entry.guid),
    ("properties", .object (fieldValues entity.self.properties)), ("events", events entity none entry.events),
    ("components", .array (List.zipWith (component entity) entry.components entity.components))]

end Inspect

end Patchbay
