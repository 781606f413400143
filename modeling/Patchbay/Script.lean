import Patchbay.Function
import Patchbay.Run.Env

set_option autoImplicit false

namespace Patchbay

structure Subscription where
  entity : Nat
  component : Option Guid
  event : String
  id : Nat

structure EventGraph where
  guid : Guid
  graph : Graph
  subscription : Option Subscription

structure InterfaceSignature where
  name : String
  inputs : List Parameter
  outputs : List Parameter

structure InterfaceDefinition where
  name : String
  functions : List InterfaceSignature

/-- A script: its variables and all of its graphs. After its start it has an owner and limits. -/
structure Script where
  name : String
  vars : List Variable
  eventGraphs : List EventGraph
  interfaceFunctions : List InterfaceFunction
  functions : List Function
  interfaces : List String
  owner : Option Nat
  limits : Option Limits

def receiveNode : Nat := 0

namespace EventGraph

def fresh (guid : Guid) (event : String) (component : Option Guid) (parameters : List Parameter) : EventGraph :=
  ⟨guid, Graph.empty.addNode (Node.receiveEvent event component parameters), none⟩

def event (graph : EventGraph) : Except ScriptError (String × Option Guid) :=
  match graph.graph.nodes[receiveNode]? with
  | none => .error (.unexpectedNode receiveNode "ReceiveEvent" none)
  | some node =>
    match node.kind with
    | .receiveEvent event component => .ok (event, component)
    | kind => .error (.unexpectedNode receiveNode "ReceiveEvent" (some kind.name))

def receiveOutputs (graph : EventGraph) : List OutputPin :=
  ((graph.graph.nodes[receiveNode]?).map (·.outputs)).getD []

def mapGraph (change : Graph → Graph) (graph : EventGraph) : EventGraph := { graph with graph := change graph.graph }

end EventGraph

def Body.mapGraph (change : Graph → Graph) (body : Body) : Body := { body with graph := change body.graph }

def Function.mapGraph (change : Graph → Graph) (function : Function) : Function :=
  { function with body := function.body.mapGraph change }

def InterfaceFunction.mapGraph (change : Graph → Graph) (function : InterfaceFunction) : InterfaceFunction :=
  { function with body := function.body.mapGraph change }

namespace Script

def empty (name : String) : Script := ⟨name, [], [], [], [], [], none, none⟩

def isInitialized (script : Script) : Bool := script.owner.isSome && script.limits.isSome

def graphs (script : Script) : List Graph :=
  script.eventGraphs.map (·.graph) ++ script.interfaceFunctions.map (·.body.graph)
    ++ script.functions.map (·.body.graph)

def mapGraphs (change : Graph → Graph) (script : Script) : Script :=
  { script with
    eventGraphs := script.eventGraphs.map (·.mapGraph change)
    interfaceFunctions := script.interfaceFunctions.map (·.mapGraph change)
    functions := script.functions.map (·.mapGraph change) }

def nodeCount (script : Script) : Nat := (script.graphs.flatMap (·.nodes)).length

def find? (name : String) (script : Script) : Option Variable := script.vars.find? (·.name == name)

def functionIds (script : Script) : List Guid := script.functions.map (·.guid)

def functionIndex? (guid : Guid) (script : Script) : Option Nat := script.functions.findIdx? (·.guid == guid)

def graph? (address : GraphAddress) (script : Script) : Option Graph :=
  match address with
  | .event index => (script.eventGraphs[index]?).map (·.graph)
  | .interface index => (script.interfaceFunctions[index]?).map (·.body.graph)
  | .function guid => (script.functions.find? (·.guid == guid)).map (·.body.graph)

def modifyGraph (address : GraphAddress) (change : Graph → Graph) (script : Script) : Script :=
  match address with
  | .event index => { script with eventGraphs := script.eventGraphs.modify index (·.mapGraph change) }
  | .interface index =>
    { script with interfaceFunctions := script.interfaceFunctions.modify index (·.mapGraph change) }
  | .function guid =>
    match script.functionIndex? guid with
    | some index => { script with functions := script.functions.modify index (·.mapGraph change) }
    | none => script

end Script

end Patchbay
