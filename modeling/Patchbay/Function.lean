import Patchbay.Graph.References
import Patchbay.Node.Make

set_option autoImplicit false

namespace Patchbay

/-- A graph that is called: node 0 gives the inputs of the call and node 1 takes its outputs. -/
structure Body where
  graph : Graph
  inputs : List Parameter
  outputs : List Parameter

structure Function where
  guid : Guid
  name : String
  body : Body

structure InterfaceFunction where
  interface : String
  name : String
  body : Body

def entryNode : Nat := 0

def returnNode : Nat := 1

def expectKind (index : Nat) (kind : NodeKind) (graph : Graph) : Except ScriptError Unit :=
  match graph.nodes[index]? with
  | none => .error (.unexpectedNode index kind.name none)
  | some node => if node.kind = kind then .ok () else .error (.unexpectedNode index kind.name (some node.kind.name))

namespace Body

def fresh (inputs outputs : List Parameter) : Body :=
  let graph := Graph.empty.addNode (Node.functionEntry inputs)
  let returned := (Node.functionReturn outputs).placedAt (Float32.ofBits 0x43c80000) (Float32.ofBits 0)
  ⟨graph.addNode returned, inputs, outputs⟩

def checkStructure (body : Body) : Except ScriptError Unit := do
  expectKind entryNode .functionEntry body.graph
  expectKind returnNode .functionReturn body.graph

def rebuild (body : Body) : Except ScriptError (List NodeAction × List NodeAction × Body) := do
  body.checkStructure
  let (entry, graph) := body.graph.reshapeNode entryNode (·.syncOutputs body.inputs)
  let (returned, graph) := graph.reshapeNode returnNode (·.syncInputs body.outputs)
  return (entry.getD [], returned.getD [], { body with graph := graph.prune.1 })

/-- Exactly one value for every output: surplus values are cut and missing ones are null. -/
def fitOutputs (body : Body) (values : List Value) : List Value :=
  values.take body.outputs.length ++ List.replicate (body.outputs.length - values.length) .null

end Body

/-- What stands in the list of functions while a function is running. -/
def Function.placeholder : Function := ⟨Guid.zero, "", Body.fresh [] []⟩

structure Rebuilt where
  function : Guid
  inputs : List Parameter
  outputs : List Parameter
  entryActions : List NodeAction
  returnActions : List NodeAction

def Function.rebuild (function : Function) : Except ScriptError (Rebuilt × Function) := do
  let (entry, returned, body) ← function.body.rebuild
  return (⟨function.guid, body.inputs, body.outputs, entry, returned⟩, { function with body := body })

end Patchbay
