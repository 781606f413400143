import Patchbay.Graph.Edit

set_option autoImplicit false

namespace Patchbay

def Node.convertReference? (locals globals : List Variable) (functions : List Guid) (form : ReferenceForm)
    (node : Node) : Option Node :=
  match node.kind.reference? with
  | some reference =>
    (reference.convert? locals globals form).map fun converted =>
      { node with kind := node.kind.withReference converted }
  | none =>
    match node.kind with
    | .callFunction function => if functions.contains function then some node else none
    | _ => some node

namespace Graph

def staleNodes (globals : List Variable) (functions : List Guid) (form : ReferenceForm) (graph : Graph) : List Nat :=
  (List.range graph.nodes.length).filter fun index =>
    match graph.nodes[index]? with
    | some node => (node.convertReference? graph.locals globals functions form).isNone
    | none => false

/-- Name every variable in another form. Nodes whose variable or function is gone are removed, the
last one first, and counted. -/
def convertReferences (globals : List Variable) (functions : List Guid) (form : ReferenceForm) (graph : Graph) :
    Graph × Nat :=
  let stale := graph.staleNodes globals functions form
  let nodes := graph.nodes.map fun node => (node.convertReference? graph.locals globals functions form).getD node
  let converted := { graph with nodes := nodes }
  (stale.reverse.foldl (fun graph index => graph.eraseNode index) converted, stale.length)

def syncCalls (function : Guid) (inputs outputs : List Parameter) (graph : Graph) : Graph × Nat :=
  let isCall (node : Node) : Bool := node.kind == .callFunction function
  let calls := (graph.nodes.filter isCall).length
  let nodes := graph.nodes.map fun node =>
    if isCall node then ((node.syncInputs inputs).1.syncOutputs outputs).1 else node
  (if calls = 0 then graph else { graph with nodes := nodes }.prune.1.uncompile, calls)

end Graph

end Patchbay
