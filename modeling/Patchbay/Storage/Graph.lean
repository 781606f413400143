import Patchbay.Graph
import Patchbay.Storage.Node

set_option autoImplicit false

namespace Patchbay.Graph

def toDocument? (graph : Graph) : Option Document := do
  let nodes ← graph.nodes.mapM Node.toDocument?
  let locals := if graph.locals.isEmpty then []
    else [("local_variables", Document.ofList Variable.toDocument graph.locals)]
  return .object (("nodes", .array nodes) :: locals)

def read (medium : Medium) (document : Document) : Option Graph := do
  let record ← document.record? ["nodes", "local_variables"]
  let nodes ← record.withDefault "nodes" [] (Document.list? (Node.read medium))
  let locals ← record.withDefault "local_variables" [] (Document.list? (Variable.read medium))
  return { empty with nodes := nodes, locals := locals }

def ofDocument? : Document → Option Graph := read .json

end Patchbay.Graph
