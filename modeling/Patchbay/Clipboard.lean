import Patchbay.Document.Printer
import Patchbay.Document.Reader
import Patchbay.Script
import Patchbay.Storage.Graph

set_option autoImplicit false

namespace Patchbay

/-- Number of each chosen node after the copy: its position among them, from `base` on. -/
def renumbering (base : Nat) (indices : List Nat) (index : Nat) : Option Nat :=
  (indices.findIdx? (· == index)).map (base + ·)

def Node.rewire (rename : Nat → Option Nat) (node : Node) : Node :=
  let renumbered := node.renumber rename
  { renumbered with inputs := renumbered.inputs.map fun pin => { pin with slot := none } }

def keepResolved (convert : Node → Option Node) (nodes : List (Nat × Node)) : List (Nat × Node) :=
  nodes.filterMap fun (index, node) => (convert node).map (index, ·)

def Node.convertVariable? (locals globals : List Variable) (form : ReferenceForm) (node : Node) : Option Node :=
  match node.kind.reference? with
  | none => some node
  | some reference => (reference.convert? locals globals form).map fun converted =>
    { node with kind := node.kind.withReference converted }

def Position.shift (offset position : Position) : Position := ⟨position.x + offset.x, position.y + offset.y⟩

namespace Graph

/-- The chosen nodes that may be copied, in order and each once. -/
def selectable (selection : List Nat) (graph : Graph) : List (Nat × Node) :=
  let picked := selection.filter fun index => (graph.nodes[index]?).any Node.isCopyable
  (sorted picked).eraseReps.filterMap fun index => (graph.nodes[index]?).map (index, ·)

/-- Nodes of a copy: variables are named by identifier, and nodes whose variable is gone are left out. -/
def copiedNodes (selection : List Nat) (globals : List Variable) (graph : Graph) : List Node :=
  let kept := keepResolved (·.convertVariable? graph.locals globals .byGuid) (graph.selectable selection)
  kept.map fun entry => entry.2.rewire (renumbering 0 (kept.map (·.1)))

def clipboardDocument? (nodes : List Node) : Option Document := do
  return .object [("nodes", .array (← nodes.mapM Node.toDocument?))]

/-- Copy nodes into the text that `write` makes of their document. -/
def copyNodesWith (write : Document → String) (selection : List Nat) (globals : List Variable) (graph : Graph) :
    Except ScriptError String :=
  match clipboardDocument? (graph.copiedNodes selection globals) with
  | some document => .ok (write document)
  | none => .error .serialization

def copyNodes (selection : List Nat) (globals : List Variable) (graph : Graph) : Except ScriptError String :=
  graph.copyNodesWith Document.compact selection globals

def clipboardNodes? (read : String → Option Document) (text : String) : Option (List Node) := do
  let document ← read text
  (← document.record? ["nodes"]).required "nodes" (Document.list? Node.ofDocument?)

def adoptNode? (globals : List Variable) (functions : List Guid) (locals : List Variable) (node : Node) : Option Node :=
  match node.kind with
  | .callFunction function => if functions.contains function then some node else none
  | _ => node.convertVariable? locals globals .live

/-- Add nodes of a copy that go with their indices in it, at an offset. Connections that do not fit
are dropped. -/
def adoptNodes (kept : List (Nat × Node)) (offset : Position) (graph : Graph) : Graph :=
  let rename := renumbering graph.nodes.length (kept.map (·.1))
  let place (entry : Nat × Node) : Node :=
    let node := entry.2.rewire rename
    { node with position := node.position.shift offset }
  (kept.foldl (fun graph entry => graph.addNode (place entry)) graph).prune.1

end Graph

/-- Add copied nodes at an offset; the answer is their indices. Nodes whose variable or function is
unknown here are left out. -/
def Edit.pasteNodesWith (read : String → Option Document) (globals : List Variable) (functions : List Guid) (text : String)
    (offset : Position) : Edit (List Nat) := fun graph =>
  match Graph.clipboardNodes? read text with
  | none => (.error .serialization, graph)
  | some nodes =>
    let kept := keepResolved (Graph.adoptNode? globals functions graph.locals) ((List.range nodes.length).zip nodes)
    (.ok ((List.range kept.length).map (graph.nodes.length + ·)), graph.adoptNodes kept offset)

def Edit.pasteNodes (globals : List Variable) (functions : List Guid) (text : String) (offset : Position) :
    Edit (List Nat) := Edit.pasteNodesWith Document.parse? globals functions text offset

namespace Graph

def pasteNodesWith (read : String → Option Document) (globals : List Variable) (functions : List Guid) (text : String)
    (offset : Position) : Graph → Except ScriptError (List Nat × Graph) :=
  (Edit.pasteNodesWith read globals functions text offset).commit

def pasteNodes (globals : List Variable) (functions : List Guid) (text : String) (offset : Position) :
    Graph → Except ScriptError (List Nat × Graph) := (Edit.pasteNodes globals functions text offset).commit

end Graph

namespace Script

def copyNodes (address : GraphAddress) (selection : List Nat) (script : Script) : Except ScriptError String :=
  match script.graph? address with
  | none => .error (.graphNotFound (.within address))
  | some graph => graph.copyNodes selection script.vars

def pasteNodes (address : GraphAddress) (text : String) (offset : Position) (script : Script) :
    Except ScriptError (List Nat × Script) := do
  match script.graph? address with
  | none => .error (.graphNotFound (.within address))
  | some graph =>
    let (indices, pasted) ← graph.pasteNodes script.vars script.functionIds text offset
    .ok (indices, script.modifyGraph address fun _ => pasted)

end Script

end Patchbay
