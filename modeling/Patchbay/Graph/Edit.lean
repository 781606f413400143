import Patchbay.Graph.Prune
import Patchbay.Node.Edit

set_option autoImplicit false

namespace Patchbay

def shiftIndex? (removed index : Nat) : Option Nat :=
  if index = removed then none else if removed < index then some (index - 1) else some index

def PinSource.renumber? (rename : Nat → Option Nat) (source : PinSource) : Option PinSource :=
  (rename source.node).map fun node => { source with node := node }

def ExecTarget.renumber? (rename : Nat → Option Nat) (target : ExecTarget) : Option ExecTarget :=
  (rename target.node).map fun node => { target with node := node }

/-- Renumber the connections of a node; those to a node without a number are dropped. -/
def Node.renumber (rename : Nat → Option Nat) (node : Node) : Node :=
  { node with
    inputs := node.inputs.map fun pin => { pin with source := pin.source.bind (·.renumber? rename) }
    execOut := node.execOut.map fun pin => { pin with target := pin.target.bind (·.renumber? rename) } }

namespace Graph

def addNode (node : Node) (graph : Graph) : Graph :=
  { graph with nodes := graph.nodes ++ [node] }.uncompile

def addLocal (entry : Variable) (graph : Graph) : Graph :=
  { graph with locals := graph.locals ++ [entry] }.uncompile

def eraseNode (index : Nat) (graph : Graph) : Graph :=
  { graph with
    nodes := (graph.nodes.eraseIdx index).map (Node.renumber (shiftIndex? index))
    returnPoints := [] }.uncompile

def replaceNode (index : Nat) (change : Node × List NodeAction) (graph : Graph) : Graph :=
  (graph.modifyNode index fun _ => change.1).settle change.2

def checkConnection (source output target input : Nat) (graph : Graph) : Except ScriptError (PinType × Node) := do
  if source = target then .error (.invalidConnection (.feedsItself source))
  else
    let sourceNode ← graph.node? source
    let outputPin ← pin? source output sourceNode.outputs
    let targetNode ← graph.node? target
    let inputPin ← pin? target input targetNode.inputs
    if inputPin.literalOnly then .error (.invalidConnection (.literalOnly inputPin.name target))
    else if !inputPin.type.assignable outputPin.type then
      .error (.incompatiblePinTypes outputPin.type inputPin.type)
    else .ok (outputPin.type, targetNode)

def pinAt {α : Type} (pins : Node → List α) (index pin : Nat) (graph : Graph) : Except ScriptError (Node × α) := do
  let node ← graph.node? index
  return (node, ← pin? index pin (pins node))

def checkEntrance (target input : Nat) (graph : Graph) : Except ScriptError Unit := do
  let node ← graph.node? target
  if node.isImplicit then .error (.invalidConnection (.implicitTarget target))
  else if node.execIn.length ≤ input then .error (.pinNotFound target input)
  else .ok ()

end Graph

/-- A change to a graph that may be refused. It gives the graph that is left in either case. -/
abbrev Edit (α : Type) := Graph → Except ScriptError α × Graph

namespace Edit

def after {α β : Type} (look : Graph → Except ScriptError α) (edit : α → Edit β) : Edit β := fun graph =>
  match look graph with
  | .error cause => (.error cause, graph)
  | .ok found => edit found graph

def removeNode (index : Nat) : Edit Node :=
  after (·.node? index) fun node graph =>
    if node.isDeletable then (.ok node, graph.eraseNode index) else (.error (.nodeNotDeletable index), graph)

def connect (source output target input : Nat) : Edit (List NodeAction) :=
  after (·.checkConnection source output target input) fun (type, node) graph =>
    let connected :=
      { node with inputs := node.inputs.modify input fun pin => { pin with source := some ⟨source, output⟩ } }
    let change := connected.connectionChanged input (some type)
    (.ok change.2, (graph.replaceNode target change).uncompile)

def disconnect (target input : Nat) : Edit (List NodeAction) :=
  after (·.pinAt Node.inputs target input) fun (node, pin) graph =>
    if pin.source.isNone then (.ok [], graph)
    else
      let change := { node with inputs := node.inputs.modify input (·.detach) }.connectionChanged input none
      (.ok change.2, (graph.replaceNode target change).uncompile)

def setTarget (source output : Nat) (target : Option ExecTarget) : Edit Unit :=
  after (·.pinAt Node.execOut source output) fun (node, _) graph =>
    let changed := { node with execOut := node.execOut.modify output fun pin => { pin with target := target } }
    (.ok (), (graph.modifyNode source fun _ => changed).uncompile)

/-- Let control go on at an in-pin. An out-pin has one target; a new one replaces it. -/
def connectExec (source output target input : Nat) : Edit Unit :=
  after (·.checkEntrance target input) fun () => setTarget source output (some ⟨target, input⟩)

def disconnectExec (source output : Nat) : Edit Unit := setTarget source output none

def setLiteral (index input : Nat) (literal : Value) : Edit (List NodeAction) :=
  after (·.pinAt Node.inputs index input) fun (node, _) graph =>
    let changed := { node with inputs := node.inputs.modify input fun pin => { pin with literal := literal } }
    let change := changed.literalChanged input
    let next := graph.replaceNode index change
    (.ok change.2, if change.2.isEmpty then next else next.uncompile)

def setCase (index output : Nat) (value : Value) : Edit Unit :=
  after (·.pinAt Node.execOut index output) fun (_, pin) graph =>
    match pin.case with
    | none => (.error (.pinNotFound index output), graph)
    | some case =>
      let changed := { pin with case := some { case with value := case.type.coerce value } }
      (.ok (), graph.modifyNode index fun node => { node with execOut := node.execOut.modify output fun _ => changed })

def growNode (grow : Node → Node × List NodeAction) (index : Nat) : Edit (List NodeAction) :=
  after (·.node? index) fun node graph =>
    let change := grow node
    let next := graph.modifyNode index fun _ => change.1
    (.ok change.2, if change.2.isEmpty then next else next.uncompile)

def addInput (index : Nat) : Edit (List NodeAction) := growNode Node.addInput index

def addOutput (index : Nat) : Edit (List NodeAction) := growNode Node.addOutput index

/-- The answer of an edit and the graph that it leaves. A refused edit leaves the graph as it was, so
that none is handed back. -/
def commit {α : Type} (edit : Edit α) (graph : Graph) : Except ScriptError (α × Graph) :=
  match edit graph with
  | (.ok answer, next) => .ok (answer, next)
  | (.error cause, _) => .error cause

def commitQuiet (edit : Edit Unit) (graph : Graph) : Except ScriptError Graph := (edit.commit graph).map (·.2)

end Edit

namespace Graph

def removeNode (index : Nat) : Graph → Except ScriptError (Node × Graph) := (Edit.removeNode index).commit

def connect (source output target input : Nat) : Graph → Except ScriptError (List NodeAction × Graph) :=
  (Edit.connect source output target input).commit

def disconnect (target input : Nat) : Graph → Except ScriptError (List NodeAction × Graph) :=
  (Edit.disconnect target input).commit

def connectExec (source output target input : Nat) : Graph → Except ScriptError Graph :=
  (Edit.connectExec source output target input).commitQuiet

def disconnectExec (source output : Nat) : Graph → Except ScriptError Graph :=
  (Edit.disconnectExec source output).commitQuiet

def setLiteral (index input : Nat) (literal : Value) : Graph → Except ScriptError (List NodeAction × Graph) :=
  (Edit.setLiteral index input literal).commit

def setCase (index output : Nat) (value : Value) : Graph → Except ScriptError Graph :=
  (Edit.setCase index output value).commitQuiet

def addInput (index : Nat) : Graph → Except ScriptError (List NodeAction × Graph) := (Edit.addInput index).commit

def addOutput (index : Nat) : Graph → Except ScriptError (List NodeAction × Graph) := (Edit.addOutput index).commit

/-- Reshape a node from outside. The graph counts as changed in any case, and connections are left
as they are. -/
def reshapeNode (index : Nat) (change : Node → Node × List NodeAction) (graph : Graph) :
    Option (List NodeAction) × Graph :=
  match graph.nodes[index]? with
  | none => (none, graph.uncompile)
  | some node =>
    let changed := change node
    (some changed.2, (graph.modifyNode index fun _ => changed.1).uncompile)

end Graph

end Patchbay
