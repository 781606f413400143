import Patchbay.Error
import Patchbay.Node

set_option autoImplicit false

namespace Patchbay

/-- Nodes that refer to each other by index, with the variables of the graph. The stack holds first
the variables and then the outputs of the nodes; `size` is its length after a compilation that no
edit has undone. -/
structure Graph where
  nodes : List Node
  locals : List Variable
  stack : List Value
  returnPoints : List Nat
  size : Option Nat

namespace Graph

def empty : Graph := ⟨[], [], [], [], none⟩

def isCompiled (graph : Graph) : Bool := graph.size.isSome

def uncompile (graph : Graph) : Graph := { graph with size := none }

def modifyNode (index : Nat) (change : Node → Node) (graph : Graph) : Graph :=
  { graph with nodes := graph.nodes.modify index change }

def node? (index : Nat) (graph : Graph) : Except ScriptError Node :=
  match graph.nodes[index]? with
  | some node => .ok node
  | none => .error (.nodeNotFound index)

end Graph

def pin? {α : Type} (node pin : Nat) (pins : List α) : Except ScriptError α :=
  match pins[pin]? with
  | some found => .ok found
  | none => .error (.pinNotFound node pin)

end Patchbay
