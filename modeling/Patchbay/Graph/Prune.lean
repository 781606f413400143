import Patchbay.Graph

set_option autoImplicit false

namespace Patchbay

def InputPin.fits (nodes : List Node) (pin : InputPin) : Bool :=
  match pin.source with
  | none => true
  | some source =>
    match nodes[source.node]? with
    | none => false
    | some node =>
      match node.outputs[source.parameter]? with
      | none => false
      | some output => pin.type.assignable output.type

def ExecPin.fits (nodes : List Node) (pin : ExecPin) : Bool :=
  match pin.target with
  | none => true
  | some target =>
    match nodes[target.node]? with
    | none => false
    | some node => target.pin < node.execIn.length

def InputPin.prune (nodes : List Node) (pin : InputPin) : InputPin := if pin.fits nodes then pin else pin.detach

def ExecPin.prune (nodes : List Node) (pin : ExecPin) : ExecPin :=
  if pin.fits nodes then pin else { pin with target := none }

namespace Node

def prune (nodes : List Node) (node : Node) : Node :=
  { node with inputs := node.inputs.map (·.prune nodes), execOut := node.execOut.map (·.prune nodes) }

def misfits (nodes : List Node) (node : Node) : Nat :=
  (node.inputs.filter fun pin => !pin.fits nodes).length + (node.execOut.filter fun pin => !pin.fits nodes).length

end Node

namespace Graph

def misfits (graph : Graph) : Nat := (graph.nodes.map fun node => node.misfits graph.nodes).foldr (· + ·) 0

/-- Drop every connection whose other end is gone or does not fit, and count them. Types and in-pins
stay as they are, so one pass is enough. -/
def prune (graph : Graph) : Graph × Nat :=
  let count := graph.misfits
  let pruned := { graph with nodes := graph.nodes.map (·.prune graph.nodes) }
  (if count = 0 then pruned else pruned.uncompile, count)

def settle (actions : List NodeAction) (graph : Graph) : Graph :=
  if actions.any (·.reshapes) then graph.prune.1 else graph

end Graph

end Patchbay
