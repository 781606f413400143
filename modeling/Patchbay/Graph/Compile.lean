import Patchbay.Graph

set_option autoImplicit false

namespace Patchbay

/-- Give every node the place of its first output on the stack, from `next` on in order. Also the
place after the last. -/
def assignBases (next : Nat) : List Node → List Node × Nat
  | [] => ([], next)
  | node :: rest =>
    let (placed, size) := assignBases (next + node.outputs.length) rest
    ({ node with base := next } :: placed, size)

def slotOf? (nodes : List Node) (source : PinSource) : Option Nat :=
  match nodes[source.node]? with
  | none => none
  | some node => if source.parameter < node.outputs.length then some (node.base + source.parameter) else none

def resolveInputs (nodes : List Node) (index : Nat) : List InputPin → List InputPin × Option ScriptError
  | [] => ([], none)
  | pin :: rest =>
    match pin.source with
    | none =>
      let (pins, fault) := resolveInputs nodes index rest
      ({ pin with slot := none } :: pins, fault)
    | some source =>
      match slotOf? nodes source with
      | some slot =>
        let (pins, fault) := resolveInputs nodes index rest
        ({ pin with slot := some slot } :: pins, fault)
      | none =>
        (pin :: rest, some (.invalidConnection (.missingOutput pin.name index source.parameter source.node)))

def missingTarget? (nodes : List Node) (index : Nat) : List ExecPin → Option ScriptError
  | [] => none
  | pin :: rest =>
    match pin.target with
    | none => missingTarget? nodes index rest
    | some target =>
      let found := match nodes[target.node]? with
        | none => false
        | some node => decide (target.pin < node.execIn.length)
      if found then missingTarget? nodes index rest
      else some (.invalidConnection (.missingPin pin.name index target.pin target.node))

def resolveNodes (nodes : List Node) (index : Nat) : List Node → List Node × Option ScriptError
  | [] => ([], none)
  | node :: rest =>
    let (inputs, fault) := resolveInputs nodes index node.inputs
    let resolved := { node with inputs := inputs }
    match fault with
    | some error => (resolved :: rest, some error)
    | none =>
      match missingTarget? nodes index node.execOut with
      | some error => (resolved :: rest, some error)
      | none =>
        let (others, fault) := resolveNodes nodes (index + 1) rest
        (resolved :: others, fault)

namespace Graph

/-- Lay the outputs of all nodes out on one stack, after one place for every variable, and resolve
every connected input to its place. -/
def compile (graph : Graph) : Except ScriptError Unit × Graph :=
  let (placed, size) := assignBases graph.locals.length graph.nodes
  match resolveNodes placed 0 placed with
  | (nodes, none) => (.ok (), { graph with nodes := nodes, size := some size })
  | (nodes, some error) => (.error error, { graph with nodes := nodes, size := none })

def initialStack (locals : List Variable) (size : Nat) : List Value :=
  (locals.map (·.value)).take size ++ List.replicate (size - locals.length) .null

def prepare (graph : Graph) : Except ScriptError Unit × Graph :=
  match graph.size with
  | none => (.error .notCompiled, graph)
  | some size => (.ok (), { graph with stack := initialStack graph.locals size })

end Graph

end Patchbay
