import Patchbay.Node

set_option autoImplicit false

namespace Patchbay

def castTypePin : Nat := 1

def switchValuePin : Nat := 0

namespace InputPin

/-- Bring a pin into line with a parameter. A new type brings its default literal. -/
def align (index : Nat) (parameter : Parameter) (pin : InputPin) : InputPin × List NodeAction :=
  let renamed := if pin.name = parameter.name then [] else [NodeAction.pinRenamed (.input index) parameter.name]
  if pin.type = parameter.type then ({ pin with name := parameter.name }, renamed)
  else
    ({ pin with name := parameter.name, type := parameter.type, literal := parameter.type.defaultValue },
      renamed ++ [.pinTypeChanged (.input index) parameter.type])

def alignAll (index : Nat) : List Parameter → List InputPin → List (InputPin × List NodeAction)
  | [], _ => []
  | parameter :: rest, [] =>
    (fresh parameter.name parameter.type, [.pinInserted (.input index)]) :: alignAll (index + 1) rest []
  | parameter :: rest, pin :: pins => pin.align index parameter :: alignAll (index + 1) rest pins

end InputPin

namespace OutputPin

def align (index : Nat) (parameter : Parameter) (pin : OutputPin) : OutputPin × List NodeAction :=
  let renamed := if pin.name = parameter.name then [] else [NodeAction.pinRenamed (.output index) parameter.name]
  let retyped := if pin.type = parameter.type then [] else [.pinTypeChanged (.output index) parameter.type]
  (⟨parameter.name, parameter.type⟩, renamed ++ retyped)

def alignAll (index : Nat) : List Parameter → List OutputPin → List (OutputPin × List NodeAction)
  | [], _ => []
  | parameter :: rest, [] =>
    (⟨parameter.name, parameter.type⟩, [.pinInserted (.output index)]) :: alignAll (index + 1) rest []
  | parameter :: rest, pin :: pins => pin.align index parameter :: alignAll (index + 1) rest pins

end OutputPin

def SwitchCase.retype (type : PinType) (case : SwitchCase) : SwitchCase :=
  ⟨type, (type.cast? case.value).getD type.defaultValue⟩

def surplus (kept count : Nat) : List Nat := ((List.range count).drop kept).reverse

namespace Node

def syncInputs (parameters : List Parameter) (node : Node) : Node × List NodeAction :=
  let removed := (surplus parameters.length node.inputs.length).map fun index => NodeAction.pinRemoved (.input index)
  let aligned := InputPin.alignAll 0 parameters node.inputs
  ({ node with inputs := aligned.map (·.1) }, removed ++ aligned.flatMap (·.2))

def syncOutputs (parameters : List Parameter) (node : Node) : Node × List NodeAction :=
  let removed := (surplus parameters.length node.outputs.length).map fun index => NodeAction.pinRemoved (.output index)
  let aligned := OutputPin.alignAll 0 parameters node.outputs
  ({ node with outputs := aligned.map (·.1) }, removed ++ aligned.flatMap (·.2))

def castTitle (target : PinType) : String := "Cast to " ++ target.text

def retarget (target : PinType) (node : Node) : Node × List NodeAction :=
  let renamed := NodeAction.nodeRenamed (castTitle target)
  match node.outputs with
  | [] => ({ node with name := castTitle target }, [renamed])
  | pin :: rest =>
    ({ node with name := castTitle target, outputs := { pin with type := target } :: rest },
      [.pinTypeChanged (.output 0) target, renamed])

def namedTarget? (node : Node) : Option PinType :=
  match node.inputs[castTypePin]? with
  | some pin => pin.literal.string?.bind PinType.parse?
  | none => none

def literalChanged (input : Nat) (node : Node) : Node × List NodeAction :=
  if input = castTypePin then
    match node.kind, node.namedTarget? with
    | .cast old, some target => if target = old then (node, []) else { node with kind := .cast target }.retarget target
    | .implicitCast old, some target =>
      if target = old then (node, []) else { node with kind := .implicitCast target }.retarget target
    | _, _ => (node, [])
  else (node, [])

def retypeSwitch (type : PinType) (node : Node) : Node × List NodeAction :=
  match node.inputs with
  | [] => (node, [])
  | pin :: rest =>
    if pin.type = type then (node, [])
    else
      ({ node with
          inputs := { pin with type := type, literal := type.defaultValue } :: rest
          execOut := node.execOut.map fun pin => { pin with case := pin.case.map (SwitchCase.retype type) } },
        [.pinTypeChanged (.input switchValuePin) type])

def connectionChanged (input : Nat) (source : Option PinType) (node : Node) : Node × List NodeAction :=
  if node.kind = .switch ∧ input = switchValuePin then node.retypeSwitch (source.getD .any) else (node, [])

def itemPin (index : Nat) : InputPin := .fresh ("Item " ++ toString index) .any

def thenPin (index : Nat) : ExecPin := .fresh ("Then " ++ toString index)

def casePin (index : Nat) (type : PinType) : ExecPin :=
  let number := index - 1
  let value := (type.cast? (.int (Int64.ofNat number))).getD type.defaultValue
  ⟨"Case " ++ toString number, none, some ⟨type, value⟩⟩

def switchType (node : Node) : PinType := ((node.inputs[switchValuePin]?).map (·.type)).getD .any

def addInput (node : Node) : Node × List NodeAction :=
  let index := node.inputs.length
  match node.kind with
  | .makeArray => ({ node with inputs := node.inputs ++ [itemPin index] }, [.pinInserted (.input index)])
  | _ => (node, [])

def addOutput (node : Node) : Node × List NodeAction :=
  let index := node.execOut.length
  match node.kind with
  | .sequence => ({ node with execOut := node.execOut ++ [thenPin index] }, [.pinInserted (.execOut index)])
  | .switch =>
    ({ node with execOut := node.execOut ++ [casePin index node.switchType] }, [.pinInserted (.execOut index)])
  | _ => (node, [])

end Node

end Patchbay
