import Patchbay.Pin
import Patchbay.Variable

set_option autoImplicit false

namespace Patchbay

inductive NodeKind where
  | functionEntry
  | functionReturn
  | receiveEvent (event : String) (component : Option Guid)
  | branch
  | sequence
  | forLoop
  | forEach
  | whileLoop
  | switch
  | cast (target : PinType)
  | implicitCast (target : PinType)
  | getVariable (reference : Reference)
  | setVariable (reference : Reference)
  | getMember (member : String)
  | setMember (member : String)
  | selfReference
  | getComponent (component : Guid)
  | makeArray
  | callNative (key : String) (isPure : Bool)
  | callFunction (function : Guid)
deriving DecidableEq

namespace NodeKind

def name : NodeKind → String
  | .functionEntry => "FunctionEntry"
  | .functionReturn => "FunctionReturn"
  | .receiveEvent _ _ => "ReceiveEvent"
  | .branch => "Branch"
  | .sequence => "Sequence"
  | .forLoop => "ForLoop"
  | .forEach => "ForEach"
  | .whileLoop => "WhileLoop"
  | .switch => "Switch"
  | .cast _ => "Cast"
  | .implicitCast _ => "ImplicitCast"
  | .getVariable _ => "GetVariable"
  | .setVariable _ => "SetVariable"
  | .getMember _ => "GetMember"
  | .setMember _ => "SetMember"
  | .selfReference => "SelfReference"
  | .getComponent _ => "GetComponent"
  | .makeArray => "MakeArray"
  | .callNative _ _ => "CallNative"
  | .callFunction _ => "CallFunction"

def reference? : NodeKind → Option Reference
  | .getVariable reference | .setVariable reference => some reference
  | _ => none

def withReference (reference : Reference) : NodeKind → NodeKind
  | .getVariable _ => .getVariable reference
  | .setVariable _ => .setVariable reference
  | kind => kind

def isStructural : NodeKind → Bool
  | .functionEntry | .functionReturn | .receiveEvent _ _ => true
  | _ => false

end NodeKind

inductive Progress where
  | idle
  | stepping (next : Nat)
  | counting (index last : Int64)
  | walking (items : List Value) (index : Nat)
  | looping

structure Position where
  x : Float32
  y : Float32

/-- A node with its pins. `base` is the place of its first output on the stack. -/
structure Node where
  kind : NodeKind
  name : String
  position : Position
  execIn : List ExecPin
  execOut : List ExecPin
  inputs : List InputPin
  outputs : List OutputPin
  base : Nat
  progress : Progress

inductive PinRef where
  | input (index : Nat)
  | output (index : Nat)
  | execIn (index : Nat)
  | execOut (index : Nat)
deriving DecidableEq

inductive NodeAction where
  | pinTypeChanged (pin : PinRef) (type : PinType)
  | pinRenamed (pin : PinRef) (name : String)
  | nodeRenamed (name : String)
  | pinInserted (pin : PinRef)
  | pinRemoved (pin : PinRef)
deriving DecidableEq

def NodeAction.reshapes : NodeAction → Bool
  | .pinTypeChanged _ _ | .pinRemoved _ => true
  | _ => false

namespace Node

def origin : Position := ⟨Float32.ofBits 0, Float32.ofBits 0⟩

def bare (kind : NodeKind) (name : String) : Node := ⟨kind, name, origin, [], [], [], [], 0, .idle⟩

/-- A node without execution pins runs when its outputs are read. -/
def isImplicit (node : Node) : Bool := node.execIn.isEmpty && node.execOut.isEmpty

def isCopyable (node : Node) : Bool := !node.kind.isStructural

def isDeletable (node : Node) : Bool := !node.kind.isStructural

def takesInputs (node : Node) : Bool := node.kind == .makeArray

def takesOutputs (node : Node) : Bool := node.kind == .sequence || node.kind == .switch

def placedAt (x y : Float32) (node : Node) : Node := { node with position := ⟨x, y⟩ }

def input (inputs : List Value) (index : Nat) : Value := (inputs[index]?).getD .null

end Node

end Patchbay
