import Patchbay.PinType

set_option autoImplicit false

namespace Patchbay

structure PinSource where
  node : Nat
  parameter : Nat
deriving DecidableEq

structure ExecTarget where
  node : Nat
  pin : Nat
deriving DecidableEq

structure SwitchCase where
  type : PinType
  value : Value

/-- A value matches if it casts to the type of the case and is then the value of the case. -/
def SwitchCase.accepts (case : SwitchCase) (value : Value) : Bool :=
  match case.type.cast? value with
  | some converted => converted.same case.value
  | none => false

/-- An input of a node. The literal counts while nothing is connected, and `slot` is the place of the
connected output on the stack. -/
structure InputPin where
  name : String
  type : PinType
  literal : Value
  source : Option PinSource
  slot : Option Nat
  literalOnly : Bool

namespace InputPin

def fresh (name : String) (type : PinType) : InputPin :=
  ⟨name, type, type.defaultValue, none, none, false⟩

def setting (name : String) (type : PinType) (literal : Value) : InputPin :=
  ⟨name, type, literal, none, none, true⟩

def detach (pin : InputPin) : InputPin := { pin with source := none, slot := none }

end InputPin

structure OutputPin where
  name : String
  type : PinType

/-- A pin that control goes through. Only the pins of a switch have a case. -/
structure ExecPin where
  name : String
  target : Option ExecTarget
  case : Option SwitchCase

def ExecPin.fresh (name : String) : ExecPin := ⟨name, none, none⟩

end Patchbay
