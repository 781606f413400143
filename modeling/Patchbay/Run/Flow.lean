import Patchbay.Node

set_option autoImplicit false

namespace Patchbay

/-- How control comes to a node: through an in-pin, back from the branch it started, or because its
output is read. -/
inductive Activation where
  | entered (pin : Nat)
  | resumed
  | pulled
deriving DecidableEq

/-- What a node does to the return points: the nodes that control comes back to. -/
inductive PointChange where
  | keep
  | register
  | release
  | clear
deriving DecidableEq

/-- Take a node off the return points, with all that were registered after it. Innermost first. -/
def releasePoint (index : Nat) (points : List Nat) : List Nat :=
  if points.contains index then (points.dropWhile (· != index)).drop 1 else points

def PointChange.apply (index : Nat) (points : List Nat) : PointChange → List Nat
  | .keep => points
  | .register => index :: releasePoint index points
  | .release => releasePoint index points
  | .clear => []

/-- What a node does that looks at nothing but itself: its outputs, the out-pin that control leaves by,
its progress, and its return point. -/
structure Effect where
  outputs : List Value
  next : Option Nat
  progress : Progress
  points : PointChange

namespace Effect

def executePin : Nat := 0

def loopPin : Nat := 0

def donePin : Nat := 1

def plain (outputs : List Value) (next : Option Nat) : Effect := ⟨outputs, next, .idle, .keep⟩

def branch (inputs : List Value) : Effect :=
  plain [] (some (if (Node.input inputs 0).bool?.getD false then 0 else 1))

def sequence (count : Nat) (activation : Activation) (progress : Progress) : Effect :=
  let next := match activation, progress with
    | .entered _, _ => 0
    | _, .stepping next => next
    | _, _ => 0
  let points := match activation with
    | .entered _ => .register
    | _ => .keep
  if next < count then ⟨[], some next, .stepping (next + 1), points⟩ else ⟨[], none, .stepping next, .release⟩

/-- Bounds of a counting loop: its next index and the last one. An index that cannot grow ends it. -/
def forLoopState (activation : Activation) (progress : Progress) (inputs : List Value) : Option (Int64 × Int64) :=
  match activation, progress with
  | .entered 0, _ => some ((Node.input inputs 0).int?.getD 0, (Node.input inputs 1).int?.getD 0)
  | .entered _, _ => none
  | .resumed, .counting index last => if index = Int64.maxValue then none else some (index + 1, last)
  | .pulled, .counting index last => some (index, last)
  | _, _ => none

def entryPoints : Activation → PointChange
  | .entered 0 => .register
  | _ => .keep

def forLoop (activation : Activation) (progress : Progress) (inputs : List Value) : Effect :=
  match forLoopState activation progress inputs with
  | some (index, last) =>
    if index ≤ last then ⟨[.int index], some loopPin, .counting index last, entryPoints activation⟩
    else ⟨[.int (-1)], some donePin, .idle, .release⟩
  | none => ⟨[.int (-1)], some donePin, .idle, .release⟩

def forEachState (activation : Activation) (progress : Progress) (inputs : List Value) : Option (List Value × Nat) :=
  match activation, progress with
  | .entered 0, _ => some ((Node.input inputs 0).items?.getD [], 0)
  | .entered _, _ => none
  | .resumed, .walking items index => some (items, index + 1)
  | .pulled, .walking items index => some (items, index)
  | _, _ => none

def forEach (activation : Activation) (progress : Progress) (inputs : List Value) : Effect :=
  match forEachState activation progress inputs with
  | some (items, index) =>
    match items[index]? with
    | some item =>
      ⟨[item, .int (Int64.ofNat index)], some loopPin, .walking items index, entryPoints activation⟩
    | none => ⟨[.null, .int (-1)], some donePin, .idle, .release⟩
  | none => ⟨[.null, .int (-1)], some donePin, .idle, .release⟩

def whileLoopActive (activation : Activation) (progress : Progress) : Bool :=
  match activation, progress with
  | .entered 0, _ => true
  | .entered _, _ => false
  | _, .looping => true
  | _, _ => false

def whileLoop (activation : Activation) (progress : Progress) (inputs : List Value) : Effect :=
  if whileLoopActive activation progress && (Node.input inputs 0).bool?.getD false then
    ⟨[], some loopPin, .looping, entryPoints activation⟩
  else ⟨[], some donePin, .idle, .release⟩

def switch (pins : List ExecPin) (inputs : List Value) : Effect :=
  let value := Node.input inputs 0
  let accepts (pin : ExecPin) : Bool := (pin.case.map (·.accepts value)).getD false
  plain [] (some ((pins.findIdx? accepts).getD 0))

def cast (target : PinType) (inputs : List Value) : Effect :=
  match target.cast? (Node.input inputs 0) with
  | some value => plain [value] (some 0)
  | none => plain [.null] (some 1)

def implicitCast (target : PinType) (inputs : List Value) : Effect :=
  match target.cast? (Node.input inputs 0) with
  | some value => plain [value, .bool true] none
  | none => plain [.null, .bool false] none

/-- What a node does, unless it looks at variables, at the owner, or calls something. -/
def ofNode? (node : Node) (activation : Activation) (progress : Progress) (arguments inputs : List Value) :
    Option Effect :=
  match node.kind with
  | .functionEntry | .receiveEvent _ _ => some (plain arguments (some 0))
  | .functionReturn => some ⟨[], none, .idle, .clear⟩
  | .branch => some (branch inputs)
  | .sequence => some (sequence node.execOut.length activation progress)
  | .forLoop => some (forLoop activation progress inputs)
  | .forEach => some (forEach activation progress inputs)
  | .whileLoop => some (whileLoop activation progress inputs)
  | .switch => some (switch node.execOut inputs)
  | .cast target => some (cast target inputs)
  | .implicitCast target => some (implicitCast target inputs)
  | .makeArray => some (plain [.array inputs] none)
  | _ => none

end Effect

end Patchbay
