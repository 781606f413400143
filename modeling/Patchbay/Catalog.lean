import Patchbay.Error
import Patchbay.Fields

set_option autoImplicit false

namespace Patchbay

structure FunctionInfo where
  key : String
  name : String
  category : String
  isPure : Bool
  description : Option String
  inputs : List Parameter
  outputs : List Parameter

/-- A native function over a state `σ` of the world outside. It reads its arguments in order and
gives one value for every output. -/
structure Native (σ : Type) where
  info : FunctionInfo
  call : List Value → σ → Except InvokeError (List Value) × σ

structure Catalog (σ : Type) where
  natives : Fields (Native σ)

namespace Catalog

variable {σ : Type}

def empty : Catalog σ := ⟨[]⟩

def register (native : Native σ) (catalog : Catalog σ) : Catalog σ :=
  ⟨Fields.insert native.info.key native catalog.natives⟩

def registerAll (natives : List (Native σ)) (catalog : Catalog σ) : Catalog σ :=
  natives.foldl (fun catalog native => catalog.register native) catalog

def find? (key : String) (catalog : Catalog σ) : Option (Native σ) := Fields.find? key catalog.natives

def info? (key : String) (catalog : Catalog σ) : Option FunctionInfo := (catalog.find? key).map (·.info)

def keys (catalog : Catalog σ) : List String := catalog.natives.map (·.1)

def infos (catalog : Catalog σ) : List FunctionInfo := catalog.natives.map (·.2.info)

def inCategory (category : String) (catalog : Catalog σ) : List FunctionInfo :=
  catalog.infos.filter (·.category == category)

def categories (catalog : Catalog σ) : List String :=
  (Fields.ofList (catalog.infos.map fun info => (info.category, ()))).map (·.1)

def invoke (catalog : Catalog σ) (key : String) (arguments : List Value) (state : σ) :
    Except ScriptError (List Value) × σ :=
  match catalog.find? key with
  | none => (.error (.unknownFunction key), state)
  | some native =>
    if arguments.length ≠ native.info.inputs.length then
      (.error (.parameterCountMismatch native.info.inputs.length arguments.length), state)
    else
      match native.call arguments state with
      | (.ok outputs, state) => (.ok outputs, state)
      | (.error cause, state) => (.error (.nativeCall key cause), state)

end Catalog

def argument (type : NativeType) (index : Nat) (arguments : List Value) : Except InvokeError type.Carrier :=
  match arguments[index]? with
  | none => .error (.missingArgument index)
  | some value =>
    match type.read value with
    | .ok result => .ok result
    | .error cause => .error (.invalidArgument index cause)

namespace Native

variable {σ : Type}

structure Slot where
  name : String
  type : NativeType

def Slot.parameter (slot : Slot) : Parameter := ⟨slot.name, slot.type.pinType⟩

def ofPure (info : FunctionInfo) (call : List Value → Except InvokeError (List Value)) : Native σ :=
  ⟨info, fun arguments state => (call arguments, state)⟩

def single (type : NativeType) (result : type.Carrier) : List Value := [type.write result]

def unary (a : NativeType) (r : NativeType) (f : a.Carrier → r.Carrier) (arguments : List Value) :
    Except InvokeError (List Value) := do
  let x ← argument a 0 arguments
  return single r (f x)

def binary (a b : NativeType) (r : NativeType) (f : a.Carrier → b.Carrier → r.Carrier) (arguments : List Value) :
    Except InvokeError (List Value) := do
  let x ← argument a 0 arguments
  let y ← argument b 1 arguments
  return single r (f x y)

def partialBinary (a b : NativeType) (r : NativeType) (f : a.Carrier → b.Carrier → Except String r.Carrier)
    (arguments : List Value) : Except InvokeError (List Value) := do
  let x ← argument a 0 arguments
  let y ← argument b 1 arguments
  match f x y with
  | .ok result => return single r result
  | .error text => .error (.failed text)

end Native

end Patchbay
