import Patchbay.Run.Frame

set_option autoImplicit false

namespace Patchbay

variable {σ : Type}

abbrev Yield := List Value × Option Nat

def requireOwner (host : Host σ) : Except ScriptError (Owner σ) :=
  match host.owner with
  | some owner => .ok owner
  | none => .error .noOwner

/-- Object whose property a target means; null means the owner. -/
def targetObject? (host : Host σ) (target : Value) : Except ScriptError (Option (Owner σ × Handle)) :=
  match target with
  | .handle handle => (requireOwner host).map fun owner => some (owner, handle)
  | .null => (requireOwner host).map fun owner => some (owner, owner.handle)
  | _ => .ok none

def readMember (host : Host σ) (member : String) (target : Value) (world : σ) : Except ScriptError Value :=
  let found : Except ScriptError (Option Value) :=
    match target with
    | .object _ fields => .ok (Fields.find? member fields)
    | target => (targetObject? host target).map fun object =>
      object.bind fun (owner, handle) => owner.property? handle.id member world
  match found with
  | .error cause => .error cause
  | .ok none => .error (.memberNotFound member)
  | .ok (some value) => .ok value

/-- Set a field of an object, which gives a changed copy, or a property that exists. -/
def writeMember (host : Host σ) (member : String) (target value : Value) (world : σ) : Except ScriptError (Value × σ) :=
  match target with
  | .object typeId fields => .ok (.object typeId (Fields.insert member value fields), world)
  | target =>
    match targetObject? host target with
    | .error cause => .error cause
    | .ok none => .error (.memberNotFound member)
    | .ok (some (owner, handle)) =>
      match owner.setProperty? handle.id member value world with
      | some world => .ok (.handle handle, world)
      | none => .error (.memberNotFound member)

def componentHandle (host : Host σ) (component : Guid) : Except ScriptError Handle :=
  match requireOwner host with
  | .error cause => .error cause
  | .ok owner =>
    match owner.component? component with
    | some handle => .ok handle
    | none => .error (.componentNotFound component)

abbrev Call (σ : Type) := Guid → List Value → Env σ → Except ScriptError (List Value) × Env σ

def yieldOne (next : Option Nat) (result : Except ScriptError Value) : Except ScriptError Yield :=
  result.map fun value => ([value], next)

/-- What a node does outside its graph: it reads or sets a member, names the owner or a component, or
calls something. -/
def consult (host : Host σ) (call : Call σ) (kind : NodeKind) (inputs : List Value) (env : Env σ) :
    Except ScriptError Yield × Env σ :=
  match kind with
  | .getMember member => (yieldOne none (readMember host member (Node.input inputs 0) env.world), env)
  | .setMember member =>
    match writeMember host member (Node.input inputs 0) (Node.input inputs 1) env.world with
    | .error cause => (.error cause, env)
    | .ok (target, world) => (.ok ([target], some 0), { env with world := world })
  | .selfReference => (yieldOne none ((requireOwner host).map fun owner => .handle owner.handle), env)
  | .getComponent component => (yieldOne none ((componentHandle host component).map .handle), env)
  | .callNative key isPure =>
    match host.catalog.invoke key inputs env.world with
    | (.ok outputs, world) => (.ok (outputs, if isPure then none else some 0), { env with world := world })
    | (.error cause, world) => (.error cause, { env with world := world })
  | .callFunction function =>
    match call function inputs env with
    | (.ok outputs, env) => (.ok (outputs, some 0), env)
    | (.error cause, env) => (.error cause, env)
  | _ => (.ok ([], none), env)

def perform (host : Host σ) (call : Call σ) (job : Job) (index : Nat) (node : Node) (activation : Activation)
    (inputs : List Value) (run : Run σ) : Except ScriptError Yield × Run σ :=
  match Effect.ofNode? node activation (run.frame.progressOf index) job.arguments inputs with
  | some effect =>
    let frame := run.frame.applyEffect index effect
    let frame := if node.kind = .functionReturn then { frame with returned := some inputs } else frame
    (.ok (effect.outputs, effect.next), { run with frame := frame })
  | none =>
    match node.kind with
    | .getVariable reference => (yieldOne none (run.readVariable job reference), run)
    | .setVariable reference =>
      match run.writeVariable job reference (Node.input inputs 0) with
      | .error cause => (.error cause, run)
      | .ok run => (yieldOne (some 0) (run.readVariable job reference), run)
    | kind =>
      let (result, env) := consult host call kind inputs run.env
      (result, run.withEnv env)

end Patchbay
