import Patchbay.Script.Run

set_option autoImplicit false

namespace Patchbay

/-! The machine without a way out where it takes an index: a node, a pin, a slot, a variable or a function
that is not there is a fault, and so is an output without a slot. A fault anywhere leaves no result.
Lookups that may fail by design, such as that of an out-pin, stay as they are. -/

namespace Strict

variable {σ : Type}

abbrev Activate (σ : Type) :=
  Job → Nat → Activation → Nat → Run σ → Option (Except ScriptError (Option Nat) × Run σ)

abbrev Call (σ : Type) := Guid → List Value → Env σ → Option (Except ScriptError (List Value) × Env σ)

def localSlots? (job : Job) (frame : Frame) : Option (List Value) :=
  if job.locals.length ≤ frame.stack.length then some (frame.stack.take job.locals.length) else none

def readVariable (job : Job) (reference : Reference) (run : Run σ) : Option (Except ScriptError Value) := do
  let slots ← localSlots? job run.frame
  match reference.resolve? job.locals run.env.vars with
  | none => return .error (.variableNotFound reference)
  | some (true, index) => return .ok (← slots[index]?)
  | some (false, index) => return .ok (← run.env.vars[index]?).value

def writeVariable (job : Job) (reference : Reference) (value : Value) (run : Run σ) :
    Option (Except ScriptError (Run σ)) := do
  let slots ← localSlots? job run.frame
  match reference.resolve? job.locals run.env.vars with
  | none => return .error (.variableNotFound reference)
  | some (true, index) =>
    let entry ← job.locals[index]?
    let _ ← slots[index]?
    return .ok { run with frame := { run.frame with stack := run.frame.stack.set index (entry.type.coerce value) } }
  | some (false, index) =>
    let entry ← run.env.vars[index]?
    return .ok { run with env := { run.env with
      vars := run.env.vars.set index { entry with value := entry.type.coerce value } } }

def readInput (limits : Limits) (job : Job) (pull : Nat → Run σ → Option (Except ScriptError (Option Nat) × Run σ))
    (depth index pin : Nat) (run : Run σ) : Option (Except ScriptError Value × Run σ) := do
  let node ← job.nodes[index]?
  let input ← node.inputs[pin]?
  match input.source, input.slot with
  | some source, some slot =>
    if job.pulls source.node then
      if limits.maxImplicitDepth ≤ depth then return (.error (.implicitDepthExceeded limits.maxImplicitDepth), run)
      else
        match ← pull source.node run with
        | (.error cause, run) => return (.error cause, run)
        | (.ok _, run) => return (.ok ((run.frame.stack[slot]?).getD .null), run)
    else return (.ok ((run.frame.stack[slot]?).getD .null), run)
  | _, _ => return (.ok input.literal, run)

def gather (limits : Limits) (job : Job) (pull : Nat → Run σ → Option (Except ScriptError (Option Nat) × Run σ))
    (depth index : Nat) : Nat → Nat → Run σ → Option (Except ScriptError (List Value) × Run σ)
  | 0, _, run => some (.ok [], run)
  | count + 1, pin, run => do
    match ← readInput limits job pull depth index pin run with
    | (.error cause, run) => return (.error cause, run)
    | (.ok value, run) =>
      match ← gather limits job pull depth index count (pin + 1) run with
      | (.error cause, run) => return (.error cause, run)
      | (.ok values, run) => return (.ok (value :: values), run)

/-- Every node is handed the slots of the variables, whether it looks at them or not. -/
def perform (host : Host σ) (call : Call σ) (job : Job) (index : Nat) (node : Node) (activation : Activation)
    (inputs : List Value) (run : Run σ) : Option (Except ScriptError Yield × Run σ) := do
  let _ ← localSlots? job run.frame
  match node.kind with
  | .getVariable reference => return (yieldOne none (← readVariable job reference run), run)
  | .setVariable reference =>
    match ← writeVariable job reference (Node.input inputs 0) run with
    | .error cause => return (.error cause, run)
    | .ok run => return (yieldOne (some 0) (← readVariable job reference run), run)
  | .callFunction function =>
    match ← call function inputs run.env with
    | (.ok outputs, env) => return (.ok (outputs, some 0), run.withEnv env)
    | (.error cause, env) => return (.error cause, run.withEnv env)
  | _ => return Patchbay.perform host (fun _ _ env => (.ok [], env)) job index node activation inputs run

def storeOutputs (index : Nat) (node : Node) (outputs : List Value) (run : Run σ) :
    Option (Except ScriptError Unit × Run σ) :=
  if outputs.length ≠ node.outputs.length then
    some (.error (.outputCountMismatch index node.outputs.length outputs.length), run)
  else if run.frame.stack.length < node.base + outputs.length then none
  else some (.ok (), { run with frame := { run.frame with stack := writeSlots node.base outputs run.frame.stack } })

def successor (job : Job) (index : Nat) (next : Option Nat) (points : List Nat) :
    Option (Except ScriptError (Option (Nat × Activation))) :=
  let resume := points.head?.map fun node => (node, Activation.resumed)
  match next with
  | none => some (.ok resume)
  | some pin => do
    let node ← job.nodes[index]?
    match node.execOut[pin]? with
    | none => return .error (.pinNotFound index pin)
    | some exec =>
      match exec.target with
      | some target => return .ok (some (target.node, .entered target.pin))
      | none => return .ok resume

def follow (host : Host σ) (act : Activate σ) (job : Job) :
    Nat → Nat → Activation → Run σ → Option (Except ScriptError Nat × Run σ)
  | 0, _, _, run => some (.error (.stepLimitExceeded host.limits.maxSteps), run)
  | fuel + 1, index, activation, run => do
    match ← act job index activation 0 run with
    | (.error cause, run) => return (.error cause, run)
    | (.ok next, run) =>
      match ← successor job index next run.frame.returnPoints with
      | .error cause => return (.error cause, run)
      | .ok none => return (.ok index, run)
      | .ok (some (node, activation)) => follow host act job fuel node activation run

def runWith (host : Host σ) (act : Activate σ) (start : Nat) (arguments : List Value) (graph : Graph) (env : Env σ) :
    Option (Except ScriptError Outcome × Graph × Env σ) :=
  if graph.nodes.length ≤ start then some (.error (.nodeNotFound start), graph, env)
  else
    match graph.prepare with
    | (.error cause, graph) => some (.error cause, graph, env)
    | (.ok (), graph) => do
      let job : Job := ⟨graph.nodes, graph.locals, arguments⟩
      match ← follow host act job (host.limits.maxSteps + 1) start (.entered 0) ⟨graph.frame, env⟩ with
      | (.ok last, run) => return (.ok ⟨some last, run.frame.returned⟩, graph.absorb run.frame false, run.env)
      | (.error cause, run) => return (.error cause, graph.absorb run.frame true, run.env)

def callWith (host : Host σ) (act : Activate σ) (arguments : List Value) (body : Body) (env : Env σ) :
    Option (Except ScriptError (List Value) × Body × Env σ) :=
  match body.checkStructure with
  | .error cause => some (.error cause, body, env)
  | .ok () =>
    if arguments.length ≠ body.inputs.length then
      some (.error (.parameterCountMismatch body.inputs.length arguments.length), body, env)
    else do
      match ← runWith host act entryNode arguments body.graph env with
      | (.error cause, graph, env) => return (.error cause, { body with graph := graph }, env)
      | (.ok outcome, graph, env) => return (.ok (body.results outcome), { body with graph := graph }, env)

/-- The function is taken out of its place, and the place must still be there when it is put back. -/
def callFunctionWith (host : Host σ) (act : Activate σ) : Call σ := fun guid arguments env =>
  if env.callStack.contains guid then some (.error (.recursiveCall guid), env)
  else if host.limits.maxCallDepth ≤ env.callStack.length then
    some (.error (.callDepthExceeded host.limits.maxCallDepth), env)
  else
    match env.functions.findIdx? (·.guid == guid) with
    | none => some (.error (.functionNotFound (.byGuid guid)), env)
    | some position => do
      let callee ← env.functions[position]?
      let inside := { env with
        functions := env.functions.set position Function.placeholder
        callStack := guid :: env.callStack }
      let (result, body, after) ← callWith host act arguments callee.body inside
      let _ ← after.functions[position]?
      return (result, { after with
        functions := after.functions.set position { callee with body := body }
        callStack := after.callStack.tail })

def activate (host : Host σ) : Nat → Activate σ
  | 0, _, _, _, _, run => some (.error (.stepLimitExceeded host.limits.maxSteps), run)
  | level + 1, job, index, activation, depth, run =>
    match run.env.step host.limits with
    | (.error cause, env) => some (.error cause, run.withEnv env)
    | (.ok (), env) => do
      let node ← job.nodes[index]?
      let visit : Visit := ⟨env.callStack, index, activation⟩
      let pull (source : Nat) (run : Run σ) := activate host level job source .pulled (depth + 1) run
      match ← gather host.limits job pull depth index node.inputs.length 0 ((run.withEnv env).note (.began visit)) with
      | (.error cause, run) => return (.error cause, run)
      | (.ok inputs, run) =>
        let call := callFunctionWith host fun job index activation depth run =>
          activate host level job index activation depth run
        match ← perform host call job index node activation inputs run with
        | (.error cause, run) => return (.error cause, run)
        | (.ok (outputs, next), run) =>
          match ← storeOutputs index node outputs run with
          | (.error cause, run) => return (.error cause, run)
          | (.ok (), run) => return (.ok next, run.note (.ended visit inputs outputs next))

def run (host : Host σ) (start : Nat) (arguments : List Value) (graph : Graph) (env : Env σ) :
    Option (Except ScriptError Outcome × Graph × Env σ) :=
  runWith host (activate host (host.limits.maxSteps + 1)) start arguments graph env

def call (host : Host σ) (arguments : List Value) (body : Body) (env : Env σ) :
    Option (Except ScriptError (List Value) × Body × Env σ) :=
  callWith host (activate host (host.limits.maxSteps + 1)) arguments body env

def callFunction (host : Host σ) : Call σ := callFunctionWith host (activate host (host.limits.maxSteps + 1))

end Strict

inductive Invocation where
  | event (index : Nat) (arguments : List Value)
  | function (guid : Guid) (arguments : List Value)
  | interface (interface name : String) (arguments : List Value)

namespace Script

variable {σ : Type}

def execute (services : Services σ) (script : Script) (world : σ) :
    Invocation → Except ScriptError (List Value) × Script × σ
  | .event index arguments =>
    let (result, script, world) := script.runEventGraph services index arguments world
    (result.map fun _ => [], script, world)
  | .function guid arguments => script.call services guid arguments world
  | .interface interface name arguments => script.callInterface services interface name arguments world

end Script

namespace Strict

variable {σ : Type}

def runEventGraph (services : Services σ) (index : Nat) (arguments : List Value) (script : Script) (world : σ) :
    Option (Except ScriptError Unit × Script × σ) :=
  match script.host services world with
  | .error cause => some (.error cause, script, world)
  | .ok host =>
    match script.eventGraphs[index]? with
    | none => some (.error (.graphNotFound (.eventIndex index)), script, world)
    | some event =>
      match event.event with
      | .error cause => some (.error cause, script, world)
      | .ok _ => do
        let (result, graph, env) ← run host receiveNode arguments event.graph (script.env world)
        let script := { script.absorb env with
          eventGraphs := script.eventGraphs.set index { event with graph := graph } }
        return (result.map fun _ => (), script, env.world)

def callScript (services : Services σ) (guid : Guid) (arguments : List Value) (script : Script) (world : σ) :
    Option (Except ScriptError (List Value) × Script × σ) :=
  match script.host services world with
  | .error cause => some (.error cause, script, world)
  | .ok host => do
    let (result, env) ← callFunction host guid arguments (script.env world)
    return (result, script.absorb env, env.world)

def callInterface (services : Services σ) (interface name : String) (arguments : List Value) (script : Script)
    (world : σ) : Option (Except ScriptError (List Value) × Script × σ) :=
  match script.host services world with
  | .error cause => some (.error cause, script, world)
  | .ok host =>
    let isWanted (function : InterfaceFunction) : Bool := function.interface == interface && function.name == name
    match script.interfaceFunctions.findIdx? isWanted with
    | none => some (.error (.functionNotFound (.ofInterface interface name)), script, world)
    | some index => do
      let function ← script.interfaceFunctions[index]?
      let (result, body, env) ← call host arguments function.body (script.env world)
      let script := { script.absorb env with
        interfaceFunctions := script.interfaceFunctions.set index { function with body := body } }
      return (result, script, env.world)

def execute (services : Services σ) (script : Script) (world : σ) :
    Invocation → Option (Except ScriptError (List Value) × Script × σ)
  | .event index arguments => do
    let (result, script, world) ← runEventGraph services index arguments script world
    return (result.map fun _ => [], script, world)
  | .function guid arguments => callScript services guid arguments script world
  | .interface interface name arguments => callInterface services interface name arguments script world

end Strict

end Patchbay
