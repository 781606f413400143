import Patchbay.Run.Machine

set_option autoImplicit false

namespace Patchbay

def InputPin.plain (pin : InputPin) : InputPin := { pin with slot := none }

def Node.plain (node : Node) : Node := { node with inputs := node.inputs.map (·.plain), base := 0 }

/-! The meaning of a graph without a stack. A run keeps a value for every variable of the graph and one
for every output of every node, and an input reads the output that it is connected to. -/

namespace Stackless

variable {σ : Type}

structure Store where
  locals : List Value
  outputs : Nat → Nat → Value

namespace Store

def initial (locals : List Variable) : Store := ⟨locals.map (·.value), fun _ _ => .null⟩

def setLocal (index : Nat) (value : Value) (store : Store) : Store :=
  { store with locals := store.locals.set index value }

def setOutputs (index : Nat) (values : List Value) (store : Store) : Store :=
  { store with outputs := fun node output =>
      if node = index then (values[output]?).getD .null else store.outputs node output }

end Store

structure State (σ : Type) where
  progress : List Progress
  store : Store
  returnPoints : List Nat
  returned : Option (List Value)
  env : Env σ

namespace State

def withEnv (state : State σ) (env : Env σ) : State σ := { state with env := env }

def note (entry : TraceEntry) (state : State σ) : State σ := state.withEnv (state.env.note entry)

def progressOf (state : State σ) (index : Nat) : Progress := (state.progress[index]?).getD .idle

def applyEffect (index : Nat) (effect : Effect) (state : State σ) : State σ :=
  { state with
    progress := state.progress.set index effect.progress
    returnPoints := effect.points.apply index state.returnPoints }

def readVariable (job : Job) (reference : Reference) (state : State σ) : Except ScriptError Value :=
  match reference.resolve? job.locals state.env.vars with
  | none => .error (.variableNotFound reference)
  | some (true, index) => .ok ((state.store.locals[index]?).getD .null)
  | some (false, index) => .ok (((state.env.vars[index]?).map (·.value)).getD .null)

def writeVariable (job : Job) (reference : Reference) (value : Value) (state : State σ) :
    Except ScriptError (State σ) :=
  match reference.resolve? job.locals state.env.vars with
  | none => .error (.variableNotFound reference)
  | some (true, index) =>
    .ok { state with store := state.store.setLocal index (Run.coerceTo job.locals index value) }
  | some (false, index) =>
    let vars := state.env.vars.modify index fun entry => { entry with value := entry.type.coerce value }
    .ok (state.withEnv { state.env with vars := vars })

end State

def readInput (limits : Limits) (job : Job) (pull : Nat → State σ → Except ScriptError (Option Nat) × State σ)
    (depth : Nat) (pin : InputPin) (state : State σ) : Except ScriptError Value × State σ :=
  match pin.source with
  | none => (.ok pin.literal, state)
  | some source =>
    if job.pulls source.node then
      if limits.maxImplicitDepth ≤ depth then (.error (.implicitDepthExceeded limits.maxImplicitDepth), state)
      else
        match pull source.node state with
        | (.error cause, state) => (.error cause, state)
        | (.ok _, state) => (.ok (state.store.outputs source.node source.parameter), state)
    else (.ok (state.store.outputs source.node source.parameter), state)

def gather (limits : Limits) (job : Job) (pull : Nat → State σ → Except ScriptError (Option Nat) × State σ)
    (depth : Nat) : List InputPin → State σ → Except ScriptError (List Value) × State σ
  | [], state => (.ok [], state)
  | pin :: rest, state =>
    match readInput limits job pull depth pin state with
    | (.error cause, state) => (.error cause, state)
    | (.ok value, state) =>
      match gather limits job pull depth rest state with
      | (.error cause, state) => (.error cause, state)
      | (.ok values, state) => (.ok (value :: values), state)

def perform (host : Host σ) (call : Call σ) (job : Job) (index : Nat) (node : Node) (activation : Activation)
    (inputs : List Value) (state : State σ) : Except ScriptError Yield × State σ :=
  match Effect.ofNode? node activation (state.progressOf index) job.arguments inputs with
  | some effect =>
    let done := state.applyEffect index effect
    let done := if node.kind = .functionReturn then { done with returned := some inputs } else done
    (.ok (effect.outputs, effect.next), done)
  | none =>
    match node.kind with
    | .getVariable reference => (yieldOne none (state.readVariable job reference), state)
    | .setVariable reference =>
      match state.writeVariable job reference (Node.input inputs 0) with
      | .error cause => (.error cause, state)
      | .ok state => (yieldOne (some 0) (state.readVariable job reference), state)
    | kind =>
      let (result, env) := consult host call kind inputs state.env
      (result, state.withEnv env)

def storeOutputs (index : Nat) (node : Node) (outputs : List Value) (state : State σ) :
    Except ScriptError Unit × State σ :=
  if outputs.length ≠ node.outputs.length then
    (.error (.outputCountMismatch index node.outputs.length outputs.length), state)
  else (.ok (), { state with store := state.store.setOutputs index outputs })

abbrev Activate (σ : Type) :=
  Job → Nat → Activation → Nat → State σ → Except ScriptError (Option Nat) × State σ

def follow (host : Host σ) (act : Activate σ) (job : Job) :
    Nat → Nat → Activation → State σ → Except ScriptError Nat × State σ
  | 0, _, _, state => (.error (.stepLimitExceeded host.limits.maxSteps), state)
  | fuel + 1, index, activation, state =>
    match act job index activation 0 state with
    | (.error cause, state) => (.error cause, state)
    | (.ok next, state) =>
      match successor job index next state.returnPoints with
      | .error cause => (.error cause, state)
      | .ok none => (.ok index, state)
      | .ok (some (node, activation)) => follow host act job fuel node activation state

def State.initial (graph : Graph) (env : Env σ) : State σ :=
  ⟨graph.nodes.map (·.progress), Store.initial graph.locals, graph.returnPoints, none, env⟩

def State.settle (failed : Bool) (graph : Graph) (state : State σ) : Graph :=
  { graph with
    nodes := List.zipWith Node.withProgress graph.nodes state.progress
    returnPoints := if failed then [] else state.returnPoints }

def runWith (host : Host σ) (act : Activate σ) (start : Nat) (arguments : List Value) (graph : Graph) (env : Env σ) :
    Except ScriptError Outcome × Graph × Env σ :=
  if graph.nodes.length ≤ start then (.error (.nodeNotFound start), graph, env)
  else
    let job : Job := ⟨graph.nodes.map Node.plain, graph.locals, arguments⟩
    match follow host act job (host.limits.maxSteps + 1) start (.entered 0) (State.initial graph env) with
    | (.ok last, state) => (.ok ⟨some last, state.returned⟩, state.settle false graph, state.env)
    | (.error cause, state) => (.error cause, state.settle true graph, state.env)

/-- A function is refused unless it counts as compiled; its layout is not looked at. -/
def runner (host : Host σ) (act : Activate σ) : Runner σ := fun arguments graph env =>
  if graph.isCompiled then runWith host act entryNode arguments graph env else (.error .notCompiled, graph, env)

def activate (host : Host σ) : Nat → Activate σ
  | 0, _, _, _, _, state => (.error (.stepLimitExceeded host.limits.maxSteps), state)
  | level + 1, job, index, activation, depth, state =>
    match state.env.step host.limits with
    | (.error cause, env) => (.error cause, state.withEnv env)
    | (.ok (), env) =>
      match job.nodes[index]? with
      | none => (.error (.nodeNotFound index), state.withEnv env)
      | some node =>
        let visit : Visit := ⟨env.callStack, index, activation⟩
        let pull (source : Nat) (state : State σ) := activate host level job source .pulled (depth + 1) state
        match gather host.limits job pull depth node.inputs ((state.withEnv env).note (.began visit)) with
        | (.error cause, state) => (.error cause, state)
        | (.ok inputs, state) =>
          let call := callFunctionWith host.limits (runner host fun job index activation depth state =>
            activate host level job index activation depth state)
          match perform host call job index node activation inputs state with
          | (.error cause, state) => (.error cause, state)
          | (.ok (outputs, next), state) =>
            match storeOutputs index node outputs state with
            | (.error cause, state) => (.error cause, state)
            | (.ok (), state) => (.ok next, state.note (.ended visit inputs outputs next))

def run (host : Host σ) (start : Nat) (arguments : List Value) (graph : Graph) (env : Env σ) :
    Except ScriptError Outcome × Graph × Env σ :=
  runWith host (activate host (host.limits.maxSteps + 1)) start arguments graph env

end Stackless

end Patchbay
