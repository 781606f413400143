import Patchbay.Graph.Compile
import Patchbay.Run.Perform

set_option autoImplicit false

namespace Patchbay

variable {σ : Type}

structure Outcome where
  lastNode : Option Nat
  returned : Option (List Value)

abbrev Activate (σ : Type) :=
  Job → Nat → Activation → Nat → Run σ → Except ScriptError (Option Nat) × Run σ

def Job.pulls (job : Job) (source : Nat) : Bool := ((job.nodes[source]?).map (·.isImplicit)).getD false

/-- Read one input. An implicit source runs first. -/
def readInput (limits : Limits) (job : Job) (pull : Nat → Run σ → Except ScriptError (Option Nat) × Run σ)
    (depth : Nat) (pin : InputPin) (run : Run σ) : Except ScriptError Value × Run σ :=
  match pin.source, pin.slot with
  | some source, some slot =>
    if job.pulls source.node then
      if limits.maxImplicitDepth ≤ depth then (.error (.implicitDepthExceeded limits.maxImplicitDepth), run)
      else
        match pull source.node run with
        | (.error cause, run) => (.error cause, run)
        | (.ok _, run) => (.ok ((run.frame.stack[slot]?).getD .null), run)
    else (.ok ((run.frame.stack[slot]?).getD .null), run)
  | _, _ => (.ok pin.literal, run)

def gather (limits : Limits) (job : Job) (pull : Nat → Run σ → Except ScriptError (Option Nat) × Run σ) (depth : Nat) :
    List InputPin → Run σ → Except ScriptError (List Value) × Run σ
  | [], run => (.ok [], run)
  | pin :: rest, run =>
    match readInput limits job pull depth pin run with
    | (.error cause, run) => (.error cause, run)
    | (.ok value, run) =>
      match gather limits job pull depth rest run with
      | (.error cause, run) => (.error cause, run)
      | (.ok values, run) => (.ok (value :: values), run)

def storeOutputs (index : Nat) (node : Node) (outputs : List Value) (run : Run σ) : Except ScriptError Unit × Run σ :=
  if outputs.length ≠ node.outputs.length then
    (.error (.outputCountMismatch index node.outputs.length outputs.length), run)
  else if run.frame.stack.length < node.base + outputs.length then (.error .notCompiled, run)
  else (.ok (), { run with frame := { run.frame with stack := writeSlots node.base outputs run.frame.stack } })

def Job.execPin? (job : Job) (index pin : Nat) : Option ExecPin :=
  match job.nodes[index]? with
  | some node => node.execOut[pin]?
  | none => none

/-- Where control goes after a node: to the target of the pin, else back to the innermost return
point. -/
def successor (job : Job) (index : Nat) (next : Option Nat) (points : List Nat) :
    Except ScriptError (Option (Nat × Activation)) :=
  let resume := points.head?.map fun node => (node, Activation.resumed)
  match next with
  | none => .ok resume
  | some pin =>
    match job.execPin? index pin with
    | none => .error (.pinNotFound index pin)
    | some exec =>
      match exec.target with
      | some target => .ok (some (target.node, .entered target.pin))
      | none => .ok resume

/-- Follow control from a node until no work is left. `fuel` bounds the activations. -/
def follow (host : Host σ) (act : Activate σ) (job : Job) :
    Nat → Nat → Activation → Run σ → Except ScriptError Nat × Run σ
  | 0, _, _, run => (.error (.stepLimitExceeded host.limits.maxSteps), run)
  | fuel + 1, index, activation, run =>
    match act job index activation 0 run with
    | (.error cause, run) => (.error cause, run)
    | (.ok next, run) =>
      match successor job index next run.frame.returnPoints with
      | .error cause => (.error cause, run)
      | .ok none => (.ok index, run)
      | .ok (some (node, activation)) => follow host act job fuel node activation run

def Node.withProgress (node : Node) (progress : Progress) : Node := { node with progress := progress }

namespace Graph

def frame (graph : Graph) : Frame := ⟨graph.nodes.map (·.progress), graph.stack, graph.returnPoints, none⟩

/-- The graph as a run leaves it. After a failure no return point stays behind. -/
def absorb (frame : Frame) (failed : Bool) (graph : Graph) : Graph :=
  { graph with
    nodes := List.zipWith Node.withProgress graph.nodes frame.progress
    stack := frame.stack
    returnPoints := if failed then [] else frame.returnPoints }

def runWith (host : Host σ) (act : Activate σ) (start : Nat) (arguments : List Value) (graph : Graph) (env : Env σ) :
    Except ScriptError Outcome × Graph × Env σ :=
  if graph.nodes.length ≤ start then (.error (.nodeNotFound start), graph, env)
  else
    match graph.prepare with
    | (.error cause, graph) => (.error cause, graph, env)
    | (.ok (), graph) =>
      let job : Job := ⟨graph.nodes, graph.locals, arguments⟩
      match follow host act job (host.limits.maxSteps + 1) start (.entered 0) ⟨graph.frame, env⟩ with
      | (.ok last, run) => (.ok ⟨some last, run.frame.returned⟩, graph.absorb run.frame false, run.env)
      | (.error cause, run) => (.error cause, graph.absorb run.frame true, run.env)

end Graph

def Body.results (body : Body) (outcome : Outcome) : List Value :=
  match outcome.returned with
  | some values => if outcome.lastNode = some returnNode then body.fitOutputs values else body.fitOutputs []
  | none => body.fitOutputs []

abbrev Runner (σ : Type) := List Value → Graph → Env σ → Except ScriptError Outcome × Graph × Env σ

def Body.callWith (runner : Runner σ) (arguments : List Value) (body : Body) (env : Env σ) :
    Except ScriptError (List Value) × Body × Env σ :=
  match body.checkStructure with
  | .error cause => (.error cause, body, env)
  | .ok () =>
    if arguments.length ≠ body.inputs.length then
      (.error (.parameterCountMismatch body.inputs.length arguments.length), body, env)
    else
      match runner arguments body.graph env with
      | (.error cause, graph, env) => (.error cause, { body with graph := graph }, env)
      | (.ok outcome, graph, env) => (.ok (body.results outcome), { body with graph := graph }, env)

/-- Call a function of the script. Its place in the list is empty meanwhile, and it never runs inside
itself. -/
def callFunctionWith (limits : Limits) (runner : Runner σ) (guid : Guid) (arguments : List Value) (env : Env σ) :
    Except ScriptError (List Value) × Env σ :=
  if env.callStack.contains guid then (.error (.recursiveCall guid), env)
  else if limits.maxCallDepth ≤ env.callStack.length then
    (.error (.callDepthExceeded limits.maxCallDepth), env)
  else
    match env.functions.findIdx? (·.guid == guid) with
    | none => (.error (.functionNotFound (.byGuid guid)), env)
    | some position =>
      match env.functions[position]? with
      | none => (.error (.functionNotFound (.byGuid guid)), env)
      | some callee =>
        let inside := { env with
          functions := env.functions.set position Function.placeholder
          callStack := guid :: env.callStack }
        let (result, body, after) := callee.body.callWith runner arguments inside
        (result, { after with
          functions := after.functions.set position { callee with body := body }
          callStack := after.callStack.tail })

/-- Activate a node: count the step, read the inputs, run the node and store its outputs, with a note
before and after. `level` bounds the activations that are nested in each other; the limit on steps
keeps them below it. -/
def activate (host : Host σ) : Nat → Activate σ
  | 0, _, _, _, _, run => (.error (.stepLimitExceeded host.limits.maxSteps), run)
  | level + 1, job, index, activation, depth, run =>
    match run.env.step host.limits with
    | (.error cause, env) => (.error cause, run.withEnv env)
    | (.ok (), env) =>
      match job.nodes[index]? with
      | none => (.error (.nodeNotFound index), run.withEnv env)
      | some node =>
        let visit : Visit := ⟨env.callStack, index, activation⟩
        let pull (source : Nat) (run : Run σ) := activate host level job source .pulled (depth + 1) run
        match gather host.limits job pull depth node.inputs ((run.withEnv env).note (.began visit)) with
        | (.error cause, run) => (.error cause, run)
        | (.ok inputs, run) =>
          let runner := Graph.runWith host (fun job index activation depth run =>
            activate host level job index activation depth run) entryNode
          let call := callFunctionWith host.limits runner
          match perform host call job index node activation inputs run with
          | (.error cause, run) => (.error cause, run)
          | (.ok (outputs, next), run) =>
            match storeOutputs index node outputs run with
            | (.error cause, run) => (.error cause, run)
            | (.ok (), run) => (.ok next, run.note (.ended visit inputs outputs next))

def Host.activate (host : Host σ) : Activate σ := Patchbay.activate host (host.limits.maxSteps + 1)

def Graph.run (host : Host σ) (start : Nat) (arguments : List Value) (graph : Graph) (env : Env σ) :
    Except ScriptError Outcome × Graph × Env σ :=
  graph.runWith host host.activate start arguments env

def Host.runner (host : Host σ) : Runner σ := Graph.run host entryNode

def Body.call (host : Host σ) (arguments : List Value) (body : Body) (env : Env σ) :
    Except ScriptError (List Value) × Body × Env σ :=
  body.callWith host.runner arguments env

def callFunction (host : Host σ) (guid : Guid) (arguments : List Value) (env : Env σ) :
    Except ScriptError (List Value) × Env σ :=
  callFunctionWith host.limits host.runner guid arguments env

end Patchbay
