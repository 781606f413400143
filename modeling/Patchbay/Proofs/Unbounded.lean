import Patchbay.Run.Machine

set_option autoImplicit false

namespace Patchbay

variable {σ : Type}

/-- The machine with nothing but the limits of the host to stop it: no bound on the activations that are nested in each other,
and none on those that follow each other. A run that never comes to an end has no result here. -/
abbrev Unbounded (σ : Type) := Host σ

namespace Unbounded

mutual

def readInput (host : Unbounded σ) (job : Job) (depth : Nat) (pin : InputPin) (run : Run σ) :
    Option (Except ScriptError Value × Run σ) :=
  match pin.source, pin.slot with
  | some source, some slot =>
    if job.pulls source.node then
      if host.limits.maxImplicitDepth ≤ depth then
        some (.error (.implicitDepthExceeded host.limits.maxImplicitDepth), run)
      else do
        match ← host |>.activate job source.node .pulled (depth + 1) run with
        | (.error cause, run) => some (.error cause, run)
        | (.ok _, run) => some (.ok ((run.frame.stack[slot]?).getD .null), run)
    else some (.ok ((run.frame.stack[slot]?).getD .null), run)
  | _, _ => some (.ok pin.literal, run)
partial_fixpoint

def gather (host : Unbounded σ) (job : Job) (depth : Nat) (pins : List InputPin) (run : Run σ) :
    Option (Except ScriptError (List Value) × Run σ) :=
  match pins with
  | [] => some (.ok [], run)
  | pin :: rest => do
    match ← host |>.readInput job depth pin run with
    | (.error cause, run) => some (.error cause, run)
    | (.ok value, run) =>
      match ← host |>.gather job depth rest run with
      | (.error cause, run) => some (.error cause, run)
      | (.ok values, run) => some (.ok (value :: values), run)
partial_fixpoint

def callFunction (host : Unbounded σ) (guid : Guid) (arguments : List Value) (env : Env σ) :
    Option (Except ScriptError (List Value) × Env σ) :=
  if env.callStack.contains guid then some (.error (.recursiveCall guid), env)
  else if host.limits.maxCallDepth ≤ env.callStack.length then
    some (.error (.callDepthExceeded host.limits.maxCallDepth), env)
  else
    match env.functions.findIdx? (·.guid == guid) with
    | none => some (.error (.functionNotFound (.byGuid guid)), env)
    | some position =>
      match env.functions[position]? with
      | none => some (.error (.functionNotFound (.byGuid guid)), env)
      | some callee => do
        let inside := { env with
          functions := env.functions.set position Function.placeholder
          callStack := guid :: env.callStack }
        let (result, body, after) ← host |>.callBody arguments callee.body inside
        some (result, { after with
          functions := after.functions.set position { callee with body := body }
          callStack := after.callStack.tail })
partial_fixpoint

def callBody (host : Unbounded σ) (arguments : List Value) (body : Body) (env : Env σ) :
    Option (Except ScriptError (List Value) × Body × Env σ) :=
  match body.checkStructure with
  | .error cause => some (.error cause, body, env)
  | .ok () =>
    if arguments.length ≠ body.inputs.length then
      some (.error (.parameterCountMismatch body.inputs.length arguments.length), body, env)
    else do
      match ← host |>.run entryNode arguments body.graph env with
      | (.error cause, graph, env) => some (.error cause, { body with graph := graph }, env)
      | (.ok outcome, graph, env) => some (.ok (body.results outcome), { body with graph := graph }, env)
partial_fixpoint

def run (host : Unbounded σ) (start : Nat) (arguments : List Value) (graph : Graph) (env : Env σ) :
    Option (Except ScriptError Outcome × Graph × Env σ) :=
  if graph.nodes.length ≤ start then some (.error (.nodeNotFound start), graph, env)
  else
    match graph.prepare with
    | (.error cause, graph) => some (.error cause, graph, env)
    | (.ok (), graph) => do
      match ← host |>.follow ⟨graph.nodes, graph.locals, arguments⟩ start (.entered 0) ⟨graph.frame, env⟩ with
      | (.ok last, run) => some (.ok ⟨some last, run.frame.returned⟩, graph.absorb run.frame false, run.env)
      | (.error cause, run) => some (.error cause, graph.absorb run.frame true, run.env)
partial_fixpoint

def follow (host : Unbounded σ) (job : Job) (index : Nat) (activation : Activation) (run : Run σ) :
    Option (Except ScriptError Nat × Run σ) := do
  match ← host |>.activate job index activation 0 run with
  | (.error cause, run) => some (.error cause, run)
  | (.ok next, run) =>
    match successor job index next run.frame.returnPoints with
    | .error cause => some (.error cause, run)
    | .ok none => some (.ok index, run)
    | .ok (some (node, activation)) => host |>.follow job node activation run
partial_fixpoint

/-- Only calls lead to further activations. The way to call does not matter to any other node. -/
def perform (host : Unbounded σ) (job : Job) (index : Nat) (node : Node) (activation : Activation) (inputs : List Value)
    (run : Run σ) : Option (Except ScriptError Yield × Run σ) :=
  match node.kind with
  | .callFunction function => do
    match ← host |>.callFunction function inputs run.env with
    | (.ok outputs, env) => some (.ok (outputs, some 0), run.withEnv env)
    | (.error cause, env) => some (.error cause, run.withEnv env)
  | _ => some (Patchbay.perform host (fun _ _ env => (.ok [], env)) job index node activation inputs run)
partial_fixpoint

def activate (host : Unbounded σ) (job : Job) (index : Nat) (activation : Activation) (depth : Nat) (run : Run σ) :
    Option (Except ScriptError (Option Nat) × Run σ) :=
  match run.env.step host.limits with
  | (.error cause, env) => some (.error cause, run.withEnv env)
  | (.ok (), env) =>
    match job.nodes[index]? with
    | none => some (.error (.nodeNotFound index), run.withEnv env)
    | some node => do
      let visit : Visit := ⟨env.callStack, index, activation⟩
      match ← host |>.gather job depth node.inputs ((run.withEnv env).note (.began visit)) with
      | (.error cause, run) => some (.error cause, run)
      | (.ok inputs, run) =>
        match ← host |>.perform job index node activation inputs run with
        | (.error cause, run) => some (.error cause, run)
        | (.ok (outputs, next), run) =>
          match storeOutputs index node outputs run with
          | (.error cause, run) => some (.error cause, run)
          | (.ok (), run) => some (.ok next, run.note (.ended visit inputs outputs next))
partial_fixpoint

end

end Unbounded

end Patchbay
