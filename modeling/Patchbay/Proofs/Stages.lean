import Patchbay.Proofs.Budget
import Patchbay.Proofs.References

set_option autoImplicit false

namespace Patchbay

variable {σ : Type}

/-- A call under way: the function that was asked for, and the place in the list where it was found. -/
structure ActiveCall where
  guid : Guid
  place : Nat

/-- A part of an execution, by what the machine is about to do there. `level` and `fuel` are those of the machine. -/
inductive Stage (σ : Type) where
  | activates (level : Nat) (job : Job) (index : Nat) (activation : Activation) (depth : Nat) (run : Run σ)
  | reads (level : Nat) (job : Job) (depth : Nat) (pins : List InputPin) (run : Run σ)
  | calls (level : Nat) (guid : Guid) (arguments : List Value) (env : Env σ)
  | enters (level : Nat) (arguments : List Value) (body : Body) (env : Env σ)
  | runs (level start : Nat) (arguments : List Value) (graph : Graph) (env : Env σ)
  | follows (level : Nat) (job : Job) (fuel index : Nat) (activation : Activation) (run : Run σ)

def failureOf {α : Type} : Except ScriptError α → Option ScriptError
  | .error cause => some cause
  | .ok _ => none

variable {α : Type} {cause : ScriptError}

theorem failure_of_error {result : Except ScriptError α}
    (failed : failureOf result = some cause) : result = .error cause := by
  cases result with
  | error => rw [Option.some.inj failed]
  | ok => cases failed

theorem failure_of_pair {S : Type} {outcome : Except ScriptError α × S}
    (failed : failureOf outcome.1 = some cause) : outcome = (.error cause, outcome.2) :=
  Prod.ext (failure_of_error failed) rfl

namespace Stage

def env : Stage σ → Env σ
  | .activates _ _ _ _ _ run | .reads _ _ _ _ run | .follows _ _ _ _ _ run => run.env
  | .calls _ _ _ env | .enters _ _ _ env | .runs _ _ _ _ env => env

def after (host : Host σ) : Stage σ → Env σ
  | .activates level job index activation depth run => (activate host level job index activation depth run).2.env
  | .reads level job depth pins run =>
    (gather host.limits job (fun source run => activate host level job source .pulled (depth + 1) run) depth pins run).2.env
  | .calls level guid arguments env =>
    (callFunctionWith host.limits (Graph.runWith host (activate host level) entryNode) guid arguments env).2
  | .enters level arguments body env => (body.callWith (Graph.runWith host (activate host level) entryNode) arguments env).2.2
  | .runs level start arguments graph env => (graph.runWith host (activate host level) start arguments env).2.2
  | .follows level job fuel index activation run =>
    (Patchbay.follow host (activate host level) job fuel index activation run).2.env

def failure (host : Host σ) : Stage σ → Option ScriptError
  | .activates level job index activation depth run => failureOf (activate host level job index activation depth run).1
  | .reads level job depth pins run =>
    failureOf
      (gather host.limits job (fun source run => activate host level job source .pulled (depth + 1) run) depth pins run).1
  | .calls level guid arguments env =>
    failureOf (callFunctionWith host.limits (Graph.runWith host (activate host level) entryNode) guid arguments env).1
  | .enters level arguments body env =>
    failureOf (body.callWith (Graph.runWith host (activate host level) entryNode) arguments env).1
  | .runs level start arguments graph env => failureOf (graph.runWith host (activate host level) start arguments env).1
  | .follows level job fuel index activation run =>
    failureOf (Patchbay.follow host (activate host level) job fuel index activation run).1

end Stage

/-- The surroundings of a call, with the function that is called taken out of its place. -/
def Env.without (guid : Guid) (place : Nat) (env : Env σ) : Env σ :=
  { env with functions := env.functions.set place Function.placeholder, callStack := guid :: env.callStack }

/-- One part sets another off, with the call that becomes active by it. An activation reads its inputs and calls a function; a
read runs its source; a call takes the function out and runs its body; a run follows control. -/
inductive SetsOff (host : Host σ) : Stage σ → List ActiveCall → Stage σ → Prop where
  | reads (level : Nat) (job : Job) (index : Nat) (activation : Activation) (depth : Nat) (run : Run σ) (env : Env σ)
      (node : Node) (counted : run.env.step host.limits = (.ok (), env)) (found : job.nodes[index]? = some node) :
      SetsOff host (.activates (level + 1) job index activation depth run) []
        (.reads level job depth node.inputs ((run.withEnv env).note (.began ⟨env.callStack, index, activation⟩)))
  | calls (level : Nat) (job : Job) (index : Nat) (activation : Activation) (depth : Nat) (run ready : Run σ) (env : Env σ)
      (node : Node) (inputs : List Value) (function : Guid) (counted : run.env.step host.limits = (.ok (), env))
      (found : job.nodes[index]? = some node)
      (gathered : gather host.limits job (fun source run => activate host level job source .pulled (depth + 1) run) depth
        node.inputs ((run.withEnv env).note (.began ⟨env.callStack, index, activation⟩)) = (.ok inputs, ready))
      (kind : node.kind = .callFunction function) :
      SetsOff host (.activates (level + 1) job index activation depth run) [] (.calls level function inputs ready.env)
  | pulls (level : Nat) (job : Job) (depth : Nat) (pin : InputPin) (rest : List InputPin) (run : Run σ)
      (source : PinSource) (slot : Nat) (fed : pin.source = some source) (resolved : pin.slot = some slot)
      (implicit : job.pulls source.node = true) (shallow : depth < host.limits.maxImplicitDepth) :
      SetsOff host (.reads level job depth (pin :: rest) run) [] (.activates level job source.node .pulled (depth + 1) run)
  | next (level : Nat) (job : Job) (depth : Nat) (pin : InputPin) (rest : List InputPin) (run ready : Run σ) (value : Value)
      (read : readInput host.limits job (fun source run => activate host level job source .pulled (depth + 1) run) depth pin
        run = (.ok value, ready)) :
      SetsOff host (.reads level job depth (pin :: rest) run) [] (.reads level job depth rest ready)
  | takes (level : Nat) (guid : Guid) (arguments : List Value) (env : Env σ) (place : Nat) (callee : Function)
      (idle : guid ∉ env.callStack) (shallow : env.callStack.length < host.limits.maxCallDepth)
      (found : env.functions.findIdx? (·.guid == guid) = some place) (there : env.functions[place]? = some callee) :
      SetsOff host (.calls level guid arguments env) [⟨guid, place⟩] (.enters level arguments callee.body (env.without guid place))
  | enters (level : Nat) (arguments : List Value) (body : Body) (env : Env σ) (checked : body.checkStructure = .ok ())
      (count : arguments.length = body.inputs.length) :
      SetsOff host (.enters level arguments body env) [] (.runs level entryNode arguments body.graph env)
  | begins (level start : Nat) (arguments : List Value) (graph ready : Graph) (env : Env σ)
      (inside : start < graph.nodes.length) (prepared : graph.prepare = (.ok (), ready)) :
      SetsOff host (.runs level start arguments graph env) [] (.follows level ⟨ready.nodes, ready.locals, arguments⟩
        (host.limits.maxSteps + 1) start (.entered 0) ⟨ready.frame, env⟩)
  | visits (level : Nat) (job : Job) (fuel index : Nat) (activation : Activation) (run : Run σ) :
      SetsOff host (.follows level job (fuel + 1) index activation run) [] (.activates level job index activation 0 run)
  | goes (level : Nat) (job : Job) (fuel index : Nat) (activation : Activation) (run after : Run σ) (next : Option Nat)
      (node : Nat) (way : Activation) (acted : activate host level job index activation 0 run = (.ok next, after))
      (leads : successor job index next after.frame.returnPoints = .ok (some (node, way))) :
      SetsOff host (.follows level job (fuel + 1) index activation run) [] (.follows level job fuel node way after)

/-- All parts of an execution, each with the calls that are active in it, the latest first. -/
inductive Within (host : Host σ) (whole : Stage σ) : List ActiveCall → Stage σ → Prop where
  | whole : Within host whole [] whole
  | part (calls opened : List ActiveCall) (outer inner : Stage σ) (within : Within host whole calls outer)
      (leads : SetsOff host outer opened inner) : Within host whole (opened ++ calls) inner

/-- The moments in which a part of an execution begins or ends. Between them the functions and the calls do not change. -/
def Moment (host : Host σ) (whole : Stage σ) (calls : List ActiveCall) (env : Env σ) : Prop :=
  ∃ part, Within host whole calls part ∧ (env = part.env ∨ env = part.after host)

variable {host : Host σ} {whole outer inner part : Stage σ} {opened calls : List ActiveCall} {guid : Guid}
  {env : Env σ} {cause : ScriptError} {limits : Limits} {job : Job} {reference : Reference} {run after : Run σ}
  {value : Value} {level index depth : Nat} {activation : Activation} {arguments : List Value}

theorem within_set_off {first last : Stage σ}
    (leads : SetsOff host whole opened first) (within : Within host first calls last) :
    Within host whole (calls ++ opened) last := by
  induction within with
  | whole => exact List.append_nil opened ▸ .part [] opened whole first .whole leads
  | part calls further outer inner _ leads ih =>
    rw [List.append_assoc]
    exact .part _ further outer inner ih leads

theorem call_function_found (level : Nat) (arguments : List Value) {place : Nat} {callee : Function}
    (idle : guid ∉ env.callStack) (shallow : env.callStack.length < host.limits.maxCallDepth)
    (found : env.functions.findIdx? (·.guid == guid) = some place) (there : env.functions[place]? = some callee) :
    callFunctionWith host.limits (Graph.runWith host (activate host level) entryNode) guid arguments env =
      let outcome := callee.body.callWith (Graph.runWith host (activate host level) entryNode) arguments (env.without guid place)
      (outcome.1, { outcome.2.2 with
        functions := outcome.2.2.functions.set place { callee with body := outcome.2.1 }
        callStack := outcome.2.2.callStack.tail }) := by
  unfold callFunctionWith
  rw [if_neg (by simpa using idle), if_neg (Nat.not_le_of_lt shallow), found]
  dsimp only
  rw [there]
  rfl

theorem reentry_refused (host : Host σ) (level : Nat) (guid : Guid) (arguments : List Value) (env : Env σ)
    (active : guid ∈ env.callStack) :
    callFunctionWith host.limits (Graph.runWith host (activate host level) entryNode) guid arguments env =
      (.error (.recursiveCall guid), env) := by
  unfold callFunctionWith
  rw [if_pos (by simpa using active)]

theorem failure_surfaces (leads : SetsOff host outer opened inner) (failed : inner.failure host = some cause) :
    outer.failure host = some cause := by
  cases leads with
  | reads level job index activation depth run env node counted found =>
    dsimp only [Stage.failure] at failed ⊢
    rw [activate, counted]
    dsimp only
    rw [found]
    dsimp only
    rw [failure_of_pair failed]
    rfl
  | calls level job index activation depth run ready env node inputs function counted found gathered kind =>
    dsimp only [Stage.failure] at failed ⊢
    rw [activate, counted]
    dsimp only
    rw [found]
    dsimp only
    rw [gathered]
    dsimp only
    rw [call_function_performed host _ job index activation inputs ready kind, consult]
    rw [failure_of_pair failed]
    rfl
  | pulls level job depth pin rest run source slot fed resolved implicit shallow =>
    dsimp only [Stage.failure] at failed ⊢
    rw [gather, readInput]
    rw [fed, resolved]
    dsimp only
    rw [if_pos implicit, if_neg (Nat.not_le_of_lt shallow), failure_of_pair failed]
    rfl
  | next level job depth pin rest run ready value read =>
    dsimp only [Stage.failure] at failed ⊢
    rw [gather]
    rw [read]
    dsimp only
    rw [failure_of_pair failed]
    rfl
  | takes level guid arguments env place callee idle shallow found there =>
    dsimp only [Stage.failure] at failed ⊢
    rw [call_function_found level arguments idle shallow found there]
    exact failed
  | enters level arguments body env checked count =>
    dsimp only [Stage.failure] at failed ⊢
    unfold Body.callWith
    rw [checked]
    dsimp only
    rw [if_neg (not_not_intro count), failure_of_pair failed]
    rfl
  | begins level start arguments graph ready env inside prepared =>
    dsimp only [Stage.failure] at failed ⊢
    unfold Graph.runWith
    rw [if_neg (Nat.not_le_of_lt inside), prepared]
    dsimp only
    rw [failure_of_pair failed]
    rfl
  | visits =>
    dsimp only [Stage.failure] at failed ⊢
    rw [Patchbay.follow]
    rw [failure_of_pair failed]
    rfl
  | goes level job fuel index activation run after next node way acted leads =>
    dsimp only [Stage.failure] at failed ⊢
    rw [Patchbay.follow]
    rw [acted]
    dsimp only
    rw [leads]
    exact failed

theorem failure_within (within : Within host whole calls part) (failed : part.failure host = some cause) :
    whole.failure host = some cause := by
  induction within with
  | whole => exact failed
  | part calls opened outer inner _ leads ih => exact ih (failure_surfaces leads failed)

inductive Reenters (guid : Guid) : Stage σ → Prop where
  | call (level : Nat) (arguments : List Value) (env : Env σ) (active : guid ∈ env.callStack) :
      Reenters guid (.calls level guid arguments env)

theorem reenters_fails (host : Host σ) (reenters : Reenters guid part) :
    part.failure host = some (.recursiveCall guid) := by
  obtain ⟨level, arguments, env, active⟩ := reenters
  dsimp only [Stage.failure]
  rw [reentry_refused host level guid arguments env active]
  rfl

def ScriptError.isLimit : ScriptError → Bool
  | .stepLimitExceeded _ | .callDepthExceeded _ | .implicitDepthExceeded _ => true
  | _ => false

/-- The part where an error comes up. Apart from the limits and from what nodes and graphs find wrong by themselves it is the
call of a function that is active or missing, or the activation of a node whose variable is missing. -/
inductive Raises (host : Host σ) : ScriptError → Stage σ → Prop where
  | limit (cause : ScriptError) (part : Stage σ) (limit : cause.isLimit = true) : Raises host cause part
  | own (cause : ScriptError) (part : Stage σ) (own : cause.isOwn = true) : Raises host cause part
  | reenters (guid : Guid) (part : Stage σ) (reenters : Reenters guid part) : Raises host (.recursiveCall guid) part
  | missing (level : Nat) (guid : Guid) (arguments : List Value) (env : Env σ) (idle : guid ∉ env.callStack)
      (absent : env.functions.findIdx? (·.guid == guid) = none) :
      Raises host (.functionNotFound (.byGuid guid)) (.calls level guid arguments env)
  | unresolved (level : Nat) (job : Job) (index : Nat) (activation : Activation) (depth : Nat) (run ready : Run σ)
      (env : Env σ) (node : Node) (inputs : List Value) (reference : Reference)
      (counted : run.env.step host.limits = (.ok (), env)) (found : job.nodes[index]? = some node)
      (gathered : gather host.limits job (fun source run => activate host level job source .pulled (depth + 1) run) depth
        node.inputs ((run.withEnv env).note (.began ⟨env.callStack, index, activation⟩)) = (.ok inputs, ready))
      (refers : node.kind.reference? = some reference) (lost : reference.resolve? job.locals ready.env.vars = none) :
      Raises host (.variableNotFound reference) (.activates (level + 1) job index activation depth run)

theorem step_stopped {after : Env σ}
    (stopped : env.step limits = (.error cause, after)) : cause = .stepLimitExceeded limits.maxSteps := by
  obtain ⟨result, _⟩ := Prod.mk.inj stopped
  split at result
  · cases result
    rfl
  · cases result

theorem read_variable_failure (failed : run.readVariable job reference = .error cause) :
    cause = .variableNotFound reference ∧ reference.resolve? job.locals run.env.vars = none := by
  rw [Run.read_resolved] at failed
  split at failed
  · next lost =>
      cases failed
      exact ⟨rfl, lost⟩
  · cases failed
  · cases failed

theorem write_variable_failure (failed : run.writeVariable job reference value = .error cause) :
    cause = .variableNotFound reference ∧ reference.resolve? job.locals run.env.vars = none := by
  rw [Run.write_resolved] at failed
  split at failed
  · next lost =>
      cases failed
      exact ⟨rfl, lost⟩
  · cases failed
  · cases failed

theorem write_variable_guids (written : run.writeVariable job reference value = .ok after) :
    after.env.vars.map (·.guid) = run.env.vars.map (·.guid) := by
  unfold Run.writeVariable at written
  split at written <;> cases written
  · rfl
  · next index _ =>
      exact modify_layout (·.guid) index (fun entry => { entry with value := entry.type.coerce value }) run.env.vars fun _ => rfl

theorem yield_failure {next : Option Nat} {result : Except ScriptError Value}
    (failed : failureOf (yieldOne next result) = some cause) : result = .error cause := by
  cases result with
  | ok => cases failed
  | error => rw [Option.some.inj failed]

theorem perform_failure (host : Host σ) (level : Nat) (job : Job) (index : Nat) (node : Node) (activation : Activation)
    (inputs : List Value) (run : Run σ) (cause : ScriptError)
    (failed : failureOf (perform host (callFunctionWith host.limits (Graph.runWith host (activate host level) entryNode)) job
      index node activation inputs run).1 = some cause) :
    cause.isOutside = true ∨
    (∃ reference, node.kind.reference? = some reference ∧ cause = .variableNotFound reference ∧
      reference.resolve? job.locals run.env.vars = none) ∨
    (∃ function, node.kind = .callFunction function ∧ (Stage.calls level function inputs run.env).failure host = some cause) := by
  by_cases calls : ∃ function, node.kind = .callFunction function
  · obtain ⟨function, kind⟩ := calls
    refine .inr (.inr ⟨function, kind, ?_⟩)
    rw [call_function_performed host _ job index activation inputs run kind, consult] at failed
    dsimp only [Stage.failure]
    split at failed
    · cases failed
    · next cause env outcome =>
        rw [outcome]
        exact failed
  · have other : ∀ function, node.kind ≠ .callFunction function := fun function kind => calls ⟨function, kind⟩
    have outside := consult_outside host (callFunctionWith host.limits (Graph.runWith host (activate host level) entryNode))
      node.kind other inputs run.env
    unfold perform at failed
    split at failed
    · cases failed
    · split at failed
      · next reference kind =>
          refine .inr (.inl ⟨reference, by rw [kind]; rfl, ?_⟩)
          exact read_variable_failure (yield_failure failed)
      · next reference kind =>
          refine .inr (.inl ⟨reference, by rw [kind]; rfl, ?_⟩)
          split at failed
          · next refused =>
              cases failed
              exact write_variable_failure refused
          · next after written =>
              obtain ⟨same, lost⟩ := read_variable_failure (yield_failure failed)
              rw [Reference.resolve_congr job.locals _ rfl (write_variable_guids written)] at lost
              exact ⟨same, lost⟩
      · exact .inl (outside cause (failure_of_error failed))

structure Readied (host : Host σ) (level : Nat) (job : Job) (index : Nat) (activation : Activation) (depth : Nat) (run : Run σ)
    (env : Env σ) (node : Node) (inputs : List Value) (ready : Run σ) : Prop where
  counted : run.env.step host.limits = (.ok (), env)
  found : job.nodes[index]? = some node
  gathered : gather host.limits job (fun source run => activate host level job source .pulled (depth + 1) run) depth
    node.inputs ((run.withEnv env).note (.began ⟨env.callStack, index, activation⟩)) = (.ok inputs, ready)

/-- The part where an error comes up, with all that led to it there. -/
inductive Originates (host : Host σ) : ScriptError → Stage σ → Prop where
  | steps (level : Nat) (job : Job) (index : Nat) (activation : Activation) (depth : Nat) (run : Run σ) :
      Originates host (.stepLimitExceeded host.limits.maxSteps) (.activates level job index activation depth run)
  | absent (level : Nat) (job : Job) (index : Nat) (activation : Activation) (depth : Nat) (run : Run σ)
      (missing : job.nodes[index]? = none) :
      Originates host (.nodeNotFound index) (.activates level job index activation depth run)
  | outside (cause : ScriptError) (level : Nat) (job : Job) (index : Nat) (activation : Activation) (depth : Nat) (run : Run σ)
      (outside : cause.isOutside = true) : Originates host cause (.activates level job index activation depth run)
  | unresolved (level : Nat) (job : Job) (index : Nat) (activation : Activation) (depth : Nat) (run ready : Run σ) (env : Env σ)
      (node : Node) (inputs : List Value) (reference : Reference)
      (readied : Readied host level job index activation depth run env node inputs ready)
      (refers : node.kind.reference? = some reference) (lost : reference.resolve? job.locals ready.env.vars = none) :
      Originates host (.variableNotFound reference) (.activates (level + 1) job index activation depth run)
  | stores (cause : ScriptError) (level : Nat) (job : Job) (index : Nat) (activation : Activation) (depth : Nat)
      (run ready given left : Run σ) (env : Env σ) (node : Node) (inputs outputs : List Value) (next : Option Nat)
      (readied : Readied host level job index activation depth run env node inputs ready)
      (performed : perform host (callFunctionWith host.limits (Graph.runWith host (activate host level) entryNode)) job index
        node activation inputs ready = (.ok (outputs, next), given))
      (refused : storeOutputs index node outputs given = (.error cause, left)) :
      Originates host cause (.activates (level + 1) job index activation depth run)
  | deep (level : Nat) (job : Job) (depth : Nat) (pin : InputPin) (rest : List InputPin) (run : Run σ) (source : PinSource)
      (fed : pin.source = some source) (implicit : job.pulls source.node = true)
      (deep : host.limits.maxImplicitDepth ≤ depth) :
      Originates host (.implicitDepthExceeded host.limits.maxImplicitDepth) (.reads level job depth (pin :: rest) run)
  | reenters (guid : Guid) (part : Stage σ) (reenters : Reenters guid part) : Originates host (.recursiveCall guid) part
  | nested (level : Nat) (guid : Guid) (arguments : List Value) (env : Env σ) :
      Originates host (.callDepthExceeded host.limits.maxCallDepth) (.calls level guid arguments env)
  | missing (level : Nat) (guid : Guid) (arguments : List Value) (env : Env σ) (idle : guid ∉ env.callStack)
      (absent : env.functions.findIdx? (·.guid == guid) = none) :
      Originates host (.functionNotFound (.byGuid guid)) (.calls level guid arguments env)
  | misshapen (cause : ScriptError) (level : Nat) (arguments : List Value) (body : Body) (env : Env σ)
      (refused : body.checkStructure = .error cause) : Originates host cause (.enters level arguments body env)
  | count (level : Nat) (arguments : List Value) (body : Body) (env : Env σ) :
      Originates host (.parameterCountMismatch body.inputs.length arguments.length) (.enters level arguments body env)
  | beyond (level start : Nat) (arguments : List Value) (graph : Graph) (env : Env σ) :
      Originates host (.nodeNotFound start) (.runs level start arguments graph env)
  | unprepared (cause : ScriptError) (level start : Nat) (arguments : List Value) (graph left : Graph) (env : Env σ)
      (refused : graph.prepare = (.error cause, left)) : Originates host cause (.runs level start arguments graph env)
  | spent (level : Nat) (job : Job) (fuel index : Nat) (activation : Activation) (run : Run σ) :
      Originates host (.stepLimitExceeded host.limits.maxSteps) (.follows level job fuel index activation run)
  | stuck (cause : ScriptError) (level : Nat) (job : Job) (fuel index : Nat) (activation : Activation) (run after : Run σ)
      (next : Option Nat) (acted : activate host level job index activation 0 run = (.ok next, after))
      (refused : successor job index next after.frame.returnPoints = .error cause) :
      Originates host cause (.follows level job (fuel + 1) index activation run)

def Traced (host : Host σ) (cause : ScriptError) (part : Stage σ) : Prop :=
  Originates host cause part ∨ ∃ opened inner, SetsOff host part opened inner ∧ inner.failure host = some cause

theorem activates_traced (failed : (Stage.activates level job index activation depth run).failure host = some cause) :
    Traced host cause (.activates level job index activation depth run) := by
  dsimp only [Stage.failure] at failed
  cases level with
  | zero =>
    cases failed
    exact .inl (.steps 0 job index activation depth run)
  | succ level =>
    rw [activate] at failed
    split at failed
    · next stop env stopped =>
        cases failed
        rw [step_stopped stopped]
        exact .inl (.steps _ job index activation depth run)
    · next env counted =>
        split at failed
        · next missing =>
            cases failed
            exact .inl (.absent _ job index activation depth run missing)
        · next node found =>
            dsimp only at failed
            split at failed
            · next cause ready gathered =>
                refine .inr ⟨_, _, .reads level job index activation depth run env node counted found, ?_⟩
                dsimp only [Stage.failure]
                rw [gathered]
                exact failed
            · next inputs ready gathered =>
                have readied : Readied host level job index activation depth run env node inputs ready :=
                  ⟨counted, found, gathered⟩
                split at failed
                · next given performed =>
                    obtain outside | ⟨reference, refers, rfl, lost⟩ | ⟨function, kind, fails⟩ :=
                      perform_failure host level job index node activation inputs ready cause (by rw [performed]; exact failed)
                    · exact .inl (.outside cause _ job index activation depth run outside)
                    · exact .inl (.unresolved level job index activation depth run ready env node inputs reference readied
                        refers lost)
                    · exact .inr ⟨_, _, .calls level job index activation depth run ready env node inputs function counted
                        found gathered kind, fails⟩
                · next outputs next given performed =>
                    split at failed
                    · next left refused =>
                        cases failed
                        exact .inl (.stores cause level job index activation depth run ready given left env node inputs
                          outputs next readied performed refused)
                    · cases failed

theorem read_failure (pull : Nat → Run σ → Except ScriptError (Option Nat) × Run σ) {pin : InputPin}
    (failed : readInput limits job pull depth pin run = (.error cause, after)) :
    ∃ source slot, pin.source = some source ∧ pin.slot = some slot ∧ job.pulls source.node = true ∧
      (limits.maxImplicitDepth ≤ depth ∧ cause = .implicitDepthExceeded limits.maxImplicitDepth ∨
        depth < limits.maxImplicitDepth ∧ pull source.node run = (.error cause, after)) := by
  unfold readInput at failed
  split at failed
  · next source slot fed resolved =>
      split at failed
      · next implicit =>
          refine ⟨source, slot, fed, resolved, implicit, ?_⟩
          split at failed
          · next deep =>
              cases failed
              exact .inl ⟨deep, rfl⟩
          · next shallow =>
              split at failed
              · next outcome =>
                  cases failed
                  exact .inr ⟨Nat.lt_of_not_le shallow, outcome⟩
              · cases failed
      · cases failed
  · cases failed

theorem reads_traced {pins : List InputPin} (failed : (Stage.reads level job depth pins run).failure host = some cause) :
    Traced host cause (.reads level job depth pins run) := by
  dsimp only [Stage.failure] at failed
  cases pins with
  | nil => cases failed
  | cons pin rest =>
    rw [gather] at failed
    split at failed
    · next ready read =>
        cases failed
        obtain ⟨source, slot, fed, resolved, implicit, ⟨deep, rfl⟩ | ⟨shallow, outcome⟩⟩ :=
          read_failure _ read
        · exact .inl (.deep level job depth pin rest run source fed implicit deep)
        · refine .inr ⟨_, _, .pulls level job depth pin rest run source slot fed resolved implicit shallow, ?_⟩
          dsimp only [Stage.failure] at outcome ⊢
          rw [outcome]
          rfl
    · next value ready read =>
        refine .inr ⟨_, _, .next level job depth pin rest run ready value read, ?_⟩
        dsimp only [Stage.failure]
        split at failed
        · next outcome =>
            rw [outcome]
            exact failed
        · cases failed

theorem calls_traced {called : Guid} (failed : (Stage.calls level called arguments env).failure host = some cause) :
    Traced host cause (.calls level called arguments env) := by
  dsimp only [Stage.failure] at failed
  unfold callFunctionWith at failed
  split at failed
  · next active =>
      cases failed
      exact .inl (.reenters called _ (.call level arguments env (by simpa using active)))
  · next idle =>
      split at failed
      · cases failed
        exact .inl (.nested level called arguments env)
      · next shallow =>
          split at failed
          · next absent =>
              cases failed
              exact .inl (.missing level called arguments env (by simpa using idle) absent)
          · next place found =>
              obtain ⟨inside, _⟩ := List.findIdx?_eq_some_iff_getElem.mp found
              split at failed
              · next outside => exact absurd inside (Nat.not_lt_of_le (List.getElem?_eq_none_iff.mp outside))
              · next callee there =>
                  exact .inr ⟨_, _, .takes level called arguments env place callee (by simpa using idle)
                    (Nat.lt_of_not_le shallow) found there, failed⟩

theorem enters_traced {body : Body} (failed : (Stage.enters level arguments body env).failure host = some cause) :
    Traced host cause (.enters level arguments body env) := by
  dsimp only [Stage.failure] at failed
  unfold Body.callWith at failed
  split at failed
  · next refused =>
      cases failed
      exact .inl (.misshapen cause level arguments body env refused)
  · next checked =>
      split at failed
      · cases failed
        exact .inl (.count level arguments body env)
      · next count =>
          refine .inr ⟨_, _, .enters level arguments body env checked (Decidable.not_not.mp count), ?_⟩
          dsimp only [Stage.failure]
          split at failed
          · next outcome =>
              rw [outcome]
              exact failed
          · cases failed

theorem runs_traced {start : Nat} {graph : Graph} (failed : (Stage.runs level start arguments graph env).failure host =
    some cause) : Traced host cause (.runs level start arguments graph env) := by
  dsimp only [Stage.failure] at failed
  unfold Graph.runWith at failed
  split at failed
  · cases failed
    exact .inl (.beyond level start arguments graph env)
  · next inside =>
      split at failed
      · next left refused =>
          cases failed
          exact .inl (.unprepared cause level start arguments graph left env refused)
      · next ready prepared =>
          refine .inr ⟨_, _, .begins level start arguments graph ready env (Nat.lt_of_not_le inside) prepared, ?_⟩
          dsimp only [Stage.failure] at failed ⊢
          split at failed
          · cases failed
          · next outcome =>
              rw [outcome]
              exact failed

theorem follows_traced {fuel : Nat}
    (failed : (Stage.follows level job fuel index activation run).failure host = some cause) :
    Traced host cause (.follows level job fuel index activation run) := by
  dsimp only [Stage.failure] at failed
  cases fuel with
  | zero =>
    cases failed
    exact .inl (.spent level job 0 index activation run)
  | succ fuel =>
    rw [follow] at failed
    split at failed
    · next after acted =>
        refine .inr ⟨_, _, .visits level job fuel index activation run, ?_⟩
        dsimp only [Stage.failure]
        rw [acted]
        exact failed
    · next next after acted =>
        split at failed
        · next refused =>
            cases failed
            exact .inl (.stuck cause level job fuel index activation run after next acted refused)
        · cases failed
        · next node way leads =>
            exact .inr ⟨_, _, .goes level job fuel index activation run after next node way acted leads, failed⟩

theorem failure_traced (failed : part.failure host = some cause) :
    Traced host cause part := by
  cases part with
  | activates => exact activates_traced failed
  | reads => exact reads_traced failed
  | calls => exact calls_traced failed
  | enters => exact enters_traced failed
  | runs => exact runs_traced failed
  | follows => exact follows_traced failed

/-- Parts get smaller: activations nest no deeper than the levels, and the rest of a part is shorter. -/
def Stage.rank : Stage σ → Nat × Nat × Nat
  | .activates level _ _ _ _ _ => (2 * level, 0, 0)
  | .reads level _ _ pins _ => (2 * level + 1, 0, pins.length)
  | .calls level _ _ _ => (2 * level + 1, 3, 0)
  | .enters level _ _ _ => (2 * level + 1, 2, 0)
  | .runs level _ _ _ _ => (2 * level + 1, 1, 0)
  | .follows level _ fuel _ _ _ => (2 * level + 1, 0, fuel)

theorem sets_off_descends (leads : SetsOff host outer opened inner) :
    Prod.Lex (· < ·) (Prod.Lex (· < ·) (· < ·)) inner.rank outer.rank := by
  cases leads with
  | reads level | calls level => exact .left _ _ (Nat.lt_succ_self (2 * level + 1))
  | pulls level | visits level => exact .left _ _ (Nat.lt_succ_self (2 * level))
  | next | goes => exact .right _ (.right _ (Nat.lt_succ_self _))
  | takes | enters | begins => exact .right _ (.left _ _ (by decide))

theorem failure_originates (host : Host σ) (cause : ScriptError) (part : Stage σ) (failed : part.failure host = some cause) :
    ∃ calls inner, Within host part calls inner ∧ Originates host cause inner := by
  obtain originates | ⟨opened, inner, leads, failed⟩ := failure_traced failed
  · exact ⟨[], part, .whole, originates⟩
  · obtain ⟨calls, last, within, originates⟩ := failure_originates host cause inner failed
    exact ⟨_, last, within_set_off leads within, originates⟩
termination_by part.rank
decreasing_by exact sets_off_descends leads

theorem originates_raises (originates : Originates host cause part) :
    Raises host cause part := by
  cases originates with
  | steps | deep | nested | spent => exact .limit _ _ rfl
  | absent | count | beyond => exact .own _ _ rfl
  | outside _ _ _ _ _ _ _ outside => exact .own cause _ (Outside.error (α := Unit) cause outside |>.own cause rfl)
  | unresolved level job index activation depth run ready env node inputs reference readied refers lost =>
    exact .unresolved level job index activation depth run ready env node inputs reference readied.counted readied.found
      readied.gathered refers lost
  | stores _ _ _ index _ _ _ _ given _ _ node _ outputs _ _ _ refused =>
    have own := store_outputs_own index node outputs given
    rw [refused] at own
    exact .own cause _ (own cause rfl)
  | reenters guid part reenters => exact .reenters guid part reenters
  | missing level guid arguments env idle absent => exact .missing level guid arguments env idle absent
  | misshapen _ _ _ body _ refused => exact .own cause _ (check_structure_own body cause refused)
  | unprepared _ _ _ _ graph _ _ refused =>
    have own := prepare_own graph
    rw [refused] at own
    exact .own cause _ (own cause rfl)
  | stuck _ _ job _ index _ _ after next _ refused =>
    exact .own cause _ (successor_own job index next after.frame.returnPoints cause refused)

theorem failure_raised (failed : part.failure host = some cause) :
    ∃ calls inner, Within host part calls inner ∧ Raises host cause inner := by
  obtain ⟨calls, inner, within, originates⟩ := failure_originates host cause part failed
  exact ⟨calls, inner, within, originates_raises originates⟩

theorem recursive_call_iff (host : Host σ) (guid : Guid) (whole : Stage σ) :
    whole.failure host = some (.recursiveCall guid) ↔ ∃ calls part, Within host whole calls part ∧ Reenters guid part := by
  constructor
  · intro failed
    obtain ⟨calls, part, within, raises⟩ := failure_raised failed
    cases raises with
    | limit _ _ limit => cases limit
    | own _ _ own => cases own
    | reenters _ _ reenters => exact ⟨calls, part, within, reenters⟩
  · rintro ⟨calls, part, within, reenters⟩
    exact failure_within within (reenters_fails host reenters)

end Patchbay
