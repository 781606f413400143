import Patchbay.Proofs.ReturnPoints

set_option autoImplicit false

namespace Patchbay

open Effect

variable {σ : Type}

def Body.wiped (body : Body) : Body := { body with graph := body.graph.wiped }

def Function.wiped (function : Function) : Function := { function with body := function.body.wiped }

def Env.wiped (env : Env σ) : Env σ := { env with functions := env.functions.map Function.wiped }

def Job.wiped (job : Job) : Job := { job with nodes := job.nodes.map (·.withProgress .idle) }

/-- Nodes that control comes back to have execution pins, and no run is under way. -/
structure Graph.Settled (graph : Graph) : Prop where
  rests : graph.AtRest
  driven : ∀ node ∈ graph.nodes, node.kind.takesTurns = true → node.isImplicit = false

def Env.Settled (env : Env σ) : Prop := ∀ function ∈ env.functions, function.body.graph.Settled

theorem wiped_node (job other : Job) (same : job.wiped = other.wiped) (index : Nat) :
    job.nodes[index]? = none ∧ other.nodes[index]? = none ∨
      ∃ node progress, job.nodes[index]? = some node ∧ other.nodes[index]? = some (node.withProgress progress) := by
  have there := congrArg (fun job => job.nodes[index]?) same
  simp only [Job.wiped, List.getElem?_map] at there
  cases found : job.nodes[index]? with
  | none =>
    rw [found, Option.map_none] at there
    exact .inl ⟨rfl, Option.map_eq_none_iff.mp there.symm⟩
  | some node =>
    rw [found, Option.map_some] at there
    obtain ⟨twin, found', alike⟩ := Option.map_eq_some_iff.mp there.symm
    have kept : twin = node.withProgress twin.progress := congrArg (·.withProgress twin.progress) alike
    exact .inr ⟨node, twin.progress, rfl, kept ▸ found'⟩

variable {job other : Job} {node : Node} {activation : Activation} {env : Env σ} {index level : Nat}
  {run run' : Run σ} {act : Activate σ} {a b : Graph} {host : Host σ}

theorem wiped_pulls (same : job.wiped = other.wiped) (source : Nat) :
    job.pulls source = other.pulls source := by
  obtain ⟨left, right⟩ | ⟨node, progress, left, right⟩ := wiped_node job other same source
  · simp only [Job.pulls, left, right]
  · simp only [Job.pulls, left, right]
    rfl

theorem wiped_successor (same : job.wiped = other.wiped) (index : Nat) (next : Option Nat)
    (points : List Nat) : successor job index next points = successor other index next points := by
  have pins : ∀ pin, job.execPin? index pin = other.execPin? index pin := by
    intro pin
    obtain ⟨left, right⟩ | ⟨node, progress, left, right⟩ := wiped_node job other same index
    · simp only [Job.execPin?, left, right]
    · simp only [Job.execPin?, left, right]
      rfl
  simp only [successor, pins]

/-- A node that takes turns looks at its progress only when it is not entered. -/
theorem effect_progress {mine yours : Progress} (arguments inputs : List Value)
    (blind : node.kind.takesTurns = false ∨ (∃ pin, activation = .entered pin) ∨ mine = yours) :
    ofNode? node activation mine arguments inputs = ofNode? node activation yours arguments inputs := by
  obtain ordinary | ⟨pin, rfl⟩ | rfl := blind
  · unfold ofNode?
    cases kind : node.kind with
    | sequence | forLoop | forEach | whileLoop => simp [kind, NodeKind.takesTurns] at ordinary
    | _ => rfl
  · unfold ofNode?
    cases node.kind with
    | sequence => rfl
    | forLoop => cases pin <;> rfl
    | forEach => cases pin <;> rfl
    | whileLoop => cases pin <;> rfl
    | _ => rfl
  · rfl

structure Env.Twin (env other : Env σ) : Prop where
  vars : env.vars = other.vars
  functions : env.functions.map Function.wiped = other.functions.map Function.wiped
  callStack : env.callStack = other.callStack
  steps : env.steps = other.steps
  world : env.world = other.world
  trace : env.trace = other.trace
  settled : env.Settled
  settled' : other.Settled

theorem twin_wiped {other : Env σ} (twin : env.Twin other) : env.wiped = other.wiped := by
  simp only [Env.wiped, twin.vars, twin.functions, twin.callStack, twin.steps, twin.world, twin.trace]

theorem twin_of_wiped {other : Env σ} (same : env.wiped = other.wiped) (settled : env.Settled)
    (settled' : other.Settled) : env.Twin other := by
  obtain ⟨vars, functions, callStack, steps, world, trace⟩ : env.vars = other.vars ∧
      env.functions.map Function.wiped = other.functions.map Function.wiped ∧ env.callStack = other.callStack ∧
      env.steps = other.steps ∧ env.world = other.world ∧ env.trace = other.trace := by
    simpa only [Env.wiped, Env.mk.injEq] using same
  exact ⟨vars, functions, callStack, steps, world, trace, settled, settled'⟩

theorem twin_note {other : Env σ} (twin : env.Twin other) (entry : TraceEntry) :
    (env.note entry).Twin (other.note entry) :=
  { twin with trace := congrArg (entry :: ·) twin.trace }

variable (limits : Limits)

theorem twin_step {other : Env σ} (twin : env.Twin other) :
    Agrees Env.Twin (env.step limits) (other.step limits) := by
  unfold Env.step
  refine ⟨?_, { twin with steps := congrArg (· + 1) twin.steps }⟩
  simp only [twin.steps]

/-- Two runs side by side. They are as far at the nodes that control is to come back to, and at those that are known. -/
structure Twin (known : Nat → Prop) (run other : Run σ) : Prop where
  stack : run.frame.stack = other.frame.stack
  points : run.frame.returnPoints = other.frame.returnPoints
  returned : run.frame.returned = other.frame.returned
  length : run.frame.progress.length = other.frame.progress.length
  progress : ∀ index, known index ∨ index ∈ other.frame.returnPoints → run.frame.progressOf index = other.frame.progressOf index
  env : run.env.Twin other.env

theorem point_applied {change : PointChange} {point : Nat} {points : List Nat}
    (member : point ∈ change.apply index points) : point = index ∨ point ∈ points := by
  have fewer := release_sublist index points
  cases change with
  | keep => exact .inr member
  | register => exact (List.mem_cons.mp member).imp_right (fewer.subset ·)
  | release => exact .inr (fewer.subset member)
  | clear => cases member

theorem twin_effect (known : Nat → Prop) {other : Run σ} (twin : Twin known run other) (index : Nat) (effect : Effect) :
    Twin known { run with frame := run.frame.applyEffect index effect }
      { other with frame := other.frame.applyEffect index effect } := by
  refine { twin with points := ?_, length := ?_, progress := ?_ }
  · exact congrArg (effect.points.apply index ·) twin.points
  · simpa [Frame.applyEffect] using twin.length
  · intro point due
    by_cases same : point = index
    · subst same
      simp only [Frame.progressOf, Frame.applyEffect, List.getElem?_set, if_true, twin.length]
    · rw [progress_applied _ _ _ _ same, progress_applied _ _ _ _ same]
      refine twin.progress point (due.imp_right fun member => ?_)
      exact (point_applied member).resolve_left same

theorem read_input_twin (same : job.wiped = other.wiped) (known : Nat → Prop)
    (pull pull' : Nat → Run σ → Except ScriptError (Option Nat) × Run σ)
    (pulls : ∀ source run run', job.pulls source = true → Twin known run run' →
      Agrees (Twin known) (pull source run) (pull' source run'))
    (depth : Nat) (pin : InputPin) (twin : Twin known run run') :
    Agrees (Twin known) (readInput limits job pull depth pin run) (readInput limits other pull' depth pin run') := by
  unfold readInput
  rw [← funext (wiped_pulls same)]
  split
  · next source slot _ _ =>
      split
      · next implicit =>
          split
          · exact ⟨rfl, twin⟩
          · obtain ⟨cause, next, next', left, right, after⟩ | ⟨_, next, next', left, right, after⟩ :=
              agrees_cases (pulls source.node run run' implicit twin)
            · rw [left, right]
              exact ⟨rfl, after⟩
            · rw [left, right]
              exact ⟨by simp only [after.stack], after⟩
      · exact ⟨by rw [twin.stack], twin⟩
  · exact ⟨rfl, twin⟩

theorem gather_twin (same : job.wiped = other.wiped) (known : Nat → Prop)
    (pull pull' : Nat → Run σ → Except ScriptError (Option Nat) × Run σ)
    (pulls : ∀ source run run', job.pulls source = true → Twin known run run' →
      Agrees (Twin known) (pull source run) (pull' source run'))
    (depth : Nat) (pins : List InputPin) (run run' : Run σ) (twin : Twin known run run') :
    Agrees (Twin known) (gather limits job pull depth pins run) (gather limits other pull' depth pins run') := by
  induction pins generalizing run run' with
  | nil => exact ⟨rfl, twin⟩
  | cons pin rest ih =>
    unfold gather
    obtain ⟨cause, next, next', left, right, after⟩ | ⟨value, next, next', left, right, after⟩ :=
      agrees_cases (read_input_twin limits same known pull pull' pulls depth pin twin)
    · rw [left, right]
      exact ⟨rfl, after⟩
    · rw [left, right]
      dsimp only
      obtain ⟨cause, last, last', left, right, done⟩ | ⟨values, last, last', left, right, done⟩ :=
        agrees_cases (ih next next' after)
      all_goals
        rw [left, right]
        exact ⟨rfl, done⟩

theorem read_variable_twin (same : job.wiped = other.wiped) (known : Nat → Prop) (reference : Reference)
    (twin : Twin known run run') : run.readVariable job reference = run'.readVariable other reference := by
  have locals : job.locals = other.locals := (congrArg Job.locals same :)
  rw [Run.read_resolved, Run.read_resolved, locals, twin.env.vars, twin.stack]

theorem write_variable_twin (same : job.wiped = other.wiped) (known : Nat → Prop) (reference : Reference)
    (value : Value) (twin : Twin known run run') :
    (∃ cause, run.writeVariable job reference value = .error cause ∧
      run'.writeVariable other reference value = .error cause) ∨
    (∃ next next', run.writeVariable job reference value = .ok next ∧
      run'.writeVariable other reference value = .ok next' ∧ Twin known next next') := by
  have locals : job.locals = other.locals := (congrArg Job.locals same :)
  rw [Run.write_resolved, Run.write_resolved, locals, twin.env.vars]
  split
  · exact .inl ⟨_, rfl, rfl⟩
  · exact .inr ⟨_, _, rfl, rfl, { twin with stack := by simp only [twin.stack] }⟩
  · exact .inr ⟨_, _, rfl, rfl, { twin with env := { twin.env with vars := rfl } }⟩

theorem perform_twin (host : Host σ) (call : Call σ)
    (calls : ∀ guid arguments env other, Env.Twin env other →
      Agrees Env.Twin (call guid arguments env) (call guid arguments other)) (same : job.wiped = other.wiped)
        (known : Nat → Prop) (progress : Progress) (inputs : List Value) (twin : Twin known run run')
    (blind : node.kind.takesTurns = false ∨ (∃ pin, activation = .entered pin) ∨
      run.frame.progressOf index = run'.frame.progressOf index) :
    Agrees (Twin known) (perform host call job index node activation inputs run)
      (perform host call other index (node.withProgress progress) activation inputs run') := by
  have arguments : job.arguments = other.arguments := (congrArg Job.arguments same :)
  have effects : ofNode? (node.withProgress progress) activation (run'.frame.progressOf index) other.arguments inputs =
      ofNode? node activation (run.frame.progressOf index) job.arguments inputs := by
    rw [arguments]
    exact (effect_progress other.arguments inputs blind).symm
  have kind : (node.withProgress progress).kind = node.kind := rfl
  unfold perform
  rw [effects, kind]
  cases ofNode? node activation (run.frame.progressOf index) job.arguments inputs with
  | some effect =>
    have after := twin_effect known twin index effect
    dsimp only
    split
    · exact ⟨rfl, { after with returned := rfl }⟩
    · exact ⟨rfl, after⟩
  | none =>
    cases node.kind with
    | getVariable reference =>
      exact ⟨congrArg (yieldOne none) (read_variable_twin same known reference twin), twin⟩
    | setVariable reference =>
      dsimp only
      obtain ⟨cause, left, right⟩ | ⟨next, next', left, right, after⟩ :=
        write_variable_twin same known reference (Node.input inputs 0) twin
      · rw [left, right]
        exact ⟨rfl, twin⟩
      · rw [left, right]
        exact ⟨congrArg (yieldOne (some 0)) (read_variable_twin same known reference after), after⟩
    | _ =>
      obtain ⟨result, after⟩ := consult_related host Env.Twin (fun _ _ twin => twin.world)
        (fun _ _ _ twin => { twin with world := rfl }) call call calls _ inputs twin.env
      exact ⟨result, { twin with env := after }⟩

theorem store_outputs_twin (known : Nat → Prop) (index : Nat) (node : Node) (progress : Progress) (outputs : List Value)
    (twin : Twin known run run') : Agrees (Twin known) (storeOutputs index node outputs run)
      (storeOutputs index (node.withProgress progress) outputs run') := by
  have places : (node.withProgress progress).outputs = node.outputs ∧ (node.withProgress progress).base = node.base :=
    ⟨rfl, rfl⟩
  unfold storeOutputs
  rw [places.1, places.2, twin.stack]
  split
  · exact ⟨rfl, twin⟩
  · split
    · exact ⟨rfl, twin⟩
    · exact ⟨rfl, { twin with stack := rfl }⟩

def Due (job : Job) (known : Nat → Prop) (index : Nat) : Activation → Prop
  | .entered _ => True
  | .resumed => known index
  | .pulled => job.pulls index = true

def ActivateTwin (act : Activate σ) : Prop :=
  ∀ job other known index activation depth run run', job.wiped = other.wiped →
    (∀ node ∈ job.nodes, node.kind.takesTurns = true → node.isImplicit = false) → Due job known index activation →
    Twin known run run' → Agrees (Twin known) (act job index activation depth run) (act other index activation depth run')

theorem follow_twin (host : Host σ) (acts : ActivateTwin act) (same : job.wiped = other.wiped)
    (driven : ∀ node ∈ job.nodes, node.kind.takesTurns = true → node.isImplicit = false) (fuel index : Nat)
    (activation : Activation) (run run' : Run σ) (twin : Twin (fun _ => False) run run')
    (due : Due job (· ∈ run'.frame.returnPoints) index activation) :
    Agrees (Twin fun _ => False) (follow host act job fuel index activation run)
      (follow host act other fuel index activation run') := by
  induction fuel generalizing index activation run run' with
  | zero => exact ⟨rfl, twin⟩
  | succ fuel ih =>
    unfold follow
    have watched : Twin (· ∈ run'.frame.returnPoints) run run' :=
      { twin with progress := fun point due => twin.progress point (.inr (or_self_iff.mp due)) }
    have forget : ∀ next next' : Run σ, Twin (· ∈ run'.frame.returnPoints) next next' →
        Twin (fun _ => False) next next' := fun next next' after =>
      { after with progress := fun point due => after.progress point (due.imp_left False.elim) }
    obtain ⟨cause, next, next', left, right, after⟩ | ⟨pin, next, next', left, right, after⟩ :=
      agrees_cases (acts job other _ index activation 0 run run' same driven due watched)
    · rw [left, right]
      exact ⟨rfl, forget next next' after⟩
    · rw [left, right]
      dsimp only
      rw [wiped_successor same, after.points]
      cases leads : successor other index pin next'.frame.returnPoints with
      | error => exact ⟨rfl, forget next next' after⟩
      | ok way =>
        cases way with
        | none => exact ⟨rfl, forget next next' after⟩
        | some way =>
          obtain ⟨node, activation⟩ := way
          refine ih node activation next next' (forget next next' after) ?_
          obtain ⟨_, _, _, _, _, _, _, _, rfl⟩ | ⟨rfl, member⟩ := successor_ways leads
          · trivial
          · exact member

theorem settled_of_wiped (same : a.wiped = b.wiped) (settled : a.Settled) (rests : b.AtRest) : b.Settled := by
  refine ⟨rests, fun node member turns => ?_⟩
  have there : node.withProgress .idle ∈ a.wiped.nodes := by
    rw [same]
    exact List.mem_map_of_mem member
  obtain ⟨twin, inside, alike⟩ := List.mem_map.mp there
  have kept : node = twin.withProgress node.progress := (congrArg (·.withProgress node.progress) alike).symm
  rw [kept] at turns ⊢
  exact settled.driven twin inside turns

theorem run_with_settled (host : Host σ) (level start : Nat) (arguments : List Value) (graph : Graph) (env : Env σ)
    (settled : graph.Settled) : (graph.runWith host (activate host level) start arguments env).2.1.Settled :=
  settled_of_wiped (run_with_wiped host level start arguments graph env).symm settled
    (run_with_at_rest host _ start arguments graph env settled.rests)

structure RanAlike (begins : Prop) (left right : Graph × Env σ) : Prop where
  env : left.2.Twin right.2
  stack : begins → left.1.stack = right.1.stack

theorem run_with_twin (host : Host σ) (acts : ActivateTwin act) (start : Nat) (arguments : List Value)
    (same : a.wiped = b.wiped) (settled : a.Settled) (settled' : b.Settled) {other : Env σ} (twin : env.Twin other) :
    Agrees (RanAlike (a.isCompiled = true ∧ start < a.nodes.length)) (a.runWith host act start arguments env)
      (b.runWith host act start arguments other) := by
  obtain ⟨nodes, locals, sizes⟩ : a.nodes.map (·.withProgress .idle) = b.nodes.map (·.withProgress .idle) ∧
      a.locals = b.locals ∧ a.size = b.size := by
    simpa only [Graph.wiped, Graph.mk.injEq, true_and] using same
  have length : a.nodes.length = b.nodes.length := by simpa using congrArg List.length nodes
  unfold Graph.runWith
  rw [← length]
  split
  · next beyond => exact ⟨rfl, twin, fun begins => absurd begins.2 (Nat.not_lt_of_le beyond)⟩
  · cases sized : a.size with
    | none =>
      simp only [Graph.prepare, sized, ← sizes]
      refine ⟨rfl, twin, fun begins => ?_⟩
      rw [Graph.isCompiled, sized] at begins
      cases begins.1
    | some size =>
      have ready : a.prepare = (.ok (), { a with stack := Graph.initialStack a.locals size }) := by
        simp only [Graph.prepare, sized]
      have ready' : b.prepare = (.ok (), { b with stack := Graph.initialStack a.locals size }) := by
        simp only [Graph.prepare, ← sizes, sized, locals]
      have begun : Twin (fun _ => False) ⟨{ a with stack := Graph.initialStack a.locals size }.frame, env⟩
          ⟨{ b with stack := Graph.initialStack a.locals size }.frame, other⟩ := by
        have points : b.returnPoints = [] := settled'.rests
        refine ⟨rfl, settled.rests.trans settled'.rests.symm, rfl, ?_, ?_, twin⟩
        · simpa [Graph.frame] using length
        · simp [Graph.frame, points]
      have jobs : Job.wiped ⟨a.nodes, a.locals, arguments⟩ = Job.wiped ⟨b.nodes, b.locals, arguments⟩ := by
        simp only [Job.wiped, nodes, locals]
      rw [ready, ready']
      dsimp only
      obtain ⟨cause, run, run', left, right, after⟩ | ⟨last, run, run', left, right, after⟩ := agrees_cases
        (follow_twin host acts jobs settled.driven (host.limits.maxSteps + 1) start (.entered 0) _ _ begun trivial)
      · rw [left, right]
        exact ⟨rfl, after.env, fun _ => after.stack⟩
      · rw [left, right]
        exact ⟨by simp only [after.returned], after.env, fun _ => after.stack⟩

structure BodiesTwin (left right : Body × Env σ) : Prop where
  wiped : left.1.wiped = right.1.wiped
  settled : left.1.graph.Settled
  settled' : right.1.graph.Settled
  env : left.2.Twin right.2

theorem wiped_structure (same : a.wiped = b.wiped) (inputs outputs : List Parameter) :
    (Body.mk a inputs outputs).checkStructure = (Body.mk b inputs outputs).checkStructure := by
  have nodes : a.nodes.map (·.withProgress .idle) = b.nodes.map (·.withProgress .idle) := congrArg Graph.nodes same
  have kinds : ∀ index kind, expectKind index kind a = expectKind index kind b := by
    intro index kind
    unfold expectKind
    obtain ⟨left, right⟩ | ⟨node, progress, left, right⟩ := wiped_node ⟨a.nodes, [], []⟩ ⟨b.nodes, [], []⟩
      (by simp only [Job.wiped, nodes]) index
    all_goals
      dsimp only at left right
      rw [left, right]
    rfl
  simp only [Body.checkStructure, kinds]

theorem placeholder_settled : Function.placeholder.body.graph.Settled := by
  refine ⟨rfl, ?_⟩
  decide

theorem call_with_twin (acts : ActivateTwin (activate host level)) (arguments : List Value)
    {body body' : Body} (same : body.wiped = body'.wiped) (settled : body.graph.Settled) (settled' : body'.graph.Settled)
    {other : Env σ} (twin : env.Twin other) :
    Agrees BodiesTwin (body.callWith (Graph.runWith host (activate host level) entryNode) arguments env)
      (body'.callWith (Graph.runWith host (activate host level) entryNode) arguments other) := by
  obtain ⟨graph, inputs, outputs⟩ := body
  obtain ⟨graph', inputs', outputs'⟩ := body'
  obtain ⟨graphs, rfl, rfl⟩ : graph.wiped = graph'.wiped ∧ inputs = inputs' ∧ outputs = outputs' := by
    simpa only [Body.wiped, Body.mk.injEq] using same
  have structures : (Body.mk graph' inputs outputs).checkStructure = (Body.mk graph inputs outputs).checkStructure :=
    (wiped_structure graphs.symm inputs outputs)
  unfold Body.callWith
  rw [structures]
  cases (Body.mk graph inputs outputs).checkStructure with
  | error => exact ⟨rfl, same, settled, settled', twin⟩
  | ok done =>
    dsimp only
    split
    · exact ⟨rfl, same, settled, settled', twin⟩
    · have ends := run_with_settled host level entryNode arguments graph env settled
      have ends' := run_with_settled host level entryNode arguments graph' other settled'
      have kept := run_with_wiped host level entryNode arguments graph env
      have kept' := run_with_wiped host level entryNode arguments graph' other
      obtain ⟨cause, next, next', left, right, after⟩ | ⟨outcome, next, next', left, right, after⟩ := agrees_cases
        (run_with_twin host acts entryNode arguments graphs settled settled' twin)
      all_goals
        rw [left] at ends kept ⊢
        rw [right] at ends' kept' ⊢
        refine ⟨rfl, ?_, ends, ends', after.env⟩
        simp only [Body.wiped, kept, kept', graphs]

theorem call_function_twin (acts : ActivateTwin (activate host level)) (guid : Guid)
    (arguments : List Value) (env other : Env σ) (twin : env.Twin other) :
    Agrees Env.Twin (callAt host level guid arguments env) (callAt host level guid arguments other) := by
  have places : env.functions.findIdx? (·.guid == guid) = other.functions.findIdx? (·.guid == guid) := by
    have guids : ∀ functions : List Function, functions.findIdx? (·.guid == guid) =
        (functions.map Function.wiped).findIdx? (·.guid == guid) := by
      intro functions
      rw [List.findIdx?_map]
      rfl
    rw [guids env.functions, guids other.functions, twin.functions]
  unfold callAt callFunctionWith
  rw [twin.callStack, places]
  split
  · exact ⟨rfl, twin⟩
  · split
    · exact ⟨rfl, twin⟩
    · cases other.functions.findIdx? (·.guid == guid) with
      | none => exact ⟨rfl, twin⟩
      | some position =>
        have entries := congrArg (·[position]?) twin.functions
        simp only [List.getElem?_map] at entries
        dsimp only
        cases ours : env.functions[position]? with
        | none =>
          rw [ours, Option.map_none] at entries
          rw [Option.map_eq_none_iff.mp entries.symm]
          exact ⟨rfl, twin⟩
        | some callee =>
          rw [ours, Option.map_some] at entries
          obtain ⟨callee', theirs, same⟩ := Option.map_eq_some_iff.mp entries.symm
          rw [theirs]
          dsimp only
          obtain ⟨guids, names, bodies⟩ : callee'.guid = callee.guid ∧ callee'.name = callee.name ∧
              callee'.body.wiped = callee.body.wiped := by
            simpa only [Function.wiped, Function.mk.injEq] using same
          have inside : Env.Twin
              { env with
                functions := env.functions.set position Function.placeholder
                callStack := guid :: other.callStack }
              { other with
                functions := other.functions.set position Function.placeholder
                callStack := guid :: other.callStack } :=
            { twin with
              functions := by simp only [List.map_set, twin.functions]
              callStack := rfl
              settled := all_set _ _ _ _ twin.settled placeholder_settled
              settled' := all_set _ _ _ _ twin.settled' placeholder_settled }
          obtain ⟨result, after⟩ := call_with_twin acts arguments bodies.symm
            (twin.settled callee (List.mem_of_getElem? ours)) (twin.settled' callee' (List.mem_of_getElem? theirs)) inside
          refine ⟨result, { after.env with
            functions := ?_
            callStack := congrArg List.tail after.env.callStack
            settled := all_set _ _ _ _ after.env.settled after.settled
            settled' := all_set _ _ _ _ after.env.settled' after.settled' }⟩
          simp only [List.map_set, after.env.functions, Function.wiped, guids, names, after.wiped]

theorem activate_twin (host : Host σ) (level : Nat) : ActivateTwin (activate host level) := by
  induction level with
  | zero => exact fun _ _ _ _ _ _ _ _ _ _ _ twin => ⟨rfl, twin⟩
  | succ level ih =>
    intro job other known index activation depth run run' same driven due twin
    unfold activate
    obtain ⟨cause, env, env', left, right, counted⟩ | ⟨_, env, env', left, right, counted⟩ :=
      agrees_cases (twin_step host.limits twin.env)
    · rw [left, right]
      exact ⟨rfl, { twin with env := counted }⟩
    · rw [left, right]
      dsimp only
      obtain ⟨mine, yours⟩ | ⟨node, progress, mine, yours⟩ := wiped_node job other same index
      · rw [mine, yours]
        exact ⟨rfl, { twin with env := counted }⟩
      · have pins : (node.withProgress progress).inputs = node.inputs := rfl
        rw [mine, yours, counted.callStack]
        dsimp only
        rw [pins]
        have begun : Twin known ((run.withEnv env).note (.began ⟨env'.callStack, index, activation⟩))
            ((run'.withEnv env').note (.began ⟨env'.callStack, index, activation⟩)) :=
          { twin with env := twin_note counted _ }
        obtain ⟨cause, ready, ready', left, right, after⟩ | ⟨inputs, ready, ready', left, right, after⟩ :=
          agrees_cases (gather_twin host.limits same known (pullAt host level job depth)
            (fun source run => activate host level other source .pulled (depth + 1) run)
            (fun source run run' implicit => ih job other known source .pulled (depth + 1) run run' same driven implicit)
            depth node.inputs _ _ begun)
        · rw [left, right]
          exact ⟨rfl, after⟩
        · rw [left, right]
          dsimp only
          have blind : node.kind.takesTurns = false ∨ (∃ pin, activation = .entered pin) ∨
              ready.frame.progressOf index = ready'.frame.progressOf index := by
            cases activation with
            | entered pin => exact .inr (.inl ⟨pin, rfl⟩)
            | resumed => exact .inr (.inr (after.progress index (.inl due)))
            | pulled =>
              refine .inl (Bool.eq_false_iff.mpr fun turns => ?_)
              have implicit : job.pulls index = true := due
              rw [pulls_implicit mine, driven node (List.mem_of_getElem? mine) turns] at implicit
              cases implicit
          obtain ⟨cause, done, done', left, right, after⟩ | ⟨given, done, done', left, right, after⟩ := agrees_cases
            (perform_twin host _ (call_function_twin ih) same known progress
              inputs after blind)
          · rw [left, right]
            exact ⟨rfl, after⟩
          · rw [left, right]
            dsimp only
            obtain ⟨cause, last, last', left, right, after⟩ | ⟨_, last, last', left, right, after⟩ := agrees_cases
              (store_outputs_twin known index node progress given.1 after)
            · rw [left, right]
              exact ⟨rfl, after⟩
            · rw [left, right]
              exact ⟨rfl, { after with env := twin_note after.env _ }⟩

theorem wiped_stable (host : Host σ) : EnvStable host (fun a b => a.wiped = b.wiped)
    fun a b => a.functions.map Function.wiped = b.functions.map Function.wiped where
  refl _ := rfl
  trans first second := first.trans second
  counted _ _ := rfl
  noted _ _ := rfl
  assigned _ _ _ := rfl
  changed _ _ _ := rfl
  still _ := rfl
  ran level arguments graph env := (run_with_wiped host level entryNode arguments graph env).symm
  called env after guid position callee graph _ _ there ran kept := by
    have back : ({ callee with body := { callee.body with graph := graph } } : Function).wiped = callee.wiped := by
      simp only [Function.wiped, Body.wiped, ran]
    obtain ⟨inside, same⟩ := List.getElem?_eq_some_iff.mp there
    rw [List.map_set, ← kept, List.map_set, List.set_set, back, ← same, ← List.map_set, List.set_getElem_self]

theorem settled_stable (host : Host σ) :
    EnvStable host (fun a b => a.Settled → b.Settled) fun a b => a.Settled → b.Settled :=
  graphs_stable host Graph.Settled placeholder_settled fun level => run_with_settled host level entryNode

/-- Two runs came to the same: the result, the graph but for how far its nodes are, all that lies outside, and the stack if a
node was there to start at. -/
structure SameRun (begins : Prop) (left right : Except ScriptError Outcome × Graph × Env σ) : Prop where
  result : left.1 = right.1
  graph : left.2.1.wiped = right.2.1.wiped
  outside : left.2.2.wiped = right.2.2.wiped
  stack : begins → left.2.1.stack = right.2.1.stack

theorem same_run (host : Host σ) (start : Nat) (arguments : List Value) {other : Env σ}
    (compiled : a.isCompiled = true) (copies : a.wiped = b.wiped) (settled : a.Settled) (settled' : b.Settled)
    (alike : env.wiped = other.wiped) (calls : env.Settled) (calls' : other.Settled) :
    SameRun (start < a.nodes.length) (a.run host start arguments env) (b.run host start arguments other) := by
  obtain ⟨result, after⟩ := run_with_twin host (activate_twin host _) start arguments copies settled settled'
    (twin_of_wiped alike calls calls')
  have kept := run_with_wiped host (host.limits.maxSteps + 1) start arguments a env
  have kept' := run_with_wiped host (host.limits.maxSteps + 1) start arguments b other
  exact ⟨result, kept.trans (copies.trans kept'.symm), twin_wiped after.env, fun there => after.stack ⟨compiled, there⟩⟩

/-- Runs of two copies of a graph come to the same, whatever earlier runs left behind in the copies and in the functions that
they call. So a run comes to the same after any earlier run, however that one ended. -/
theorem runs_independent_of_earlier_runs (host : Host σ) (start : Nat) (arguments : List Value) (a b : Graph)
    (env other : Env σ) (compiled : a.isCompiled = true) (copies : a.wiped = b.wiped) (settled : a.Settled)
    (settled' : b.Settled) (alike : env.wiped = other.wiped) (calls : env.Settled) (calls' : other.Settled) :
    SameRun (start < a.nodes.length) (a.run host start arguments env) (b.run host start arguments other) ∧
      ∀ (earlier : Host σ) (first : Nat) (given : List Value) (before : Env σ), before.functions = env.functions →
        SameRun (start < a.nodes.length) (a.run host start arguments env)
          ((a.run earlier first given before).2.1.run host start arguments
            { env with functions := (a.run earlier first given before).2.2.functions }) := by
  refine ⟨same_run host start arguments compiled copies settled settled' alike calls calls',
    fun earlier first given before functions => ?_⟩
  have left := run_with_wiped earlier (earlier.limits.maxSteps + 1) first given a before
  have rests := run_with_settled earlier (earlier.limits.maxSteps + 1) first given a before settled
  have wiped := (wiped_stable earlier).run_with _ ((wiped_stable earlier).activate (earlier.limits.maxSteps + 1)) first given a
    before
  have stays := (settled_stable earlier).run_with _ ((settled_stable earlier).activate (earlier.limits.maxSteps + 1)) first
    given a before (fun function member => calls function (functions ▸ member))
  refine same_run host start arguments compiled left.symm settled rests ?_ calls stays
  rw [functions] at wiped
  simp only [Env.wiped]
  rw [wiped]
  rfl

/-- A run of the loops is cut off inside the inner one. The next run comes to the same as a first one. -/
theorem runs_independent_after_step_limit :
    let host : Host Unit := ⟨Catalog.empty, none, ⟨100, 4, 4⟩⟩
    let strict : Host Unit := ⟨Catalog.empty, none, ⟨3, 4, 4⟩⟩
    let env : Env Unit := Env.start [] [Function.placeholder] ()
    let cut := brokenLoops.run strict 0 [] env
    cut.1 = .error (.stepLimitExceeded 3) ∧ (cut.2.1.nodes.map (·.progress)) = [.idle, .counting 0 3, .counting 0 3] ∧
      (cut.2.1.run host 0 [] env).1 = .ok ⟨some 1, none⟩ ∧
      SameRun True (brokenLoops.run host 0 [] env) (cut.2.1.run host 0 [] env) := by
  intro host strict env cut
  have settled : brokenLoops.Settled := by
    refine ⟨rfl, ?_⟩
    decide
  have rests : cut.2.1.Settled := run_with_settled strict 4 0 [] brokenLoops env settled
  have calls : env.Settled := by
    intro function member
    obtain rfl : function = Function.placeholder := by simpa [env, Env.start] using member
    exact placeholder_settled
  have copies : brokenLoops.wiped = cut.2.1.wiped := (run_with_wiped strict 4 0 [] brokenLoops env).symm
  obtain ⟨same, _⟩ := runs_independent_of_earlier_runs host 0 [] brokenLoops cut.2.1 env env rfl copies settled rests rfl
    calls calls
  have ends : (brokenLoops.run host 0 [] env).1 = .ok ⟨some 1, none⟩ := rfl
  exact ⟨rfl, rfl, same.result.symm.trans ends, { same with stack := fun _ => same.stack (by decide) }⟩

/-- A run that finds no node to start at does not come to prepare the stack. -/
theorem stack_stays_without_start :
    let host : Host Unit := ⟨Catalog.empty, none, ⟨100, 4, 4⟩⟩
    let env : Env Unit := Env.start [] [] ()
    let graph := (Graph.empty.addNode (Node.functionEntry [⟨"A", .int⟩])).compile.2
    let a := (graph.run host 0 [.int 7] env).2.1
    let b := (graph.run host 0 [.int 8] env).2.1
    a.isCompiled = true ∧ a.wiped = b.wiped ∧ a.Settled ∧ b.Settled ∧ env.Settled ∧
      (a.run host 5 [] env).2.1.stack ≠ (b.run host 5 [] env).2.1.stack := by
  intro host env graph a b
  have settled : graph.Settled := by
    refine ⟨rfl, ?_⟩
    decide
  have places : (a.run host 5 [] env).2.1.stack = [.int 7] ∧ (b.run host 5 [] env).2.1.stack = [.int 8] := ⟨rfl, rfl⟩
  refine ⟨rfl, rfl, run_with_settled host 101 0 [.int 7] graph env settled,
    run_with_settled host 101 0 [.int 8] graph env settled, fun _ member => absurd member List.not_mem_nil, ?_⟩
  rw [places.1, places.2]
  simp

end Patchbay
