import Patchbay.Proofs.Budget
import Patchbay.Proofs.Independence
import Patchbay.Proofs.Strict

set_option autoImplicit false

namespace Patchbay

variable {σ : Type}

structure Graph.Sound (graph : Graph) : Prop where
  fresh : graph.Fresh
  rests : graph.AtRest

def Env.Sound (env : Env σ) : Prop := ∀ function ∈ env.functions, function.body.graph.Sound

theorem placeholder_sound : Function.placeholder.body.graph.Sound := ⟨fresh_of_uncompiled _ rfl, rfl⟩

theorem run_with_sound (host : Host σ) (level start : Nat) (arguments : List Value) (graph : Graph) (env : Env σ)
    (sound : graph.Sound) : (graph.runWith host (activate host level) start arguments env).2.1.Sound :=
  ⟨run_with_fresh host level start arguments env sound.fresh,
    run_with_at_rest host _ start arguments graph env sound.rests⟩

theorem sound_stable (host : Host σ) : EnvStable host (fun a b => a.Sound → b.Sound) fun a b => a.Sound → b.Sound :=
  graphs_stable host Graph.Sound placeholder_sound fun level => run_with_sound host level entryNode

theorem functions_length_stable (host : Host σ) :
    EnvStable host (fun _ _ => True) fun a b => b.functions.length = a.functions.length where
  refl _ := rfl
  trans first second := second.trans first
  counted _ _ := rfl
  noted _ _ := rfl
  assigned _ _ _ := rfl
  changed _ _ _ := rfl
  still _ := trivial
  ran _ _ _ _ := trivial
  called env after guid position callee graph _ _ _ _ kept := by simpa using kept

structure Held (graph : Graph) (frame : Frame) : Prop where
  stack : frame.stack.length = graph.locals.length + widths graph.layouts
  points : ∀ point ∈ frame.returnPoints, point < graph.nodes.length

theorem held_stable (graph : Graph) (arguments : List Value) :
    FrameStable (graph.job arguments) (fun _ _ => True) fun a b => Held graph a → Held graph b where
  refl _ := id
  trans first second := second ∘ first
  pulls _ _ := trivial
  effect frame index node activation inputs effect _ found _ held := by
    refine ⟨held.stack, fun point member => ?_⟩
    obtain rfl | old := point_applied member
    · exact (List.getElem?_eq_some_iff.mp found).1
    · exact held.points point old
  returned _ _ held := ⟨held.stack, held.points⟩
  stack _ _ same held := ⟨same.trans held.stack, held.points⟩

structure Safe (graph : Graph) (run : Run σ) : Prop where
  held : Held graph run.frame
  sound : run.env.Sound

section

variable (host : Host σ) (graph : Graph) (arguments : List Value)

variable {run : Run σ}

theorem safe_activate (level index : Nat) (activation : Activation) (depth : Nat) (safe : Safe graph run) :
    Safe graph (activate host level (graph.job arguments) index activation depth run).2 :=
  ⟨(held_stable graph arguments).activate host level index activation depth run trivial safe.held,
    (sound_stable host).activate level (graph.job arguments) index activation depth run safe.sound⟩

theorem safe_read_input (level depth : Nat) (pin : InputPin) (safe : Safe graph run) :
    Safe graph (readInput host.limits (graph.job arguments)
      (pullAt host level (graph.job arguments) depth) depth pin run).2 :=
  ⟨(held_stable graph arguments).read_input host.limits _ depth pin run
      (fun source run _ => (held_stable graph arguments).activate host level source .pulled (depth + 1) run trivial) safe.held,
    (sound_stable host).read_input host.limits _ _ depth pin run
      (fun source run => (sound_stable host).activate level _ source .pulled (depth + 1) run) safe.sound⟩

theorem safe_gather (level depth : Nat) (pins : List InputPin) (safe : Safe graph run) :
    Safe graph (gather host.limits (graph.job arguments) (pullAt host level (graph.job arguments) depth) depth pins run).2 :=
  ⟨(held_stable graph arguments).gather host.limits _ depth pins run
      (fun source run _ => (held_stable graph arguments).activate host level source .pulled (depth + 1) run trivial) safe.held,
    (sound_stable host).gather host.limits _ _ depth pins run
      (fun source run => (sound_stable host).activate level _ source .pulled (depth + 1) run) safe.sound⟩

theorem safe_perform (level : Nat) {index : Nat} {node : Node} (found : graph.nodes[index]? = some node) (activation : Activation)
    (inputs : List Value) (safe : Safe graph run) :
    Safe graph (perform host (callAt host level) (graph.job arguments) index node activation inputs run).2 :=
  ⟨(held_stable graph arguments).perform host _ activation inputs run trivial found safe.held,
    (sound_stable host).perform _ ((sound_stable host).call_function level ((sound_stable host).activate level)) _ index node
      activation inputs run safe.sound⟩

end

variable {graph ready : Graph} {frame : Frame} {index level depth : Nat} {run : Run σ} {job : Job} {host : Host σ}
  {arguments : List Value} {node : Node} {env : Env σ}

theorem local_slots_held (arguments : List Value) (held : Held graph frame) :
    Strict.localSlots? (graph.job arguments) frame = some (frame.stack.take graph.locals.length) :=
  if_pos (held.stack ▸ Nat.le_add_right _ _)

theorem local_slot (held : Held graph frame) (inside : index < graph.locals.length) :
    ∃ value, frame.stack[index]? = some value ∧ (frame.stack.take graph.locals.length)[index]? = some value := by
  have long : index < frame.stack.length := by
    have size := held.stack
    omega
  refine ⟨frame.stack[index], List.getElem?_eq_getElem long, ?_⟩
  rw [List.getElem?_take_of_lt inside, List.getElem?_eq_getElem long]

theorem read_variable_in_range (arguments : List Value) (reference : Reference) (held : Held graph run.frame) :
    Strict.readVariable (graph.job arguments) reference run = some (run.readVariable (graph.job arguments) reference) := by
  unfold Strict.readVariable
  rw [Run.read_resolved, local_slots_held arguments held]
  dsimp only [bind, Option.bind]
  cases resolved : reference.resolve? (graph.job arguments).locals run.env.vars with
  | none => rfl
  | some place =>
    obtain ⟨isLocal, index⟩ := place
    cases isLocal with
    | true =>
      obtain ⟨value, there, front⟩ := local_slot held (Reference.resolve_local _ _ _ resolved)
      dsimp only
      rw [there, front]
      rfl
    | false =>
      have inside := Reference.resolve_global _ _ _ resolved
      dsimp only
      rw [List.getElem?_eq_getElem inside]
      rfl

theorem write_variable_in_range (arguments : List Value) (reference : Reference) (value : Value) (held : Held graph run.frame) :
    Strict.writeVariable (graph.job arguments) reference value run =
      some (run.writeVariable (graph.job arguments) reference value) := by
  unfold Strict.writeVariable
  rw [Run.write_resolved, local_slots_held arguments held]
  dsimp only [bind, Option.bind]
  cases resolved : reference.resolve? (graph.job arguments).locals run.env.vars with
  | none => rfl
  | some place =>
    obtain ⟨isLocal, index⟩ := place
    cases isLocal with
    | true =>
      have inside : index < (graph.job arguments).locals.length := Reference.resolve_local _ _ _ resolved
      obtain ⟨old, _, front⟩ := local_slot held inside
      dsimp only [Run.coerceTo]
      rw [List.getElem?_eq_getElem inside, front]
      rfl
    | false =>
      have inside := Reference.resolve_global _ _ _ resolved
      dsimp only
      rw [List.modify_eq_set_getElem?, List.getElem?_eq_getElem inside]
      rfl

theorem strict_cases {α S : Type} {strict : Option (Except ScriptError α × S)} {outcome : Except ScriptError α × S}
    (same : strict = some outcome) :
    (∃ cause after, strict = some (.error cause, after) ∧ outcome = (.error cause, after)) ∨
      ∃ value after, strict = some (.ok value, after) ∧ outcome = (.ok value, after) := by
  obtain ⟨result, after⟩ := outcome
  cases result with
  | error cause => exact .inl ⟨cause, after, same, rfl⟩
  | ok value => exact .inr ⟨value, after, same, rfl⟩

def PullsStrict (host : Host σ) (graph : Graph) (arguments : List Value) (level depth : Nat) : Prop :=
  ∀ source run, source < graph.nodes.length → Safe graph run →
    Strict.activate host level (graph.job arguments) source .pulled (depth + 1) run =
      some (activate host level (graph.job arguments) source .pulled (depth + 1) run)

theorem pulls_inside {source : Nat} (implicit : job.pulls source = true) : source < job.nodes.length := by
  unfold Job.pulls at implicit
  cases found : job.nodes[source]? with
  | none => simp [found] at implicit
  | some node => exact (List.getElem?_eq_some_iff.mp found).1

theorem read_input_in_range {pin : Nat}
    (pulls : PullsStrict host graph arguments level depth) (found : graph.nodes[index]? = some node)
    {input : InputPin} (there : node.inputs[pin]? = some input) (safe : Safe graph run) :
    Strict.readInput host.limits (graph.job arguments)
        (fun source run => Strict.activate host level (graph.job arguments) source .pulled (depth + 1) run) depth index pin run =
      some (readInput host.limits (graph.job arguments) (pullAt host level (graph.job arguments) depth) depth input run) := by
  have node_there : (graph.job arguments).nodes[index]? = some node := found
  unfold Strict.readInput readInput
  rw [node_there]
  dsimp only [bind, Option.bind]
  rw [there]
  dsimp only
  cases input.source with
  | none => rfl
  | some source =>
    cases input.slot with
    | none => rfl
    | some slot =>
      dsimp only
      by_cases implicit : (graph.job arguments).pulls source.node = true
      · rw [if_pos implicit, if_pos implicit]
        by_cases deep : host.limits.maxImplicitDepth ≤ depth
        · rw [if_pos deep, if_pos deep]
          rfl
        · rw [if_neg deep, if_neg deep]
          obtain ⟨cause, after, left, right⟩ | ⟨value, after, left, right⟩ :=
            strict_cases (pulls source.node run (pulls_inside implicit) safe)
          all_goals
            rw [left, pullAt, right]
            rfl
      · rw [if_neg implicit, if_neg implicit]
        rfl

theorem gather_in_range
    (pulls : PullsStrict host graph arguments level depth) (found : graph.nodes[index]? = some node)
    {count : Nat} (pin : Nat) (rest : pin + count = node.inputs.length) (run : Run σ) (safe : Safe graph run) :
    Strict.gather host.limits (graph.job arguments)
        (fun source run => Strict.activate host level (graph.job arguments) source .pulled (depth + 1) run) depth index
        count pin run =
      some (gather host.limits (graph.job arguments) (pullAt host level (graph.job arguments) depth) depth
        (node.inputs.drop pin) run) := by
  -- The inputs are taken by index, up to the number that the node has.
  induction count generalizing pin run with
  | zero =>
    rw [List.drop_of_length_le (by omega)]
    rfl
  | succ count ih =>
    have inside : pin < node.inputs.length := by omega
    have read := read_input_in_range pulls found
      (List.getElem?_eq_getElem inside) safe
    have after := safe_read_input host graph arguments level depth node.inputs[pin] safe
    rw [List.drop_eq_getElem_cons inside]
    unfold Strict.gather gather
    obtain ⟨cause, next, left, right⟩ | ⟨value, next, left, right⟩ := strict_cases read
    · rw [left, right]
      rfl
    · rw [right] at after
      rw [left, right]
      dsimp only [bind, Option.bind]
      obtain ⟨cause, last, left, right⟩ | ⟨values, last, left, right⟩ := strict_cases (ih (pin + 1) (by omega) next after)
      all_goals
        rw [left, right]
        rfl

theorem store_outputs_in_range (laid : graph.LaidOut)
    (found : graph.nodes[index]? = some node) (outputs : List Value) (held : Held graph run.frame) :
    Strict.storeOutputs index node outputs run = some (storeOutputs index node outputs run) := by
  have region := region_inside laid (slot_layout found)
  simp only [Node.layout] at region
  have size := held.stack
  unfold Strict.storeOutputs storeOutputs
  by_cases count : outputs.length ≠ node.outputs.length
  · rw [if_pos count, if_pos count]
  · rw [if_neg count, if_neg count]
    have same := not_not.mp count
    have fits : ¬ run.frame.stack.length < node.base + outputs.length := by omega
    rw [if_neg fits, if_neg fits]

theorem successor_in_range (inside : index < job.nodes.length) (next : Option Nat)
    (points : List Nat) : Strict.successor job index next points = some (successor job index next points) := by
  unfold Strict.successor successor Job.execPin?
  cases next with
  | none => rfl
  | some pin =>
    dsimp only [bind, Option.bind]
    rw [List.getElem?_eq_getElem inside]
    dsimp only
    cases job.nodes[index].execOut[pin]? with
    | none => rfl
    | some exec =>
      dsimp only
      cases exec.target <;> rfl

theorem successor_inside (laid : graph.LaidOut) {node : Nat}
    {next : Option Nat} (held : Held graph frame) {way : Activation}
    (leads : successor (graph.job arguments) index next frame.returnPoints = .ok (some (node, way))) :
    node < graph.nodes.length := by
  obtain ⟨origin, pin, exec, target, there, found, goes, rfl, rfl⟩ | ⟨_, member⟩ :=
    successor_ways leads
  · have led : some target ∈ origin.layout.targets := List.mem_map.mpr ⟨exec, List.mem_of_getElem? found, goes⟩
    obtain ⟨entry, enters, _⟩ := laid.targets origin.layout (List.mem_map_of_mem (List.mem_of_getElem? there)) target led
    simpa [Graph.layouts] using (List.getElem?_eq_some_iff.mp enters).1
  · exact held.points node member

theorem perform_in_range (host : Host σ) (arguments : List Value) (strict : Strict.Call σ) (call : Call σ)
    (calls : ∀ guid values env, Env.Sound env → strict guid values env = some (call guid values env)) (index : Nat)
    (node : Node) (activation : Activation) (inputs : List Value) (safe : Safe graph run) :
    Strict.perform host strict (graph.job arguments) index node activation inputs run =
      some (perform host call (graph.job arguments) index node activation inputs run) := by
  unfold Strict.perform
  rw [local_slots_held arguments safe.held]
  dsimp only [bind, Option.bind]
  split
  · next reference kind =>
      rw [read_variable_in_range arguments reference safe.held]
      simp only [perform, Effect.ofNode?, kind]
      rfl
  · next reference kind =>
      rw [write_variable_in_range arguments reference _ safe.held]
      dsimp only
      cases written : run.writeVariable (graph.job arguments) reference (Node.input inputs 0) with
      | error =>
        simp only [perform, Effect.ofNode?, kind, written]
        rfl
      | ok next =>
        have held := (held_stable graph arguments).write_variable written safe.held
        simp only [perform, Effect.ofNode?, kind, written]
        rw [read_variable_in_range arguments reference held]
        rfl
  · next function kind =>
      rw [call_function_performed host call (graph.job arguments) index activation inputs run kind, consult]
      obtain ⟨cause, after, left, right⟩ | ⟨outputs, after, left, right⟩ :=
        strict_cases (calls function inputs run.env safe.sound)
      all_goals
        rw [left, right]
        rfl
  · next notRead notWritten other =>
      have performed := perform_call host (fun _ _ env => (.ok [], env)) call (graph.job arguments) index node activation
        inputs run other
      rw [performed]
      rfl

def ActivateStrict (host : Host σ) (level : Nat) : Prop :=
  ∀ graph : Graph, graph.LaidOut → ∀ arguments index activation depth run, index < graph.nodes.length → Safe graph run →
    Strict.activate host level (graph.job arguments) index activation depth run =
      some (activate host level (graph.job arguments) index activation depth run)

theorem follow_in_range (acts : ActivateStrict host level) (laid : graph.LaidOut)
    (arguments : List Value) (fuel index : Nat) (activation : Activation) (run : Run σ) (inside : index < graph.nodes.length)
    (safe : Safe graph run) :
    Strict.follow host (Strict.activate host level) (graph.job arguments) fuel index activation run =
      some (follow host (activate host level) (graph.job arguments) fuel index activation run) := by
  induction fuel generalizing index activation run with
  | zero => rfl
  | succ fuel ih =>
    have after := safe_activate host graph arguments level index activation 0 safe
    unfold Strict.follow follow
    obtain ⟨cause, done, left, right⟩ | ⟨next, done, left, right⟩ :=
      strict_cases (acts graph laid arguments index activation 0 run inside safe)
    · rw [left, right]
      rfl
    · rw [right] at after
      rw [left, right]
      dsimp only [bind, Option.bind]
      rw [successor_in_range inside]
      dsimp only
      cases leads : successor (graph.job arguments) index next done.frame.returnPoints with
      | error => rfl
      | ok way =>
        cases way with
        | none => rfl
        | some way =>
          exact ih way.1 way.2 done
            (successor_inside laid after.held leads) after

theorem prepared_held (sound : graph.Sound) (prepared : graph.prepare = (.ok (), ready)) :
    graph.LaidOut ∧ Held graph ready.frame := by
  obtain ⟨size, sized, rfl⟩ := prepare_ok prepared
  have laid : graph.LaidOut := sound.fresh (by rw [Graph.isCompiled, sized]; rfl)
  have none : graph.returnPoints = [] := sound.rests
  refine ⟨laid, (Holds.initial laid size sized).length, ?_⟩
  simp [Graph.frame, none]

theorem prepared_safe (sound : graph.Sound) (prepared : graph.prepare = (.ok (), ready))
    (calls : env.Sound) : graph.LaidOut ∧ Safe graph ⟨ready.frame, env⟩ := by
  obtain ⟨laid, held⟩ := prepared_held sound prepared
  exact ⟨laid, held, calls⟩

theorem run_with_in_range (acts : ActivateStrict host level) (start : Nat)
    (arguments : List Value) (sound : graph.Sound) (calls : env.Sound) :
    Strict.runWith host (Strict.activate host level) start arguments graph env =
      some (graph.runWith host (activate host level) start arguments env) := by
  unfold Strict.runWith Graph.runWith
  by_cases beyond : graph.nodes.length ≤ start
  · rw [if_pos beyond, if_pos beyond]
  · rw [if_neg beyond, if_neg beyond]
    cases prepared : graph.prepare with
    | mk result =>
      cases result with
      | error => rfl
      | ok _ =>
        obtain ⟨laid, safe⟩ := prepared_safe sound prepared calls
        obtain ⟨size, _, rfl⟩ := prepare_ok prepared
        have followed := follow_in_range acts laid arguments (host.limits.maxSteps + 1) start (.entered 0)
          _ (Nat.lt_of_not_le beyond) safe
        dsimp only [bind, Option.bind]
        rw [Graph.job] at followed
        obtain ⟨cause, after, left, right⟩ | ⟨last, after, left, right⟩ := strict_cases followed
        all_goals
          rw [left, right]
          rfl

theorem call_with_in_range (acts : ActivateStrict host level) (arguments : List Value)
    {body : Body} (sound : body.graph.Sound) (calls : env.Sound) :
    Strict.callWith host (Strict.activate host level) arguments body env =
      some (body.callWith (Graph.runWith host (activate host level) entryNode) arguments env) := by
  unfold Strict.callWith Body.callWith
  cases body.checkStructure with
  | error => rfl
  | ok _ =>
    dsimp only
    by_cases count : arguments.length ≠ body.inputs.length
    · rw [if_pos count, if_pos count]
    · rw [if_neg count, if_neg count]
      obtain ⟨cause, after, left, right⟩ | ⟨outcome, after, left, right⟩ :=
        strict_cases (run_with_in_range acts entryNode arguments sound calls)
      all_goals
        rw [left, right]
        rfl

theorem call_function_in_range (acts : ActivateStrict host level) (guid : Guid)
    (arguments : List Value) (sound : env.Sound) :
    Strict.callFunctionWith host (Strict.activate host level) guid arguments env =
      some (callAt host level guid arguments env) := by
  unfold Strict.callFunctionWith callAt callFunctionWith
  by_cases active : env.callStack.contains guid = true
  · rw [if_pos active, if_pos active]
  · rw [if_neg active, if_neg active]
    by_cases deep : host.limits.maxCallDepth ≤ env.callStack.length
    · rw [if_pos deep, if_pos deep]
    · rw [if_neg deep, if_neg deep]
      cases found : env.functions.findIdx? (·.guid == guid) with
      | none => rfl
      | some position =>
        obtain ⟨there, _⟩ := List.findIdx?_eq_some_iff_getElem.mp found
        have present := List.getElem?_eq_getElem there
        dsimp only [bind, Option.bind]
        rw [present]
        dsimp only
        have inside : Env.Sound { env with
            functions := env.functions.set position Function.placeholder
            callStack := guid :: env.callStack } :=
          all_set env.functions (·.body.graph.Sound) position Function.placeholder sound placeholder_sound
        have called := call_with_in_range acts arguments
          (sound _ (List.getElem_mem there)) inside
        obtain ⟨_, _, _, length⟩ := (functions_length_stable host).call_with level
          ((functions_length_stable host).activate level) arguments env.functions[position].body
          { env with
            functions := env.functions.set position Function.placeholder
            callStack := guid :: env.callStack }
        rw [called]
        rw [List.length_set] at length
        dsimp only
        rw [List.getElem?_eq_getElem (length ▸ there)]
        rfl

theorem activate_in_range (host : Host σ) (level : Nat) : ActivateStrict host level := by
  induction level with
  | zero =>
    intro graph laid arguments index activation depth run inside safe
    rfl
  | succ level ih =>
    intro graph laid arguments index activation depth run inside safe
    unfold Strict.activate activate
    cases counted : run.env.step host.limits with
    | mk result env =>
      cases result with
      | error => rfl
      | ok _ =>
        have found : (graph.job arguments).nodes[index]? = some graph.nodes[index] := List.getElem?_eq_getElem inside
        dsimp only [bind, Option.bind]
        rw [found]
        dsimp only
        have same : env.functions = run.env.functions := by
          have step := congrArg (fun result => result.2.functions) counted
          exact step.symm
        have begun : Safe graph ((run.withEnv env).note (.began ⟨env.callStack, index, activation⟩)) :=
          ⟨safe.held, fun function member => safe.sound function (same ▸ member)⟩
        have pulls : PullsStrict host graph arguments level depth := fun source run inside safe =>
          ih graph laid arguments source .pulled (depth + 1) run inside safe
        have read := gather_in_range pulls found 0 (Nat.zero_add _) _ begun
        have after := safe_gather host graph arguments level depth graph.nodes[index].inputs begun
        rw [List.drop_zero] at read
        obtain ⟨cause, ready, left, right⟩ | ⟨inputs, ready, left, right⟩ := strict_cases read
        · rw [left, right]
          rfl
        · rw [right] at after
          rw [left, right]
          dsimp only
          have worked := perform_in_range host arguments
            (Strict.callFunctionWith host (Strict.activate host level)) (callAt host level)
            (fun guid values env sound => call_function_in_range ih guid values sound) index
            graph.nodes[index] activation inputs after
          have done := safe_perform host graph arguments level found activation inputs
            after
          obtain ⟨cause, given, left, right⟩ | ⟨⟨outputs, next⟩, given, left, right⟩ := strict_cases worked
          · rw [left, right]
            rfl
          · rw [right] at done
            rw [left, right]
            dsimp only
            obtain ⟨cause, last, left, right⟩ | ⟨_, last, left, right⟩ := strict_cases
              (store_outputs_in_range laid found outputs done.held)
            all_goals
              rw [left, right]
              rfl

end Patchbay
