import Patchbay.Proofs.CompiledFlag
import Patchbay.Proofs.References
import Patchbay.Proofs.Unbounded

set_option autoImplicit false

namespace Patchbay

variable {σ : Type}

def TraceEntry.isEnded : TraceEntry → Bool
  | .began _ => false
  | .ended _ _ _ _ => true

def completed (trace : List TraceEntry) : Nat := trace.countP (·.isEnded)

theorem completed_ended (visit : Visit) (inputs outputs : List Value) (next : Option Nat) (trace : List TraceEntry) :
    completed (.ended visit inputs outputs next :: trace) = completed trace + 1 :=
  List.countP_cons_of_pos rfl

def ScriptError.isStepLimit : ScriptError → Bool
  | .stepLimitExceeded _ => true
  | _ => false

/-- What a part of a run takes from the budget. Every activation that is completed was counted, and the one beyond the limit
is not completed. The part fails with the step limit exactly if it attempted that one. -/
structure Charged {α : Type} (limits : Limits) (before : Env σ) (result : Except ScriptError α) (after : Env σ) : Prop where
  grows : before.steps ≤ after.steps
  bounded : after.steps ≤ limits.maxSteps + 1
  paid : completed after.trace + before.steps ≤ completed before.trace + min after.steps limits.maxSteps
  stops : result = .error (.stepLimitExceeded limits.maxSteps) ↔ limits.maxSteps < after.steps

/-- There is room for a further activation, and the levels that are left are no fewer than the
activations that the limit still allows. -/
structure Ample (limits : Limits) (level : Nat) (env : Env σ) : Prop where
  room : env.steps ≤ limits.maxSteps
  enough : limits.maxSteps < level + env.steps

namespace Charged

variable {α β : Type} {limits : Limits} {level : Nat} {a b c : Env σ} {result : Except ScriptError α}

theorem free (room : a.steps ≤ limits.maxSteps) (steps : b.steps = a.steps) (trace : b.trace = a.trace)
    (other : ∀ cause, result = .error cause → cause.isStepLimit = false) : Charged limits a result b := by
  refine ⟨by omega, by omega, by rw [trace]; omega, fun failed => ?_, fun beyond => by omega⟩
  cases other _ failed

theorem done (room : a.steps ≤ limits.maxSteps) (value : α) : Charged limits a (.ok value) a :=
  free room rfl rfl fun _ failed => by cases failed

theorem failed (room : a.steps ≤ limits.maxSteps) (cause : ScriptError) (other : cause.isStepLimit = false) :
    Charged (α := α) limits a (.error cause) a := by
  refine free room rfl rfl fun _ failed => ?_
  cases failed
  exact other

theorem room (charged : Charged limits a result b) (value : α) (ok : result = .ok value) : b.steps ≤ limits.maxSteps := by
  refine Nat.le_of_not_lt fun beyond => ?_
  have failed := charged.stops.mpr beyond
  rw [ok] at failed
  cases failed

theorem ample (charged : Charged limits a result b) (value : α) (ok : result = .ok value) (enough : Ample limits level a) :
    Ample limits level b :=
  ⟨charged.room value ok, Nat.lt_of_lt_of_le enough.enough (Nat.add_le_add_left charged.grows level)⟩

theorem trans {other : Except ScriptError β} (first : Charged limits a result b) (value : α) (ok : result = .ok value)
    (second : Charged limits b other c) : Charged limits a other c := by
  have room := first.room value ok
  have paid := first.paid
  have paid' := second.paid
  exact ⟨Nat.le_trans first.grows second.grows, second.bounded, by omega, second.stops⟩

theorem fails {cause : ScriptError} (charged : Charged (α := α) limits a (.error cause) b) :
    Charged (α := β) limits a (.error cause) b :=
  { charged with stops := by simpa using charged.stops }

theorem counted (charged : Charged limits b result c) (steps : b.steps = a.steps + 1)
    (same : completed b.trace = completed a.trace) : Charged limits a result c ∧ a.steps < c.steps := by
  -- An activation is counted before its work, and completed after it if all went well.
  obtain ⟨grows, bounded, paid, stops⟩ := charged
  exact ⟨⟨by omega, bounded, by omega, stops⟩, by omega⟩

theorem ended (value : α) (charged : Charged limits b (.ok value) c) (steps : b.steps = a.steps + 1)
    (same : completed b.trace = completed a.trace) (visit : Visit) (inputs outputs : List Value) (next : Option Nat) :
    Charged limits a (.ok value) (c.note (.ended visit inputs outputs next)) ∧ a.steps < c.steps := by
  obtain ⟨grows, bounded, paid, stops⟩ := charged
  have more : completed (c.note (.ended visit inputs outputs next)).trace = completed c.trace + 1 :=
    completed_ended visit inputs outputs next c.trace
  have still : (c.note (.ended visit inputs outputs next)).steps = c.steps := rfl
  exact ⟨⟨by omega, bounded, by omega, stops⟩, by omega⟩

end Charged

structure Spends {α S : Type} (limits : Limits) (env : S → Env σ) (before : Env σ) (unbounded : Option (Except ScriptError α × S))
    (bounded : Except ScriptError α × S) : Prop where
  same : unbounded = some bounded
  charged : Charged limits before bounded.1 (env bounded.2)

theorem spends_cases {α S : Type} {limits : Limits} {env : S → Env σ} {before : Env σ}
    {unbounded : Option (Except ScriptError α × S)} {bounded : Except ScriptError α × S}
    (spends : Spends limits env before unbounded bounded) :
    (∃ cause after, unbounded = some (.error cause, after) ∧ bounded = (.error cause, after) ∧
      Charged (α := α) limits before (.error cause) (env after)) ∨
    (∃ value after, unbounded = some (.ok value, after) ∧ bounded = (.ok value, after) ∧
      Charged limits before (.ok value) (env after)) := by
  obtain ⟨same, charged⟩ := spends
  obtain ⟨result, after⟩ := bounded
  cases result with
  | error cause => exact .inl ⟨cause, after, same, rfl, charged⟩
  | ok value => exact .inr ⟨value, after, same, rfl, charged⟩

variable {host : Host σ} {level : Nat}

theorem read_input_spends (job : Job)
    (pull : Nat → Run σ → Except ScriptError (Option Nat) × Run σ) (depth : Nat)
    (pulls : ∀ source run, Ample host.limits level run.env → Spends host.limits Run.env run.env
      (Unbounded.activate host job source .pulled (depth + 1) run) (pull source run))
    (pin : InputPin) {run : Run σ} (ample : Ample host.limits level run.env) :
    Spends host.limits Run.env run.env (Unbounded.readInput host job depth pin run)
      (readInput host.limits job pull depth pin run) := by
  rw [Unbounded.readInput]
  unfold readInput
  cases pin.source with
  | none => exact ⟨rfl, .done ample.room _⟩
  | some source =>
    cases pin.slot with
    | none => exact ⟨rfl, .done ample.room _⟩
    | some slot =>
      dsimp only
      by_cases implicit : job.pulls source.node = true
      · rw [if_pos implicit, if_pos implicit]
        by_cases deep : host.limits.maxImplicitDepth ≤ depth
        · rw [if_pos deep, if_pos deep]
          exact ⟨rfl, .failed ample.room _ rfl⟩
        · rw [if_neg deep, if_neg deep]
          obtain ⟨cause, after, left, right, charged⟩ | ⟨value, after, left, right, charged⟩ :=
            spends_cases (pulls source.node run ample)
          · rw [left, right]
            exact ⟨rfl, charged.fails⟩
          · rw [left, right]
            exact ⟨rfl, charged.trans value rfl (.done (charged.room value rfl) _)⟩
      · rw [if_neg implicit, if_neg implicit]
        exact ⟨rfl, .done ample.room _⟩

theorem gather_spends (job : Job)
    (pull : Nat → Run σ → Except ScriptError (Option Nat) × Run σ) (depth : Nat)
    (pulls : ∀ source run, Ample host.limits level run.env → Spends host.limits Run.env run.env
      (Unbounded.activate host job source .pulled (depth + 1) run) (pull source run))
    (pins : List InputPin) (run : Run σ) (ample : Ample host.limits level run.env) :
    Spends host.limits Run.env run.env (Unbounded.gather host job depth pins run)
      (gather host.limits job pull depth pins run) := by
  induction pins generalizing run with
  | nil =>
    rw [Unbounded.gather]
    exact ⟨rfl, .done ample.room _⟩
  | cons pin rest ih =>
    rw [Unbounded.gather]
    unfold gather
    obtain ⟨cause, after, left, right, charged⟩ | ⟨value, after, left, right, charged⟩ :=
      spends_cases (read_input_spends job pull depth pulls pin ample)
    · rw [left, right]
      exact ⟨rfl, charged.fails⟩
    · rw [left, right]
      dsimp only [bind, Option.bind]
      obtain ⟨cause, last, left, right, others⟩ | ⟨values, last, left, right, others⟩ :=
        spends_cases (ih after (charged.ample value rfl ample))
      · rw [left, right]
        exact ⟨rfl, (charged.trans value rfl others).fails⟩
      · rw [left, right]
        exact ⟨rfl, (charged.trans value rfl others).trans values rfl (.done (others.room values rfl) _)⟩

def ScriptError.isRemote : ScriptError → Bool
  | .stepLimitExceeded _ | .recursiveCall _ => true
  | _ => false

theorem remote_step_limit {cause : ScriptError} (near : cause.isRemote = false) : cause.isStepLimit = false := by
  cases cause <;> first | rfl | cases near

def Plain {α : Type} (result : Except ScriptError α) : Prop := ∀ cause, result = .error cause → cause.isRemote = false

namespace Plain

variable {α : Type} {result : Except ScriptError α}

theorem ok (value : α) : Plain (.ok value) := fun _ failed => by cases failed

theorem error {cause : ScriptError} (near : cause.isRemote = false) : Plain (α := α) (.error cause) := by
  intro _ failed
  cases failed
  exact near

theorem map {β : Type} (plain : Plain result) (change : α → β) :
    Plain (result.map change) := by
  cases result with
  | ok => exact .ok _
  | error cause => exact .error (plain cause rfl)

theorem step_limit (plain : Plain result) (cause : ScriptError)
    (failed : result = .error cause) : cause.isStepLimit = false :=
  remote_step_limit (plain cause failed)

end Plain

def ScriptError.isOwn : ScriptError → Bool
  | .unexpectedNode _ _ _ | .parameterCountMismatch _ _ | .componentNotFound _ | .memberNotFound _ | .noOwner
  | .unknownFunction _ | .nativeCall _ _ | .outputCountMismatch _ _ _ | .nodeNotFound _ | .pinNotFound _ _
  | .notCompiled => true
  | _ => false

def Own {α : Type} (result : Except ScriptError α) : Prop := ∀ cause, result = .error cause → cause.isOwn = true

namespace Own

variable {α : Type}

theorem ok (value : α) : Own (.ok value) := fun _ failed => by cases failed

theorem error {cause : ScriptError} (own : cause.isOwn = true) : Own (α := α) (.error cause) := by
  intro _ failed
  cases failed
  exact own

theorem plain {result : Except ScriptError α} (own : Own result) : Plain result := by
  intro cause failed
  have near := own cause failed
  cases cause <;> first | rfl | cases near

end Own

/-- What a node finds wrong outside its graph: with the owner, a member, a component or a native function. -/
def ScriptError.isOutside : ScriptError → Bool
  | .parameterCountMismatch _ _ | .componentNotFound _ | .memberNotFound _ | .noOwner | .unknownFunction _
  | .nativeCall _ _ => true
  | _ => false

def Outside {α : Type} (result : Except ScriptError α) : Prop := ∀ cause, result = .error cause → cause.isOutside = true

namespace Outside

variable {α : Type} {result : Except ScriptError α}

theorem ok (value : α) : Outside (.ok value) := fun _ failed => by cases failed

theorem error (cause : ScriptError) (outside : cause.isOutside = true) : Outside (α := α) (.error cause) := by
  intro _ failed
  cases failed
  exact outside

theorem map {β : Type} (outside : Outside result) (change : α → β) :
    Outside (result.map change) := by
  cases result with
  | ok => exact .ok _
  | error cause => exact .error cause (outside cause rfl)

theorem own (outside : Outside result) : Own result := by
  intro cause failed
  have near := outside cause failed
  cases cause <;> first | rfl | cases near

end Outside

theorem require_owner_outside (host : Host σ) : Outside (requireOwner host) := by
  unfold requireOwner
  split
  · exact .ok _
  · exact .error _ rfl

theorem target_object_outside (host : Host σ) (target : Value) : Outside (targetObject? host target) := by
  unfold targetObject?
  split
  · exact (require_owner_outside host).map _
  · exact (require_owner_outside host).map _
  · exact .ok _

theorem read_member_outside (host : Host σ) (member : String) (target : Value) (world : σ) :
    Outside (readMember host member target world) := by
  unfold readMember
  dsimp only
  split
  · next cause failed =>
      split at failed
      · cases failed
      · exact .error cause ((target_object_outside host _).map _ cause failed)
  · exact .error _ rfl
  · exact .ok _

theorem write_member_outside (host : Host σ) (member : String) (target value : Value) (world : σ) :
    Outside (writeMember host member target value world) := by
  unfold writeMember
  split
  · exact .ok _
  · split
    · next cause failed => exact .error cause (target_object_outside host _ cause failed)
    · exact .error _ rfl
    · split
      · exact .ok _
      · exact .error _ rfl

theorem component_handle_outside (host : Host σ) (component : Guid) : Outside (componentHandle host component) := by
  unfold componentHandle
  split
  · next cause failed => exact .error cause (require_owner_outside host cause failed)
  · split
    · exact .ok _
    · exact .error _ rfl

theorem invoke_outside (catalog : Catalog σ) (key : String) (arguments : List Value) (world : σ) :
    Outside (catalog.invoke key arguments world).1 := by
  unfold Catalog.invoke
  split
  · exact .error _ rfl
  · split
    · exact .error _ rfl
    · split
      · exact .ok _
      · exact .error _ rfl

theorem read_variable_plain (job : Job) (reference : Reference) (run : Run σ) : Plain (run.readVariable job reference) := by
  rw [Run.read_resolved]
  split
  · exact .error rfl
  · exact .ok _
  · exact .ok _

theorem write_variable_plain (job : Job) (reference : Reference) (value : Value) (run : Run σ) :
    Plain (run.writeVariable job reference value) := by
  rw [Run.write_resolved]
  split
  · exact .error rfl
  · exact .ok _
  · exact .ok _

variable {run : Run σ} {host : Host σ} {level : Nat} {act : Activate σ} {env : Env σ}

theorem write_variable_steps {job : Job} {reference : Reference} {value : Value} {next : Run σ}
    (written : run.writeVariable job reference value = .ok next) :
    next.env.steps = run.env.steps ∧ next.env.trace = run.env.trace := by
  unfold Run.writeVariable at written
  split at written <;> cases written <;> exact ⟨rfl, rfl⟩

structure Uncounted {α : Type} (before : Env σ) (result : Except ScriptError α) (after : Env σ) : Prop where
  steps : after.steps = before.steps
  trace : after.trace = before.trace
  plain : Plain result

theorem uncounted_spends {α S : Type} {limits : Limits} (env : S → Env σ) {before : Env σ} {bounded : Except ScriptError α × S}
    (room : before.steps ≤ limits.maxSteps) (uncounted : Uncounted before bounded.1 (env bounded.2)) :
    Spends limits env before (some bounded) bounded :=
  ⟨rfl, .free room uncounted.steps uncounted.trace uncounted.plain.step_limit⟩

theorem consult_outside (host : Host σ) (call : Call σ) (kind : NodeKind) (other : ∀ function, kind ≠ .callFunction function)
    (inputs : List Value) (env : Env σ) : Outside (consult host call kind inputs env).1 := by
  unfold consult
  split
  · exact (read_member_outside host _ _ _).map _
  · split
    · next cause failed => exact .error cause (write_member_outside host _ _ _ _ cause failed)
    · exact .ok _
  · exact ((require_owner_outside host).map _).map _
  · exact ((component_handle_outside host _).map _).map _
  · next key _ =>
      have outside := invoke_outside host.catalog key inputs env.world
      split
      · exact .ok _
      · next cause world failed =>
          rw [failed] at outside
          exact .error cause (outside cause rfl)
  · next function => exact absurd rfl (other function)
  · exact .ok _

theorem consult_uncounted (host : Host σ) (call : Call σ) (kind : NodeKind) (other : ∀ function, kind ≠ .callFunction function)
    (inputs : List Value) (env : Env σ) :
    Uncounted env (consult host call kind inputs env).1 (consult host call kind inputs env).2 := by
  have plain := (consult_outside host call kind other inputs env).own.plain
  unfold consult at plain ⊢
  split at plain
  · exact ⟨rfl, rfl, plain⟩
  · split at plain <;> exact ⟨rfl, rfl, plain⟩
  · exact ⟨rfl, rfl, plain⟩
  · exact ⟨rfl, rfl, plain⟩
  · split at plain <;> exact ⟨rfl, rfl, plain⟩
  · next function => exact absurd rfl (other function)
  · exact ⟨rfl, rfl, plain⟩

theorem perform_uncounted (host : Host σ) (call : Call σ) (job : Job) (index : Nat) (node : Node) (activation : Activation)
    (inputs : List Value) (run : Run σ) (other : ∀ function, node.kind ≠ .callFunction function) :
    Uncounted run.env (perform host call job index node activation inputs run).1
      (perform host call job index node activation inputs run).2.env := by
  unfold perform
  split
  · exact ⟨rfl, rfl, .ok _⟩
  · split
    · exact ⟨rfl, rfl, (read_variable_plain job _ run).map _⟩
    · next reference _ =>
        have plain := write_variable_plain job reference (Node.input inputs 0) run
        split
        · next cause failed => exact ⟨rfl, rfl, .error (plain cause failed)⟩
        · next next written =>
            obtain ⟨steps, trace⟩ := write_variable_steps written
            exact ⟨steps, trace, (read_variable_plain job reference next).map _⟩
    · exact consult_uncounted host call node.kind other inputs run.env

theorem perform_call (host : Host σ) (call way : Call σ) (job : Job) (index : Nat) (node : Node) (activation : Activation)
    (inputs : List Value) (run : Run σ) (other : ∀ function, node.kind ≠ .callFunction function) :
    perform host call job index node activation inputs run = perform host way job index node activation inputs run := by
  unfold perform
  split
  · rfl
  · cases kind : node.kind with
    | callFunction function => exact absurd kind (other function)
    | _ => rfl

theorem call_function_performed (host : Host σ) (call : Call σ) (job : Job) (index : Nat) {node : Node}
    (activation : Activation) (inputs : List Value) (run : Run σ) {function : Guid} (kind : node.kind = .callFunction function) :
    perform host call job index node activation inputs run =
      ((consult host call (.callFunction function) inputs run.env).1,
        run.withEnv (consult host call (.callFunction function) inputs run.env).2) := by
  simp only [perform, Effect.ofNode?, kind]

theorem perform_spends (call : Call σ)
    (calls : ∀ guid arguments env, Ample host.limits level env →
      Spends host.limits id env (Unbounded.callFunction host guid arguments env) (call guid arguments env))
    (job : Job) (index : Nat) (node : Node) (activation : Activation) (inputs : List Value)
    (ample : Ample host.limits level run.env) :
    Spends host.limits Run.env run.env (Unbounded.perform host job index node activation inputs run)
      (perform host call job index node activation inputs run) := by
  rw [Unbounded.perform]
  split
  · next function kind =>
      rw [call_function_performed host call job index activation inputs run kind, consult]
      obtain ⟨cause, after, left, right, charged⟩ | ⟨value, after, left, right, charged⟩ :=
        spends_cases (calls function inputs run.env ample)
      · rw [left, right]
        exact ⟨rfl, charged.fails⟩
      · rw [left, right]
        exact ⟨rfl, charged.trans value rfl (.done (charged.room value rfl) _)⟩
  · next other =>
      rw [perform_call host _ call job index node activation inputs run other]
      exact uncounted_spends Run.env ample.room
        (perform_uncounted host call job index node activation inputs run other)

variable (index : Nat)

theorem store_outputs_own (node : Node) (outputs : List Value) (run : Run σ) :
    Own (storeOutputs index node outputs run).1 := by
  unfold storeOutputs
  split
  · exact .error rfl
  · split
    · exact .error rfl
    · exact .ok _

theorem store_outputs_uncounted (node : Node) (outputs : List Value) (run : Run σ) :
    Uncounted run.env (storeOutputs index node outputs run).1 (storeOutputs index node outputs run).2.env := by
  have same : (storeOutputs index node outputs run).2.env = run.env := by
    unfold storeOutputs
    split
    · rfl
    · split <;> rfl
  exact ⟨congrArg Env.steps same, congrArg Env.trace same, (store_outputs_own index node outputs run).plain⟩

theorem successor_own (job : Job) (index : Nat) (next : Option Nat) (points : List Nat) :
    Own (successor job index next points) := by
  unfold successor
  dsimp only
  split
  · exact .ok _
  · split
    · exact .error rfl
    · split <;> exact .ok _

def ActivateSpends (host : Host σ) (level : Nat) (act : Activate σ) : Prop :=
  ∀ job index activation depth run, Ample host.limits level run.env →
    Spends host.limits Run.env run.env (Unbounded.activate host job index activation depth run)
      (act job index activation depth run) ∧
    run.env.steps < (act job index activation depth run).2.env.steps

theorem follow_spends (acts : ActivateSpends host level act) (job : Job)
    {fuel : Nat} (index : Nat) (activation : Activation) (run : Run σ) (ample : Ample host.limits level run.env)
    (fueled : Ample host.limits fuel run.env) :
    Spends host.limits Run.env run.env (Unbounded.follow host job index activation run)
      (follow host act job fuel index activation run) := by
  -- Every turn of the loop takes a step, so that the fuel lasts as long as the budget.
  induction fuel generalizing index activation run with
  | zero =>
    have room := fueled.room
    have enough := fueled.enough
    omega
  | succ fuel ih =>
    rw [Unbounded.follow]
    unfold follow
    obtain ⟨spends, further⟩ := acts job index activation 0 run ample
    obtain ⟨cause, after, left, right, charged⟩ | ⟨next, after, left, right, charged⟩ := spends_cases spends
    · rw [left, right]
      exact ⟨rfl, charged.fails⟩
    · rw [right] at further
      rw [left, right]
      dsimp only [bind, Option.bind] at further ⊢
      have room := charged.room next rfl
      have plain := (successor_own job index next after.frame.returnPoints).plain
      cases leads : successor job index next after.frame.returnPoints with
      | error cause => exact ⟨rfl, charged.trans next rfl (.failed room cause (plain.step_limit cause leads))⟩
      | ok way =>
        cases way with
        | none => exact ⟨rfl, charged.trans next rfl (.done room index)⟩
        | some way =>
          have fueled' : Ample host.limits fuel after.env := by
            have enough := fueled.enough
            exact ⟨room, by omega⟩
          have others := ih way.1 way.2 after (charged.ample next rfl ample) fueled'
          exact ⟨others.same, charged.trans next rfl others.charged⟩

theorem prepare_own (graph : Graph) : Own graph.prepare.1 := by
  unfold Graph.prepare
  split
  · exact .error rfl
  · exact .ok _

theorem run_with_spends (host : Host σ) (level : Nat) (act : Activate σ) (acts : ActivateSpends host level act) (start : Nat)
    (arguments : List Value) (graph : Graph) (env : Env σ) (ample : Ample host.limits level env) :
    Spends host.limits Prod.snd env (Unbounded.run host start arguments graph env)
      (graph.runWith host act start arguments env) := by
  have plain := (prepare_own graph).plain
  rw [Unbounded.run]
  unfold Graph.runWith
  by_cases beyond : graph.nodes.length ≤ start
  · rw [if_pos beyond, if_pos beyond]
    exact ⟨rfl, .failed ample.room _ rfl⟩
  · rw [if_neg beyond, if_neg beyond]
    cases prepared : graph.prepare with
    | mk result ready =>
      rw [prepared] at plain
      cases result with
      | error cause => exact ⟨rfl, .failed ample.room cause (plain.step_limit cause rfl)⟩
      | ok _ =>
        dsimp only
        have fueled : Ample host.limits (host.limits.maxSteps + 1) env := ⟨ample.room, by omega⟩
        obtain ⟨cause, after, left, right, charged⟩ | ⟨last, after, left, right, charged⟩ := spends_cases
          (follow_spends acts ⟨ready.nodes, ready.locals, arguments⟩ start
            (.entered 0) ⟨ready.frame, env⟩ ample fueled)
        · rw [left, right]
          exact ⟨rfl, charged.fails⟩
        · rw [left, right]
          exact ⟨rfl, charged.trans last rfl (.done (charged.room last rfl) _)⟩

theorem expect_kind_own (kind : NodeKind) (graph : Graph) : Own (expectKind index kind graph) := by
  unfold expectKind
  split
  · exact .error rfl
  · split
    · exact .ok _
    · exact .error rfl

theorem check_structure_own (body : Body) : Own body.checkStructure := by
  have entry := expect_kind_own entryNode .functionEntry body.graph
  unfold Body.checkStructure
  cases first : expectKind entryNode .functionEntry body.graph with
  | error cause => exact .error (entry cause first)
  | ok _ => exact expect_kind_own returnNode .functionReturn body.graph

theorem call_body_spends (acts : ActivateSpends host level act)
    (arguments : List Value) (body : Body) (ample : Ample host.limits level env) :
    Spends host.limits Prod.snd env (Unbounded.callBody host arguments body env)
      (body.callWith (Graph.runWith host act entryNode) arguments env) := by
  have plain := (check_structure_own body).plain
  rw [Unbounded.callBody]
  unfold Body.callWith
  cases checked : body.checkStructure with
  | error cause => exact ⟨rfl, .failed ample.room cause (plain.step_limit cause checked)⟩
  | ok _ =>
    dsimp only
    by_cases count : arguments.length ≠ body.inputs.length
    · rw [if_pos count, if_pos count]
      exact ⟨rfl, .failed ample.room _ rfl⟩
    · rw [if_neg count, if_neg count]
      obtain ⟨cause, ⟨graph, after⟩, left, right, charged⟩ | ⟨outcome, ⟨graph, after⟩, left, right, charged⟩ :=
        spends_cases (run_with_spends host level act acts entryNode arguments body.graph env ample)
      · rw [left, right]
        exact ⟨rfl, charged.fails⟩
      · rw [left, right]
        exact ⟨rfl, charged.trans outcome rfl (.done (charged.room outcome rfl) _)⟩

theorem call_function_spends (acts : ActivateSpends host level act)
    (guid : Guid) (arguments : List Value) (ample : Ample host.limits level env) :
    Spends host.limits id env (Unbounded.callFunction host guid arguments env)
      (callFunctionWith host.limits (Graph.runWith host act entryNode) guid arguments env) := by
  rw [Unbounded.callFunction]
  unfold callFunctionWith
  by_cases active : env.callStack.contains guid = true
  · rw [if_pos active, if_pos active]
    exact ⟨rfl, .failed ample.room _ rfl⟩
  · rw [if_neg active, if_neg active]
    by_cases deep : host.limits.maxCallDepth ≤ env.callStack.length
    · rw [if_pos deep, if_pos deep]
      exact ⟨rfl, .failed ample.room _ rfl⟩
    · rw [if_neg deep, if_neg deep]
      cases env.functions.findIdx? (·.guid == guid) with
      | none => exact ⟨rfl, .failed ample.room _ rfl⟩
      | some position =>
        dsimp only
        cases env.functions[position]? with
        | none => exact ⟨rfl, .failed ample.room _ rfl⟩
        | some callee =>
          dsimp only
          -- A call enters and leaves with the count as it is.
          have inside : Ample host.limits level { env with
              functions := env.functions.set position Function.placeholder
              callStack := guid :: env.callStack } := ⟨ample.room, ample.enough⟩
          obtain ⟨same, charged⟩ := call_body_spends acts arguments callee.body inside
          rw [same]
          exact ⟨rfl, charged.grows, charged.bounded, charged.paid, charged.stops⟩

theorem activate_spends (host : Host σ) (level : Nat) : ActivateSpends host level (activate host level) := by
  induction level with
  | zero =>
    intro job index activation depth run ample
    have room := ample.room
    have enough := ample.enough
    omega
  | succ level ih =>
    intro job index activation depth run ample
    have room := ample.room
    have enough := ample.enough
    rw [Unbounded.activate]
    unfold activate
    by_cases beyond : host.limits.maxSteps < run.env.steps + 1
    · simp only [Env.step, if_pos beyond]
      refine ⟨⟨rfl, ?_⟩, Nat.lt_succ_self _⟩
      have last : min (run.env.steps + 1) host.limits.maxSteps = run.env.steps := by omega
      exact ⟨Nat.le_succ _, Nat.succ_le_succ room, by simp only [Run.withEnv, last]; omega, iff_of_true rfl beyond⟩
    · have stepped : run.env.step host.limits = (.ok (), { run.env with steps := run.env.steps + 1 }) := by
        simp only [Env.step, if_neg beyond]
      have inner : Ample host.limits level { run.env with steps := run.env.steps + 1 } :=
        ⟨by dsimp only; omega, by dsimp only; omega⟩
      rw [stepped]
      dsimp only
      cases job.nodes[index]? with
      | none =>
        have failed : Charged (α := Option Nat) host.limits _ _ _ := .failed inner.room (.nodeNotFound index) rfl
        obtain ⟨charged, further⟩ := failed.counted (a := run.env) rfl rfl
        exact ⟨⟨rfl, charged⟩, further⟩
      | some node =>
        dsimp only
        have noted : Ample host.limits level
            ((run.withEnv { run.env with steps := run.env.steps + 1 }).note
              (.began ⟨run.env.callStack, index, activation⟩)).env := ⟨inner.room, inner.enough⟩
        obtain ⟨cause, ready, left, right, charged⟩ | ⟨inputs, ready, left, right, charged⟩ := spends_cases
          (gather_spends job (pullAt host level job depth) depth
            (fun source run ample => (ih job source .pulled (depth + 1) run ample).1) node.inputs _ noted)
        · rw [left, right]
          obtain ⟨charged, further⟩ := charged.counted (a := run.env) rfl rfl
          exact ⟨⟨rfl, charged.fails⟩, further⟩
        · rw [left, right]
          dsimp only [bind, Option.bind]
          obtain ⟨cause, given, left, right, worked⟩ | ⟨⟨outputs, next⟩, given, left, right, worked⟩ := spends_cases
            (perform_spends (callAt host level)
              (fun guid arguments env ample => call_function_spends ih guid arguments ample) job index node
              activation inputs (charged.ample inputs rfl noted))
          · rw [left, right]
            obtain ⟨charged, further⟩ := (charged.trans inputs rfl worked).counted (a := run.env) rfl rfl
            exact ⟨⟨rfl, charged.fails⟩, further⟩
          · rw [left, right]
            dsimp only
            obtain ⟨steps, trace, plain⟩ := store_outputs_uncounted index node outputs given
            cases outcome : storeOutputs index node outputs given with
            | mk result =>
              rw [outcome] at steps trace plain
              have whole := (charged.trans inputs rfl worked).trans _ rfl
                (.free (worked.room _ rfl) steps trace plain.step_limit)
              cases result with
              | error =>
                obtain ⟨charged, further⟩ := whole.counted (a := run.env) rfl rfl
                exact ⟨⟨rfl, charged.fails⟩, further⟩
              | ok _ =>
                have all := whole.trans () rfl (.done (whole.room () rfl) next)
                obtain ⟨charged, further⟩ := all.ended (a := run.env) next rfl rfl
                  ⟨run.env.callStack, index, activation⟩ inputs outputs next
                exact ⟨⟨rfl, charged⟩, further⟩

/-- A run that begins with a full budget comes to an end by itself: without any other bound it gives
what the machine gives. It completes no more activations than the limit allows, in all its calls
taken together, and it fails with the step limit exactly if it attempts one more. -/
theorem run_within_step_budget (host : Host σ) (start : Nat) (arguments : List Value) (graph : Graph) (env : Env σ)
    (full : env.steps = 0) :
    Unbounded.run host start arguments graph env = some (graph.run host start arguments env) ∧
      completed (graph.run host start arguments env).2.2.trace ≤ completed env.trace + host.limits.maxSteps ∧
      (graph.run host start arguments env).2.2.steps ≤ host.limits.maxSteps + 1 ∧
      (∀ outcome, (graph.run host start arguments env).1 = .ok outcome →
        (graph.run host start arguments env).2.2.steps ≤ host.limits.maxSteps) ∧
      (host.limits.maxSteps < (graph.run host start arguments env).2.2.steps ↔
        (graph.run host start arguments env).1 = .error (.stepLimitExceeded host.limits.maxSteps)) := by
  have ample : Ample host.limits (host.limits.maxSteps + 1) env := ⟨by omega, by omega⟩
  obtain ⟨same, charged⟩ := run_with_spends host (host.limits.maxSteps + 1) host.activate
    (activate_spends host (host.limits.maxSteps + 1)) start arguments graph env ample
  have paid := charged.paid
  refine ⟨same, ?_, charged.bounded, charged.room, charged.stops.symm⟩
  unfold Graph.run
  omega

/-- A loop whose condition always holds calls a function, and the limit falls inside a call. -/
def runawayLoop : Graph :=
  [Operation.addNode Node.whileLoop, .addNode (Node.callFunction Guid.zero "Pass" [] []), .connectExec 0 0 1 0,
    .setLiteral 0 0 (.bool true), .compile].foldl Operation.apply Graph.empty

theorem runaway_loop_stopped :
    let pass := (Edit.connectExec 0 0 1 0 (Body.fresh [] []).graph).2.compile.2
    let host : Host Unit := ⟨Catalog.empty, none, ⟨7, 4, 4⟩⟩
    let env : Env Unit := Env.start [] [⟨Guid.zero, "Pass", ⟨pass, [], []⟩⟩] ()
    (runawayLoop.run host 0 [] env).2.2.steps = 8 ∧ completed (runawayLoop.run host 0 [] env).2.2.trace = 6 ∧
      (runawayLoop.run host 0 [] env).1 = .error (.stepLimitExceeded 7) ∧
      Unbounded.run host 0 [] runawayLoop env = some (runawayLoop.run host 0 [] env) := by
  intro pass host env
  obtain ⟨same, _, _, _, stops⟩ := run_within_step_budget host 0 [] runawayLoop env rfl
  have attempted : (runawayLoop.run host 0 [] env).2.2.steps = 8 := by decide +kernel
  exact ⟨attempted, by decide +kernel, stops.mp (attempted ▸ Nat.lt_succ_self 7), same⟩

end Patchbay
