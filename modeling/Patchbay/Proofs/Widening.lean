import Patchbay.Proofs.CompiledFlag

set_option autoImplicit false

namespace Patchbay

variable {σ : Type}

/-- Limits that allow no less in any respect. -/
structure Limits.Widens (limits wider : Limits) : Prop where
  steps : limits.maxSteps ≤ wider.maxSteps
  calls : limits.maxCallDepth ≤ wider.maxCallDepth
  reads : limits.maxImplicitDepth ≤ wider.maxImplicitDepth

instance : LE Limits := ⟨Limits.Widens⟩

def Host.within (limits : Limits) (host : Host σ) : Host σ := { host with limits := limits }

def Lasts {α S : Type} (narrow wide : Except ScriptError α × S) : Prop :=
  ∀ value after, narrow = (.ok value, after) → wide = (.ok value, after)

section

variable {α S : Type}

theorem lasts_refl {outcome : Except ScriptError α × S} : Lasts outcome outcome := fun _ _ same => same

theorem lasts_error {cause : ScriptError} {after : S} {wide : Except ScriptError α × S} :
    Lasts (.error cause, after) wide := by
  intro _ _ same
  cases same

theorem lasts_cases {narrow wide : Except ScriptError α × S} (lasts : Lasts narrow wide) :
    (∃ cause after, narrow = (.error cause, after)) ∨
    (∃ value after, narrow = (.ok value, after) ∧ wide = (.ok value, after)) := by
  obtain ⟨result, after⟩ := narrow
  cases result with
  | error cause => exact .inl ⟨cause, after, rfl⟩
  | ok value => exact .inr ⟨value, after, rfl, lasts value after rfl⟩

end

variable {limits wider : Limits} {act act' : Activate σ} {host : Host σ}

theorem step_lasts (wide : limits ≤ wider) (env : Env σ) :
    Lasts (env.step limits) (env.step wider) := by
  unfold Env.step
  dsimp only
  by_cases beyond : limits.maxSteps < env.steps + 1
  · rw [if_pos beyond]
    exact lasts_error
  · have room : ¬ wider.maxSteps < env.steps + 1 := fun further => beyond (Nat.lt_of_le_of_lt wide.steps further)
    rw [if_neg beyond, if_neg room]
    exact lasts_refl

theorem read_input_lasts (wide : limits ≤ wider) (job : Job)
    (pull pull' : Nat → Run σ → Except ScriptError (Option Nat) × Run σ)
    (pulls : ∀ source run, Lasts (pull source run) (pull' source run)) (depth : Nat) (pin : InputPin) (run : Run σ) :
    Lasts (readInput limits job pull depth pin run) (readInput wider job pull' depth pin run) := by
  unfold readInput
  split
  · next source slot _ _ =>
      by_cases implicit : job.pulls source.node = true
      · rw [if_pos implicit, if_pos implicit]
        by_cases deep : limits.maxImplicitDepth ≤ depth
        · rw [if_pos deep]
          exact lasts_error
        · have room : ¬ wider.maxImplicitDepth ≤ depth := fun further => deep (Nat.le_trans wide.reads further)
          rw [if_neg deep, if_neg room]
          obtain ⟨cause, after, failed⟩ | ⟨value, after, left, right⟩ := lasts_cases (pulls source.node run)
          · rw [failed]
            exact lasts_error
          · rw [left, right]
            exact lasts_refl
      · rw [if_neg implicit, if_neg implicit]
        exact lasts_refl
  · exact lasts_refl

theorem gather_lasts (wide : limits ≤ wider) (job : Job)
    (pull pull' : Nat → Run σ → Except ScriptError (Option Nat) × Run σ)
    (pulls : ∀ source run, Lasts (pull source run) (pull' source run)) (depth : Nat) (pins : List InputPin) (run : Run σ) :
    Lasts (gather limits job pull depth pins run) (gather wider job pull' depth pins run) := by
  induction pins generalizing run with
  | nil => exact lasts_refl
  | cons pin rest ih =>
    unfold gather
    obtain ⟨cause, after, failed⟩ | ⟨value, next, left, right⟩ :=
      lasts_cases (read_input_lasts wide job pull pull' pulls depth pin run)
    · rw [failed]
      exact lasts_error
    · rw [left, right]
      dsimp only
      obtain ⟨cause, after, failed⟩ | ⟨values, last, left, right⟩ := lasts_cases (ih next)
      · rw [failed]
        exact lasts_error
      · rw [left, right]
        exact lasts_refl

theorem consult_lasts (host : Host σ) (wider : Limits) (call call' : Call σ)
    (calls : ∀ guid arguments env, Lasts (call guid arguments env) (call' guid arguments env)) (kind : NodeKind)
    (inputs : List Value) (env : Env σ) :
    Lasts (consult host call kind inputs env) (consult (host.within wider) call' kind inputs env) := by
  -- No node asks for the limits: they matter to it only through the functions that it calls.
  cases kind with
  | callFunction function =>
    unfold consult
    dsimp only
    obtain ⟨cause, after, failed⟩ | ⟨values, after, left, right⟩ := lasts_cases (calls function inputs env)
    · rw [failed]
      exact lasts_error
    · rw [left, right]
      exact lasts_refl
  | _ => exact lasts_refl

theorem perform_lasts (host : Host σ) (wider : Limits) (call call' : Call σ)
    (calls : ∀ guid arguments env, Lasts (call guid arguments env) (call' guid arguments env)) (job : Job) (index : Nat)
    (node : Node) (activation : Activation) (inputs : List Value) (run : Run σ) :
    Lasts (perform host call job index node activation inputs run)
      (perform (host.within wider) call' job index node activation inputs run) := by
  unfold perform
  split
  · exact lasts_refl
  · split
    · exact lasts_refl
    · exact lasts_refl
    · dsimp only
      obtain ⟨cause, after, failed⟩ | ⟨given, after, left, right⟩ :=
        lasts_cases (consult_lasts host wider call call' calls node.kind inputs run.env)
      · rw [failed]
        exact lasts_error
      · rw [left, right]
        exact lasts_refl

def ActivateLasts (act act' : Activate σ) : Prop :=
  ∀ job index activation depth run, Lasts (act job index activation depth run) (act' job index activation depth run)

theorem follow_lasts (host : Host σ) (wider : Limits) (acts : ActivateLasts act act') (job : Job)
    {fuel : Nat} (fuel' : Nat) (more : fuel ≤ fuel') (index : Nat) (activation : Activation) (run : Run σ) :
    Lasts (follow host act job fuel index activation run)
      (follow (host.within wider) act' job fuel' index activation run) := by
  induction fuel generalizing fuel' index activation run with
  | zero => exact lasts_error
  | succ fuel ih =>
    obtain ⟨fuel', rfl⟩ := Nat.exists_eq_add_of_le' (Nat.le_trans (Nat.succ_le_succ (Nat.zero_le fuel)) more)
    unfold follow
    obtain ⟨cause, after, failed⟩ | ⟨next, after, left, right⟩ := lasts_cases (acts job index activation 0 run)
    · rw [failed]
      exact lasts_error
    · rw [left, right]
      dsimp only
      split
      · exact lasts_refl
      · exact lasts_refl
      · next node activation _ => exact ih fuel' (Nat.le_of_succ_le_succ more) node activation after

theorem run_with_lasts (wide : host.limits ≤ wider)
    (acts : ActivateLasts act act') (start : Nat) (arguments : List Value) (graph : Graph) (env : Env σ) :
    Lasts (graph.runWith host act start arguments env) (graph.runWith (host.within wider) act' start arguments env) := by
  unfold Graph.runWith
  split
  · exact lasts_refl
  · split
    · exact lasts_refl
    · next ready _ =>
        dsimp only
        obtain ⟨cause, after, failed⟩ | ⟨last, after, left, right⟩ := lasts_cases
          (follow_lasts host wider acts ⟨ready.nodes, ready.locals, arguments⟩
            (wider.maxSteps + 1) (Nat.succ_le_succ wide.steps) start (.entered 0) ⟨ready.frame, env⟩)
        · rw [failed]
          exact lasts_error
        · rw [left, show (host.within wider).limits.maxSteps = wider.maxSteps from rfl, right]
          exact lasts_refl

theorem call_with_lasts (runner runner' : Runner σ)
    (runs : ∀ arguments graph env, Lasts (runner arguments graph env) (runner' arguments graph env)) (arguments : List Value)
    (body : Body) (env : Env σ) : Lasts (body.callWith runner arguments env) (body.callWith runner' arguments env) := by
  unfold Body.callWith
  split
  · exact lasts_refl
  · split
    · exact lasts_refl
    · obtain ⟨cause, after, failed⟩ | ⟨outcome, after, left, right⟩ := lasts_cases (runs arguments body.graph env)
      · rw [failed]
        exact lasts_error
      · rw [left, right]
        exact lasts_refl

theorem call_function_lasts (wide : limits ≤ wider) (runner runner' : Runner σ)
    (runs : ∀ arguments graph env, Lasts (runner arguments graph env) (runner' arguments graph env)) (guid : Guid)
    (arguments : List Value) (env : Env σ) :
    Lasts (callFunctionWith limits runner guid arguments env) (callFunctionWith wider runner' guid arguments env) := by
  unfold callFunctionWith
  split
  · exact lasts_refl
  · by_cases deep : limits.maxCallDepth ≤ env.callStack.length
    · rw [if_pos deep]
      exact lasts_error
    · have room : ¬ wider.maxCallDepth ≤ env.callStack.length := fun further => deep (Nat.le_trans wide.calls further)
      rw [if_neg deep, if_neg room]
      split
      · exact lasts_refl
      · next position _ =>
          split
          · exact lasts_refl
          · next callee _ =>
              dsimp only
              obtain ⟨cause, after, failed⟩ | ⟨values, after, left, right⟩ := lasts_cases
                (call_with_lasts runner runner' runs arguments callee.body
                  { env with
                    functions := env.functions.set position Function.placeholder
                    callStack := guid :: env.callStack })
              · rw [failed]
                exact lasts_error
              · rw [left, right]
                exact lasts_refl

theorem activate_lasts (wide : host.limits ≤ wider) {level : Nat} (level' : Nat)
    (more : level ≤ level') : ActivateLasts (activate host level) (activate (host.within wider) level') := by
  induction level generalizing level' with
  | zero => exact fun _ _ _ _ _ => lasts_error
  | succ level ih =>
    obtain ⟨level', rfl⟩ := Nat.exists_eq_add_of_le' (Nat.le_trans (Nat.succ_le_succ (Nat.zero_le level)) more)
    have inner := ih level' (Nat.le_of_succ_le_succ more)
    intro job index activation depth run
    unfold activate
    obtain ⟨cause, after, failed⟩ | ⟨_, env, left, right⟩ := lasts_cases (step_lasts wide run.env)
    · rw [failed]
      exact lasts_error
    · rw [left, show (host.within wider).limits = wider from rfl, right]
      dsimp only
      split
      · exact lasts_refl
      · next node _ =>
          obtain ⟨cause, after, failed⟩ | ⟨inputs, ready, left, right⟩ := lasts_cases (gather_lasts wide job
              (pullAt host level job depth)
              (fun source run => activate (host.within wider) level' job source .pulled (depth + 1) run)
              (fun source run => inner job source .pulled (depth + 1) run) depth node.inputs
              ((run.withEnv env).note (.began ⟨env.callStack, index, activation⟩)))
          · rw [failed]
            exact lasts_error
          · rw [left, right]
            dsimp only
            obtain ⟨cause, after, failed⟩ | ⟨⟨outputs, next⟩, done, left, right⟩ := lasts_cases
              (perform_lasts host wider (callAt host level)
                (callFunctionWith wider (Graph.runWith (host.within wider) (activate (host.within wider) level') entryNode))
                (call_function_lasts wide _ _ (run_with_lasts wide inner entryNode))
                job index node activation inputs ready)
            · rw [failed]
              exact lasts_error
            · rw [left, right]
              exact lasts_refl

/-- A run that comes to its end under some limits comes to the same end under all that are wider, and leaves the same: the
stack, the variables, the world with what owner and native functions made of it, and every note on the way. -/
theorem limits_only_cut_off (host : Host σ) (wider : Limits) (wide : host.limits ≤ wider) (start : Nat)
    (arguments : List Value) (graph after : Graph) (env left : Env σ) (outcome : Outcome)
    (ends : graph.run host start arguments env = (.ok outcome, after, left)) :
    graph.run { host with limits := wider } start arguments env = (.ok outcome, after, left) := by
  have acts := activate_lasts wide (wider.maxSteps + 1) (Nat.succ_le_succ wide.steps)
  exact run_with_lasts wide acts start arguments graph env outcome (after, left) ends

/-- A loop that hands its index, made into an array, to a function. -/
def arrayLoop : Graph :=
  [Operation.addNode (Node.functionEntry []), .addNode Node.forLoop,
    .addNode (Node.callFunction Guid.zero "Echo" [⟨"x", .any⟩] [⟨"y", .any⟩]), .addNode (Node.makeArray 1), .connectExec 0 0 1 0,
    .connectExec 1 0 2 0, .connect 1 0 3 0, .connect 3 0 2 0, .setLiteral 1 1 (.int 1), .compile].foldl
    Operation.apply Graph.empty

def echoFunction : Function :=
  let graph := [Operation.connectExec 0 0 1 0, .connect 0 0 1 0, .compile].foldl Operation.apply
    (Body.fresh [⟨"x", .any⟩] [⟨"y", .any⟩]).graph
  ⟨Guid.zero, "Echo", ⟨graph, [⟨"x", .any⟩], [⟨"y", .any⟩]⟩⟩

/-- None of the three limits can be lower for the loop to end, and nothing changes if all are higher. -/
theorem tight_limits_widened :
    let run (limits : Limits) := arrayLoop.run (⟨Catalog.empty, none, limits⟩ : Host Unit) 0 [] (Env.start [] [echoFunction] ())
    (run ⟨12, 1, 1⟩).1 = .ok ⟨some 1, none⟩ ∧ (run ⟨11, 1, 1⟩).1 = .error (.stepLimitExceeded 11) ∧
      (run ⟨12, 0, 1⟩).1 = .error (.callDepthExceeded 0) ∧ (run ⟨12, 1, 0⟩).1 = .error (.implicitDepthExceeded 0) ∧
      run Limits.default = run ⟨12, 1, 1⟩ := by
  intro run
  have ends : run ⟨12, 1, 1⟩ = (.ok ⟨some 1, none⟩, (run ⟨12, 1, 1⟩).2) := Prod.ext rfl rfl
  refine ⟨rfl, rfl, rfl, rfl, ?_⟩
  rw [ends]
  exact limits_only_cut_off ⟨Catalog.empty, none, ⟨12, 1, 1⟩⟩ Limits.default ⟨by decide, by decide, by decide⟩ 0 []
    arrayLoop _ _ _ ⟨some 1, none⟩ ends

end Patchbay
