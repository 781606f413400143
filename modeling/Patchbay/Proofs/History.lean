import Patchbay.Proofs.Surroundings

set_option autoImplicit false

namespace Patchbay

structure Step where
  node : Nat
  activation : Activation
  inputs : List Value
  outputs : List Value
  next : Option Nat

def TraceEntry.step? (calls : List Guid) : TraceEntry → Option Step
  | .began _ => none
  | .ended visit inputs outputs next =>
    if visit.calls = calls ∧ visit.activation ≠ .pulled then some ⟨visit.node, visit.activation, inputs, outputs, next⟩
    else none

def history (calls : List Guid) (trace : List TraceEntry) : List Step :=
  trace.reverse.filterMap (·.step? calls)

theorem history_cons (calls : List Guid) (entry : TraceEntry) (trace : List TraceEntry) :
    history calls (entry :: trace) = history calls trace ++ (entry.step? calls).toList := by
  simp only [history, List.reverse_cons, List.filterMap_append, List.filterMap_cons, List.filterMap_nil]
  cases entry.step? calls <;> rfl

variable {σ : Type}

/-- From one environment to the next the calls under way are the same, and nothing was noted for the
calls that are spared. -/
structure Quiet (spared : List Guid → Prop) (a b : Env σ) : Prop where
  calls : b.callStack = a.callStack
  notes : ∀ calls, spared calls → history calls b.trace = history calls a.trace

def Beside (inner calls : List Guid) : Prop := ¬ inner <:+ calls

/-- What does not traverse a graph spares the calls that the graph itself lies in, too. -/
def Outer (inner calls : List Guid) : Prop := inner <:+ calls → calls = inner

theorem beside_outer {inner : List Guid} (calls : List Guid) (beside : Beside inner calls) : Outer inner calls :=
  fun inside => absurd inside beside

theorem beside_called (guid : Guid) {inner calls : List Guid} (outer : Outer inner calls) :
    Beside (guid :: inner) calls := by
  intro inside
  have same := outer ((List.suffix_cons guid inner).trans inside)
  have longer := inside.length_le
  rw [same, List.length_cons] at longer
  omega

namespace Quiet

variable {spared fewer : List Guid → Prop} {a b c : Env σ}

theorem refl (env : Env σ) : Quiet spared env env := ⟨rfl, fun _ _ => rfl⟩

theorem trans (first : Quiet spared a b) (second : Quiet spared b c) : Quiet spared a c :=
  ⟨second.calls.trans first.calls, fun calls spare => (second.notes calls spare).trans (first.notes calls spare)⟩

theorem mono (quiet : Quiet spared a b) (less : ∀ calls, fewer calls → spared calls) : Quiet fewer a b :=
  ⟨quiet.calls, fun calls spare => quiet.notes calls (less calls spare)⟩

theorem onward {scope : List Guid → List Guid → Prop} {c : Env σ} (first : Quiet (scope a.callStack) a b)
    (second : Quiet (scope b.callStack) b c) : Quiet (scope a.callStack) a c := by
  rw [first.calls] at second
  exact first.trans second

theorem of_same (calls : b.callStack = a.callStack) (trace : b.trace = a.trace) : Quiet spared a b :=
  ⟨calls, fun _ _ => by rw [trace]⟩

theorem note (env : Env σ) (entry : TraceEntry) (silent : ∀ calls, spared calls → entry.step? calls = none) :
    Quiet spared env (env.note entry) := by
  refine ⟨rfl, fun calls spare => ?_⟩
  simp only [Env.note, history_cons, silent calls spare, Option.toList_none, List.append_nil]

end Quiet

def CallQuiet (call : Call σ) : Prop :=
  ∀ guid arguments env, Quiet (Outer env.callStack) env (call guid arguments env).2

theorem quiet_steady (host : Host σ) (scope : List Guid → List Guid → Prop) :
    EnvSteady host fun a b => Quiet (scope a.callStack) a b where
  refl _ := .refl _
  trans := .onward
  assigned _ _ _ := .of_same rfl rfl
  changed _ _ _ := .of_same rfl rfl

variable {job : Job} {run : Run σ} {act : Activate σ}

structure ActivateQuiet (act : Activate σ) : Prop where
  beside : ∀ job index activation depth run,
    Quiet (Beside run.env.callStack) run.env (act job index activation depth run).2.env
  pulled : ∀ job index depth run, Quiet (Outer run.env.callStack) run.env (act job index .pulled depth run).2.env

theorem call_with_quiet (spared : List Guid → Prop) (runner : Runner σ) (arguments : List Value) (body : Body) (env : Env σ)
    (runs : Quiet spared env (runner arguments body.graph env).2.2) :
    Quiet spared env (body.callWith runner arguments env).2.2 := by
  unfold Body.callWith
  split
  · exact .refl env
  · split
    · exact .refl env
    · split <;> next outcome => rwa [outcome] at runs

theorem call_function_quiet (limits : Limits) (runner : Runner σ)
    (runs : ∀ arguments graph env, Quiet (Beside env.callStack) env (runner arguments graph env).2.2) :
    CallQuiet (callFunctionWith limits runner) := by
  -- A call adds its function to the calls under way, so that all it notes down lies deeper.
  intro guid arguments env
  unfold callFunctionWith
  split
  · exact .refl env
  · split
    · exact .refl env
    · split
      · exact .refl env
      · next position _ =>
          split
          · exact .refl env
          · next callee _ =>
              have called := call_with_quiet _ runner arguments callee.body
                { env with
                  functions := env.functions.set position Function.placeholder
                  callStack := guid :: env.callStack } (runs arguments callee.body.graph _)
              refine ⟨congrArg List.tail called.calls, fun calls outer => ?_⟩
              exact called.notes calls (beside_called guid outer)

theorem ended_step_beside (visit : Visit) (inputs outputs : List Value) (next : Option Nat) (calls : List Guid)
    (beside : Beside visit.calls calls) : (TraceEntry.ended visit inputs outputs next).step? calls = none := by
  have other : ¬ (visit.calls = calls ∧ visit.activation ≠ .pulled) := by
    rintro ⟨rfl, _⟩
    exact beside (List.suffix_refl _)
  simp only [TraceEntry.step?, if_neg other]

theorem activate_ok {host : Host σ} {level : Nat} {index : Nat} {activation : Activation} {depth : Nat}
    {after : Run σ} {next : Option Nat}
    (done : activate host (level + 1) job index activation depth run = (.ok next, after)) :
    ∃ env node inputs ready outputs given stored,
      run.env.step host.limits = (.ok (), env) ∧ job.nodes[index]? = some node ∧
      gather host.limits job (pullAt host level job depth) depth node.inputs
        ((run.withEnv env).note (.began ⟨env.callStack, index, activation⟩)) = (.ok inputs, ready) ∧
      perform host (callAt host level) job index node activation inputs ready = (.ok (outputs, next), given) ∧
      storeOutputs index node outputs given = (.ok (), stored) ∧
      after = stored.note (.ended ⟨env.callStack, index, activation⟩ inputs outputs next) := by
  unfold activate at done
  split at done
  · cases done
  · next env counted =>
      split at done
      · cases done
      · next node found =>
          dsimp only at done
          split at done
          · cases done
          · next inputs ready gathered =>
              split at done
              · cases done
              · next outputs out given performed =>
                  split at done
                  · cases done
                  · next stored kept =>
                      cases done
                      exact ⟨env, node, inputs, ready, outputs, given, stored, counted, found, gathered, performed, kept, rfl⟩

theorem step_quiet (spared : List Guid → Prop) (limits : Limits) (env : Env σ) : Quiet spared env (env.step limits).2 :=
  .of_same rfl rfl

section

variable (host : Host σ) (level : Nat) (job : Job) (index : Nat) (activation : Activation) (depth : Nat)

theorem gathered_quiet (acts : ActivateQuiet (activate host level)) (node : Node) {run : Run σ} {env : Env σ}
    (counted : Quiet (Outer run.env.callStack) run.env env) :
    Quiet (Outer run.env.callStack) run.env (gather host.limits job (pullAt host level job depth) depth node.inputs
        ((run.withEnv env).note (.began ⟨env.callStack, index, activation⟩))).2.env := by
  have noted : Quiet (Outer run.env.callStack) run.env
      ((run.withEnv env).note (.began ⟨env.callStack, index, activation⟩)).env :=
    counted.trans (.note env _ fun _ _ => rfl)
  have gathered := (quiet_steady host Outer).gather host.limits job (pullAt host level job depth) depth node.inputs
    ((run.withEnv env).note (.began ⟨env.callStack, index, activation⟩))
    (fun source run => acts.pulled job source (depth + 1) run)
  rw [noted.calls] at gathered
  exact noted.trans gathered

theorem performed_quiet (acts : ActivateQuiet (activate host level)) (node : Node) (inputs : List Value) (start : Env σ)
    (ready : Run σ) (gathered : Quiet (Outer start.callStack) start ready.env) :
    Quiet (Outer start.callStack) start (perform host (callAt host level) job index node activation inputs ready).2.env := by
  have called : CallQuiet (callAt host level) :=
    call_function_quiet host.limits _ ((quiet_steady host Beside).run_with _ acts.beside entryNode)
  have performed := (quiet_steady host Outer).perform _ called job index node activation inputs ready
  rw [gathered.calls] at performed
  exact gathered.trans performed

/-- Up to its last note an activation adds nothing to the steps of its own graph. -/
theorem activate_work_quiet (acts : ActivateQuiet (activate host level)) (run : Run σ) :
    ∃ worked, Quiet (Outer run.env.callStack) run.env worked ∧
      ((activate host (level + 1) job index activation depth run).2.env = worked ∨
        ∃ inputs outputs next, (activate host (level + 1) job index activation depth run).2.env =
          worked.note (.ended ⟨run.env.callStack, index, activation⟩ inputs outputs next)) := by
  have counted := step_quiet (Outer run.env.callStack) host.limits run.env
  unfold activate
  split
  · next env stepped =>
      rw [stepped] at counted
      exact ⟨env, counted, .inl rfl⟩
  · next env stepped =>
      rw [stepped] at counted
      split
      · exact ⟨env, counted, .inl rfl⟩
      · next node found =>
          dsimp only
          have gathered := gathered_quiet host level job index activation depth acts node counted
          split
          · next outcome =>
              rw [outcome] at gathered
              exact ⟨_, gathered, .inl rfl⟩
          · next inputs ready outcome =>
              rw [outcome] at gathered
              have performed := performed_quiet host level job index activation acts node inputs run.env ready gathered
              split
              · next outcome =>
                  rw [outcome] at performed
                  exact ⟨_, performed, .inl rfl⟩
              · next outputs next given outcome =>
                  rw [outcome] at performed
                  have stored := store_outputs_env index node outputs given
                  split
                  · next outcome =>
                      rw [outcome] at stored
                      exact ⟨_, performed, .inl stored⟩
                  · next last outcome =>
                      rw [outcome] at stored
                      refine ⟨_, performed, .inr ⟨inputs, outputs, next, ?_⟩⟩
                      rw [← counted.calls, Run.note, Run.withEnv, stored]

end

theorem activate_quiet (host : Host σ) (level : Nat) : ActivateQuiet (activate host level) := by
  induction level with
  | zero => exact ⟨fun _ _ _ _ run => .refl run.env, fun _ _ _ run => .refl run.env⟩
  | succ level ih =>
    refine ⟨?_, ?_⟩
    · intro job index activation depth run
      obtain ⟨worked, quiet, same | ⟨inputs, outputs, next, noted⟩⟩ :=
        activate_work_quiet host level job index activation depth ih run
      · rw [same]
        exact quiet.mono beside_outer
      · rw [noted]
        exact (quiet.mono beside_outer).trans (.note worked _ fun calls =>
          ended_step_beside ⟨run.env.callStack, index, activation⟩ inputs outputs next calls)
    · intro job index depth run
      obtain ⟨worked, quiet, same | ⟨inputs, outputs, next, noted⟩⟩ :=
        activate_work_quiet host level job index .pulled depth ih run
      · rw [same]
        exact quiet
      · rw [noted]
        refine quiet.trans (.note worked _ fun calls _ => ?_)
        simp [TraceEntry.step?]

theorem noted_step (calls : List Guid) {start worked : Env σ} (quiet : Quiet (Outer start.callStack) start worked)
    (inside : start.callStack = calls) (index : Nat) {activation : Activation} (traversed : activation ≠ .pulled)
    (inputs outputs : List Value) (next : Option Nat) :
    history calls (worked.note (.ended ⟨calls, index, activation⟩ inputs outputs next)).trace =
      history calls start.trace ++ [⟨index, activation, inputs, outputs, next⟩] := by
  -- A step is noted once, after all that it set off.
  have same := quiet.notes calls fun _ => inside.symm
  simp only [Env.note, history_cons, same, TraceEntry.step?, true_and, ne_eq, traversed, not_false_eq_true, if_true,
    Option.toList_some]

end Patchbay
