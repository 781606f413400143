import Patchbay.Proofs.Machine

set_option autoImplicit false

namespace Patchbay

variable {σ : Type}

/-- What a run can make of the world: a native function is invoked, or a property is set through the owner. -/
inductive Host.Changes (host : Host σ) (world : σ) : σ → Prop where
  | native (key : String) (inputs : List Value) : Changes host world (host.catalog.invoke key inputs world).2
  | property (owner : Owner σ) (object : Guid) (member : String) (value : Value) (after : σ) (owned : host.owner = some owner)
      (set : owner.setProperty? object member value world = some after) : Changes host world after

variable {host : Host σ} {target : Value}

theorem target_owner {owner : Owner σ} {handle : Handle}
    (found : targetObject? host target = .ok (some (owner, handle))) : host.owner = some owner := by
  unfold targetObject? requireOwner at found
  cases owned : host.owner with
  | none =>
    rw [owned] at found
    split at found <;> cases found
  | some own =>
    rw [owned] at found
    split at found <;> cases found <;> rfl

theorem write_member_changes {member : String} {value result : Value} {world after : σ}
    (written : writeMember host member target value world = .ok (result, after)) : after = world ∨ host.Changes world after := by
  unfold writeMember at written
  split at written
  · cases written
    exact .inl rfl
  · split at written
    · cases written
    · cases written
    · next owner handle found =>
        split at written
        · next changed set =>
            cases written
            exact .inr (.property owner handle.id member value after (target_owner found) set)
        · cases written

/-- What a node does outside its graph, apart from a call: it sets a variable or changes the world. -/
structure EnvSteady (host : Host σ) (Kept : Env σ → Env σ → Prop) : Prop where
  refl : ∀ env, Kept env env
  trans : ∀ {a b c}, Kept a b → Kept b c → Kept a c
  assigned : ∀ env index value, Kept env { env with
    vars := env.vars.modify index fun entry => { entry with value := entry.type.coerce value } }
  changed : ∀ env world, host.Changes env.world world → Kept env { env with world := world }

/-- What a run does outside its graph, said once: besides what its nodes do, it counts and notes its activations and calls
functions. A call takes the function out of the list meanwhile and puts it back with the graph that its run left. A relation
that bears these changes bears every run. -/
structure EnvStable (host : Host σ) (Ran : Graph → Graph → Prop) (Kept : Env σ → Env σ → Prop) : Prop
    extends EnvSteady host Kept where
  counted : ∀ env steps, Kept env { env with steps := steps }
  noted : ∀ env entry, Kept env (env.note entry)
  still : ∀ graph, Ran graph graph
  ran : ∀ level arguments graph env, Ran graph (graph.runWith host (activate host level) entryNode arguments env).2.1
  called : ∀ env after guid position callee graph, guid ∉ env.callStack →
    env.functions.findIdx? (·.guid == guid) = some position → env.functions[position]? = some callee →
    Ran callee.body.graph graph →
    Kept { env with functions := env.functions.set position Function.placeholder, callStack := guid :: env.callStack } after →
    Kept env { after with
      functions := after.functions.set position { callee with body := { callee.body with graph := graph } }
      callStack := after.callStack.tail }

theorem store_outputs_env (index : Nat) (node : Node) (outputs : List Value) (run : Run σ) :
    (storeOutputs index node outputs run).2.env = run.env := by
  unfold storeOutputs
  split
  · rfl
  · split <;> rfl

namespace EnvSteady

variable {host : Host σ} {Kept : Env σ → Env σ → Prop} (stable : EnvSteady host Kept)
include stable

theorem read_input (limits : Limits) (job : Job)
    (pull : Nat → Run σ → Except ScriptError (Option Nat) × Run σ) (depth : Nat) (pin : InputPin) (run : Run σ)
    (pulled : ∀ source run, Kept run.env (pull source run).2.env) :
    Kept run.env (readInput limits job pull depth pin run).2.env :=
  read_input_kept (Kept ·.env ·.env) (stable.refl ·.env) limits job pull depth pin run fun source run _ => pulled source run

theorem gather (limits : Limits) (job : Job)
    (pull : Nat → Run σ → Except ScriptError (Option Nat) × Run σ) (depth : Nat) (pins : List InputPin) (run : Run σ)
    (pulled : ∀ source run, Kept run.env (pull source run).2.env) :
    Kept run.env (gather limits job pull depth pins run).2.env :=
  gather_kept (Kept ·.env ·.env) (stable.refl ·.env) stable.trans limits job pull depth pins run
    fun source run _ => pulled source run

theorem write_variable {job : Job} {reference : Reference} {value : Value}
    {run next : Run σ} (written : run.writeVariable job reference value = .ok next) : Kept run.env next.env := by
  unfold Run.writeVariable at written
  split at written <;> cases written
  · exact stable.refl run.env
  · exact stable.assigned run.env _ value

theorem consult (call : Call σ)
    (calls : ∀ guid arguments env, Kept env (call guid arguments env).2) (kind : NodeKind) (inputs : List Value)
    (env : Env σ) : Kept env (consult host call kind inputs env).2 := by
  unfold Patchbay.consult
  split
  · exact stable.refl env
  · split
    · exact stable.refl env
    · next target world written =>
        obtain rfl | changes := write_member_changes written
        · exact stable.refl env
        · exact stable.changed env world changes
  · exact stable.refl env
  · exact stable.refl env
  · next key _ =>
      have changed := stable.changed env _ (.native key inputs)
      split <;> next outcome => rwa [outcome] at changed
  · next function =>
      have called := calls function inputs env
      split <;> next outcome => rwa [outcome] at called
  · exact stable.refl env

theorem perform (call : Call σ)
    (calls : ∀ guid arguments env, Kept env (call guid arguments env).2) (job : Job) (index : Nat) (node : Node)
    (activation : Activation) (inputs : List Value) (run : Run σ) :
    Kept run.env (perform host call job index node activation inputs run).2.env := by
  unfold Patchbay.perform
  split
  · exact stable.refl run.env
  · split
    · exact stable.refl run.env
    · split
      · exact stable.refl run.env
      · next next written => exact stable.write_variable written
    · exact stable.consult call calls node.kind inputs run.env

theorem follow (act : Activate σ)
    (acts : ∀ job index activation depth run, Kept run.env (act job index activation depth run).2.env) (job : Job)
    (fuel index : Nat) (activation : Activation) (run : Run σ) :
    Kept run.env (follow host act job fuel index activation run).2.env :=
  follow_kept (Kept ·.env ·.env) (stable.refl ·.env) stable.trans host act job (acts job · · 0) fuel index
    activation run

theorem run_with (act : Activate σ)
    (acts : ∀ job index activation depth run, Kept run.env (act job index activation depth run).2.env) (start : Nat)
    (arguments : List Value) (graph : Graph) (env : Env σ) :
    Kept env (graph.runWith host act start arguments env).2.2 := by
  unfold Graph.runWith
  split
  · exact stable.refl env
  · split
    · exact stable.refl env
    · next graph _ =>
        have followed := stable.follow act acts ⟨graph.nodes, graph.locals, arguments⟩ (host.limits.maxSteps + 1) start
          (.entered 0) ⟨graph.frame, env⟩
        dsimp only
        split <;> next outcome => rwa [outcome] at followed

end EnvSteady

namespace EnvStable

variable {host : Host σ} {Ran : Graph → Graph → Prop} {Kept : Env σ → Env σ → Prop} (stable : EnvStable host Ran Kept)
include stable

theorem call_with (level : Nat)
    (acts : ∀ job index activation depth run, Kept run.env (activate host level job index activation depth run).2.env)
    (arguments : List Value) (body : Body) (env : Env σ) :
    ∃ graph, Ran body.graph graph ∧
      (body.callWith (Graph.runWith host (activate host level) entryNode) arguments env).2.1 = { body with graph := graph } ∧
      Kept env (body.callWith (Graph.runWith host (activate host level) entryNode) arguments env).2.2 := by
  unfold Body.callWith
  split
  · exact ⟨body.graph, stable.still body.graph, rfl, stable.refl env⟩
  · split
    · exact ⟨body.graph, stable.still body.graph, rfl, stable.refl env⟩
    · have ran := stable.ran level arguments body.graph env
      have kept := stable.run_with (activate host level) acts entryNode arguments body.graph env
      split <;> next graph after outcome =>
        rw [outcome] at ran kept
        exact ⟨graph, ran, rfl, kept⟩

theorem call_function (level : Nat)
    (acts : ∀ job index activation depth run, Kept run.env (activate host level job index activation depth run).2.env)
    (guid : Guid) (arguments : List Value) (env : Env σ) :
    Kept env (callAt host level guid arguments env).2 := by
  unfold callAt callFunctionWith
  split
  · exact stable.refl env
  · next idle =>
      split
      · exact stable.refl env
      · split
        · exact stable.refl env
        · next position found =>
            split
            · exact stable.refl env
            · next callee there =>
                obtain ⟨graph, ran, left, kept⟩ := stable.call_with level acts arguments callee.body
                  { env with
                    functions := env.functions.set position Function.placeholder
                    callStack := guid :: env.callStack }
                dsimp only
                rw [left]
                exact stable.called env _ guid position callee graph (by simpa using idle) found there ran kept

theorem activate (level : Nat) (job : Job) (index : Nat) (activation : Activation)
    (depth : Nat) (run : Run σ) : Kept run.env (activate host level job index activation depth run).2.env := by
  induction level generalizing job index activation depth run with
  | zero => exact stable.refl run.env
  | succ level ih =>
    refine activate_kept (Kept ·.env ·.env) (stable.refl ·.env) stable.trans host level job index activation
      depth run (stable.counted run.env _) (fun run => stable.noted run.env) (fun source run _ => ih job source .pulled (depth + 1) run)
      (fun node inputs run _ => stable.perform _ (stable.call_function level ih) job index node activation inputs run)
      fun node outputs run => ?_
    rw [store_outputs_env]
    exact stable.refl run.env

end EnvStable

/-- However a run ends, the calls under way are those that it found: what a call adds to them it takes away, for its body
leaves them as they were when it was entered. -/
theorem balanced_stable (host : Host σ) : EnvStable host (fun _ _ => True) fun a b => b.callStack = a.callStack where
  refl _ := rfl
  trans first second := second.trans first
  counted _ _ := rfl
  noted _ _ := rfl
  assigned _ _ _ := rfl
  changed _ _ _ := rfl
  still _ := trivial
  ran _ _ _ _ := trivial
  called _ _ _ _ _ _ _ _ _ _ kept := congrArg List.tail kept

end Patchbay
