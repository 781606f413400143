import Patchbay.Proofs.Arity
import Patchbay.Proofs.Rest
import Patchbay.Proofs.ReturnPoints

set_option autoImplicit false

namespace Patchbay

variable {σ : Type}

variable {index level : Nat} {node : Node} {outputs arguments : List Value} {run after : Run σ} {host : Host σ}
  {job : Job} {activation : Activation} {next : Option Nat} {env : Env σ}

theorem store_outputs_returned {stored : Run σ}
    (kept : storeOutputs index node outputs run = (.ok (), stored)) : stored.frame.returned = run.frame.returned := by
  unfold storeOutputs at kept
  split at kept
  · cases kept
  · split at kept <;> cases kept
    rfl

theorem return_performed {call : Call σ} {inputs : List Value} {given : Run σ} (kind : node.kind = .functionReturn)
    (performed : perform host call job index node activation inputs run = (.ok (outputs, next), given)) :
    outputs = [] ∧ next = none ∧ given.frame.returnPoints = [] ∧ given.frame.returned = some inputs := by
  simp only [perform, Effect.ofNode?, kind, if_true] at performed
  cases performed
  exact ⟨rfl, rfl, rfl, rfl⟩

def Step.entry (calls : List Guid) (step : Step) : TraceEntry :=
  .ended ⟨calls, step.node, step.activation⟩ step.inputs step.outputs step.next

/-- A step of a return: nothing comes out of it and control does not go on from it. -/
structure Step.Returns (step : Step) (after : Run σ) : Prop where
  outputs : step.outputs = []
  next : step.next = none
  points : after.frame.returnPoints = []
  returned : after.frame.returned = some step.inputs

theorem step_noted (traversed : activation ≠ .pulled)
    (done : activate host level job index activation 0 run = (.ok next, after)) :
    ∃ node step, job.nodes[index]? = some node ∧ step.node = index ∧ step.next = next ∧ Noted run after [step] ∧
      after.env.trace.head? = some (step.entry run.env.callStack) ∧ (node.kind = .functionReturn → step.Returns after) := by
  cases level with
  | zero => cases done
  | succ =>
    obtain ⟨_, node, _, _, _, _, _, _, found, _⟩ := activate_ok done
    obtain ⟨env, inputs, outputs, ready, given, stored, _, performed, kept, rfl, noted⟩ :=
      activation_noted found traversed done
    refine ⟨node, _, found, rfl, rfl, noted, rfl, fun kind => ?_⟩
    obtain ⟨nothing, stops, points, returned⟩ := return_performed kind performed
    have cleared := (store_outputs_frame kept).1
    have held := store_outputs_returned kept
    exact ⟨nothing, stops, cleared.trans points, held.trans returned⟩

/-- So only the last step of a run can be one of a return. -/
theorem follow_concludes {fuel : Nat} (index : Nat) {last : Nat} (activation : Activation)
    (traversed : activation ≠ .pulled) (run : Run σ)
    (done : follow host (activate host level) job fuel index activation run = (.ok last, after)) :
    ∃ front final, Noted run after (front ++ [final]) ∧ final.node = last ∧
      after.env.trace.head? = some (final.entry run.env.callStack) ∧
      (∀ step ∈ front, ∀ node, job.nodes[step.node]? = some node → node.kind ≠ .functionReturn) ∧
      (∀ node, job.nodes[last]? = some node → node.kind = .functionReturn → final.Returns after) := by
  induction fuel generalizing index activation run with
  | zero => cases done
  | succ fuel ih =>
    unfold follow at done
    split at done
    · cases done
    · next next mid acted =>
        obtain ⟨node, step, found, here, chosen, noted, entry, returns⟩ :=
          step_noted traversed acted
        split at done
        · cases done
        · cases done
          refine ⟨[], step, noted, here, entry, fun _ inside => absurd inside List.not_mem_nil, fun other there kind => ?_⟩
          cases found.symm.trans there
          exact returns kind
        · next place way leads =>
            have onward : way ≠ .pulled := by
              obtain ⟨_, _, _, _, _, _, _, _, rfl⟩ | ⟨rfl, _⟩ := successor_ways leads
              · simp
              · simp
            obtain ⟨front, final, later, there, entry, before, atLast⟩ := ih place way onward mid done
            refine ⟨step :: front, final, noted.trans later, there, noted.calls ▸ entry, fun other inside => ?_, atLast⟩
            obtain rfl | inside := List.mem_cons.mp inside
            · -- A return has no next pin and leaves no point to come back to.
              intro twin there kind
              cases found.symm.trans (here ▸ there)
              have conclusion := returns kind
              rw [← chosen, conclusion.next, conclusion.points] at leads
              cases leads
            · exact before other inside

theorem run_concludes {start : Nat} {graph later : Graph} {after : Env σ}
    {outcome : Outcome} (done : graph.runWith host (activate host level) start arguments env = (.ok outcome, later, after)) :
    ∃ front final, history env.callStack after.trace = history env.callStack env.trace ++ front ++ [final] ∧
      after.trace.head? = some (final.entry env.callStack) ∧ outcome.lastNode = some final.node ∧ later.returnPoints = [] ∧
      (∀ step ∈ front, ∀ node, graph.nodes[step.node]? = some node → node.kind ≠ .functionReturn) ∧
      (∀ node, graph.nodes[final.node]? = some node → node.kind = .functionReturn →
        final.outputs = [] ∧ final.next = none ∧ outcome.returned = some final.inputs) := by
  obtain ⟨stack, last, run, _, followed, rfl, points, rfl⟩ := run_with_ok done
  obtain ⟨front, final, noted, rfl, entry, before, atLast⟩ := follow_concludes start (.entered 0) (by simp) _ followed
  refine ⟨front, final, ?_, entry, rfl, points.trans (follow_ends start (.entered 0) _ followed), before, ?_⟩
  · rw [List.append_assoc]
    exact noted.steps
  · intro node found kind
    have returns := atLast node found kind
    exact ⟨returns.outputs, returns.next, returns.returned⟩

theorem call_runs {body : Body} {values : List Value} (succeeded : (body.call host arguments env).1 = .ok values) :
    ∃ returned, body.graph.nodes[returnNode]? = some returned ∧ returned.kind = .functionReturn ∧
      ∃ outcome, body.graph.runWith host (activate host (host.limits.maxSteps + 1)) entryNode arguments env =
        (.ok outcome, (body.call host arguments env).2.1.graph, (body.call host arguments env).2.2) ∧
        values = body.results outcome := by
  generalize called : body.call host arguments env = answer at succeeded ⊢
  unfold Body.call Body.callWith at called
  split at called
  · cases called
    cases succeeded
  · next checked =>
      obtain ⟨_, _, placed⟩ := bind_ok _ checked
      obtain ⟨returned, there, isReturn⟩ := kind_expected placed
      split at called
      · cases called
        cases succeeded
      · split at called
        · cases called
          cases succeeded
        · next outcome graph after done =>
            cases called
            cases succeeded
            exact ⟨returned, there, isReturn, outcome, done, rfl⟩

/-- A call as its caller makes it, who has some values already: the results are appended to them. -/
def Body.callOnto (host : Host σ) (arguments : List Value) (body : Body) (env : Env σ) (out : List Value) :
    (Except ScriptError Unit × List Value) × Body × Env σ :=
  match body.checkStructure with
  | .error cause => ((.error cause, out), body, env)
  | .ok () =>
    if arguments.length ≠ body.inputs.length then
      ((.error (.parameterCountMismatch body.inputs.length arguments.length), out), body, env)
    else
      match host.runner arguments body.graph env with
      | (.error cause, graph, after) => ((.error cause, out), { body with graph := graph }, after)
      | (.ok outcome, graph, after) => ((.ok (), out ++ body.results outcome), { body with graph := graph }, after)

theorem call_onto (host : Host σ) (arguments : List Value) (body : Body) (env : Env σ) (out : List Value) :
    let call := body.call host arguments env
    let onto := body.callOnto host arguments env out
    onto.2 = call.2 ∧ (∀ cause, call.1 = .error cause → onto.1 = (.error cause, out)) ∧
      ∀ values, call.1 = .ok values → onto.1 = (.ok (), out ++ values) := by
  dsimp only [Body.call, Body.callWith, Body.callOnto]
  cases body.checkStructure with
  | error cause => simp
  | ok =>
    by_cases count : arguments.length ≠ body.inputs.length
    · simp [count]
    · obtain ⟨result, graph, after⟩ := host.runner arguments body.graph env
      cases result <;> simp [count]

/-- A call that succeeds appends as many values as the function declares. If control came to the return, that was the last
thing it did, whatever was still under way, and the values are what the return read; otherwise they are null. A call that
fails leaves the values of its caller as they are. -/
theorem call_results (host : Host σ) (arguments : List Value) (body : Body) (env : Env σ) (out : List Value) :
    let call := body.call host arguments env
    let onto := body.callOnto host arguments env out
    onto.2 = call.2 ∧ (∀ cause, call.1 = .error cause → onto.1 = (.error cause, out)) ∧
    (∀ values, call.1 = .ok values → onto.1 = (.ok (), out ++ values) ∧ values.length = body.outputs.length ∧
      ∃ front final, history env.callStack call.2.2.trace = history env.callStack env.trace ++ front ++ [final] ∧
        call.2.2.trace.head? = some (final.entry env.callStack) ∧ call.2.1.graph.returnPoints = [] ∧
        (∀ step ∈ front, step.node ≠ returnNode) ∧
        (final.node = returnNode → final.outputs = [] ∧ final.next = none ∧
          values = final.inputs.take body.outputs.length ++
            List.replicate (body.outputs.length - final.inputs.length) .null) ∧
        (final.node ≠ returnNode → values = List.replicate body.outputs.length .null)) := by
  intro call onto
  obtain ⟨same, refused, appended⟩ := call_onto host arguments body env out
  refine ⟨same, refused, fun values succeeded => ?_⟩
  have count : values.length = body.outputs.length := call_with_count succeeded
  refine ⟨appended values succeeded, count, ?_⟩
  obtain ⟨returned, there, isReturn, outcome, done, given⟩ := call_runs succeeded
  obtain ⟨front, final, noted, entry, last, rests, before, returns⟩ :=
    run_concludes done
  refine ⟨front, final, noted, entry, rests, ?before, ?reached, ?unreached⟩
  case before =>
    intro step inside same
    exact before step inside returned (same ▸ there) isReturn
  case reached =>
    intro same
    obtain ⟨nothing, stops, inputs⟩ := returns returned (same ▸ there) isReturn
    rw [Body.results, inputs, last, same] at given
    exact ⟨nothing, stops, given⟩
  case unreached =>
    intro other
    have null : body.results outcome = body.fitOutputs [] := by
      rw [Body.results, last]
      split
      · exact if_neg fun same => other (Option.some.inj same)
      · rfl
    rw [given, null]
    simp [Body.fitOutputs]

/-- A function that returns out of a loop inside a sequence, and the same with nothing after its entry. -/
def escaping (entered : Bool) : Body :=
  let fresh := Body.fresh [] [⟨"index", .int⟩]
  let graph := (fresh.graph.addNode (Node.sequence 2)).addNode Node.forLoop
  let inner := (Edit.connectExec 3 0 1 0 (Edit.connectExec 2 0 3 0 graph).2).2
  let fed := (Edit.connect 3 0 1 0 (Edit.setLiteral 3 1 (.int 10) inner).2).2
  let begun := if entered then (Edit.connectExec 0 0 2 0 fed).2 else fed
  { fresh with graph := begun.compile.2 }

theorem escaping_results :
    let host : Host Unit := ⟨Catalog.empty, none, ⟨100, 4, 4⟩⟩
    let call (entered : Bool) := (escaping entered).call host [] (Env.start [] [] ())
    (call true).1 = .ok [.int 0] ∧ (call false).1 = .ok [.null] ∧
    (∃ front final, history [] (call true).2.2.trace = front ++ [final] ∧ final.node = returnNode ∧
      (∀ step ∈ front, step.node ≠ returnNode) ∧ front.length = 3 ∧ (call true).2.1.graph.returnPoints = []) ∧
    (∃ front final, history [] (call false).2.2.trace = front ++ [final] ∧ ∀ step ∈ front, step.node ≠ returnNode) ∧
    ((escaping true).callOnto host [] (Env.start [] [] ()) [.bool true]).1 = (.ok (), [.bool true, .int 0]) ∧
    ((escaping true).callOnto host [.null] (Env.start [] [] ()) [.bool true]).1 =
      (.error (.parameterCountMismatch 0 1), [.bool true]) := by
  intro host call
  have returned : (call true).1 = .ok [.int 0] := by rfl
  have null : (call false).1 = .ok [.null] := by rfl
  obtain ⟨_, _, reached⟩ := call_results host [] (escaping true) (Env.start [] [] ()) [.bool true]
  obtain ⟨appended, _, front, final, noted, _, rests, before, _, unreached⟩ := reached _ returned
  obtain ⟨_, refused, _⟩ := call_results host [.null] (escaping true) (Env.start [] [] ()) [.bool true]
  obtain ⟨_, _, missed⟩ := call_results host [] (escaping false) (Env.start [] [] ()) []
  obtain ⟨_, _, front', final', noted', _, _, before', _⟩ := missed _ null
  have steps : (history [] (call true).2.2.trace).length = 4 := by decide +kernel
  refine ⟨returned, null, ⟨front, final, noted, ?_, before, ?_, rests⟩, ⟨front', final', noted', before'⟩, appended,
    refused _ rfl⟩
  · by_cases same : final.node = returnNode
    · exact same
    · cases unreached same
  · rw [show history [] (call true).2.2.trace = front ++ [final] from noted, List.length_append] at steps
    exact Nat.succ.inj steps

end Patchbay
