import Patchbay.Proofs.CompiledFlag

set_option autoImplicit false

namespace Patchbay

variable {σ : Type}

variable {job : Job} {graph : Graph}

theorem successor_nowhere {index : Nat} {next : Option Nat} {points : List Nat}
    (nowhere : successor job index next points = .ok none) : points = [] := by
  cases points with
  | nil => rfl
  | cons =>
    unfold successor at nowhere
    simp only [List.head?_cons, Option.map_some] at nowhere
    split at nowhere
    · cases nowhere
    · split at nowhere
      · cases nowhere
      · split at nowhere <;> cases nowhere

theorem follow_ends {host : Host σ} {act : Activate σ} {fuel : Nat} (index : Nat) {last : Nat} (activation : Activation)
    (run : Run σ) {after : Run σ} (done : follow host act job fuel index activation run = (.ok last, after)) :
    after.frame.returnPoints = [] := by
  induction fuel generalizing index activation run with
  | zero => cases done
  | succ fuel ih =>
    unfold follow at done
    split at done
    · cases done
    · next next mid _ =>
        split at done
        · cases done
        · next nowhere =>
            cases done
            exact successor_nowhere nowhere
        · next node activation _ => exact ih node activation mid done

/-- A run that succeeds followed control from its start on a stack that was prepared for it, and is what that came to. -/
theorem run_with_ok {host : Host σ} {act : Activate σ} {start : Nat} {arguments : List Value} {later : Graph}
    {env after : Env σ} {outcome : Outcome} (done : graph.runWith host act start arguments env = (.ok outcome, later, after)) :
    ∃ stack last run, graph.isCompiled = true ∧
      follow host act ⟨graph.nodes, graph.locals, arguments⟩ (host.limits.maxSteps + 1) start (.entered 0)
        ⟨{ graph.frame with stack := stack }, env⟩ = (.ok last, run) ∧
      outcome = ⟨some last, run.frame.returned⟩ ∧ later.returnPoints = run.frame.returnPoints ∧ after = run.env := by
  unfold Graph.runWith at done
  split at done
  · cases done
  · split at done
    · cases done
    · next ready prepared =>
        obtain ⟨size, sized, rfl⟩ := prepare_ok prepared
        dsimp only at done
        split at done
        · next last run followed =>
            cases done
            exact ⟨_, last, run, by rw [Graph.isCompiled, sized]; rfl, followed, rfl, rfl, rfl⟩
        · cases done

def Graph.AtRest (graph : Graph) : Prop := graph.returnPoints = []

theorem run_with_at_rest (host : Host σ) (act : Activate σ) (start : Nat) (arguments : List Value) (graph : Graph)
    (env : Env σ) (rests : graph.AtRest) : (graph.runWith host act start arguments env).2.1.AtRest := by
  unfold Graph.runWith
  split
  · exact rests
  · split
    · next cause next failed => rwa [prepare_error failed]
    · dsimp only
      split
      · next last run done => exact follow_ends start (.entered 0) _ done
      · rfl

theorem prune_points (graph : Graph) : graph.prune.1.returnPoints = graph.returnPoints := by
  unfold Graph.prune
  dsimp only
  split <;> rfl

theorem replace_points (index : Nat) (change : Node × List NodeAction) (graph : Graph) :
    (graph.replaceNode index change).returnPoints = graph.returnPoints := by
  unfold Graph.replaceNode Graph.settle
  split
  · exact prune_points _
  · rfl

theorem quiet_points (quiet : Bool) (graph : Graph) :
    (if quiet then graph else graph.uncompile).returnPoints = graph.returnPoints := by
  cases quiet <;> rfl

theorem grow_node_at_rest (grow : Node → Node × List NodeAction) (index : Nat) (rests : graph.AtRest) :
    (Edit.growNode grow index graph).2.AtRest :=
  after_keeps Graph.AtRest rests fun _ _ => (quiet_points _ _).trans rests

theorem set_target_at_rest (source output : Nat) (target : Option ExecTarget) (rests : graph.AtRest) :
    (Edit.setTarget source output target graph).2.AtRest :=
  after_keeps Graph.AtRest rests fun _ _ => rests

theorem erase_all_at_rest (indices : List Nat) (graph : Graph) (rests : graph.AtRest) :
    (indices.foldl (fun graph index => graph.eraseNode index) graph).AtRest := by
  induction indices generalizing graph with
  | nil => exact rests
  | cons index rest ih => exact ih (graph.eraseNode index) rfl

theorem add_all_at_rest {α : Type} (place : α → Node) (items : List α) (graph : Graph) (rests : graph.AtRest) :
    (items.foldl (fun graph item => graph.addNode (place item)) graph).AtRest := by
  induction items generalizing graph with
  | nil => exact rests
  | cons item rest ih => exact ih _ rests

theorem compile_points (graph : Graph) : graph.compile.2.returnPoints = graph.returnPoints := by
  unfold Graph.compile
  dsimp only
  split <;> rfl

theorem reshape_at_rest (index : Nat) (change : Node → Node × List NodeAction) (rests : graph.AtRest) :
    (graph.reshapeNode index change).2.AtRest := by
  unfold Graph.reshapeNode
  split <;> exact rests

theorem sync_calls_at_rest (function : Guid) (inputs outputs : List Parameter) (rests : graph.AtRest) :
    (graph.syncCalls function inputs outputs).1.AtRest := by
  unfold Graph.syncCalls
  dsimp only
  split
  · exact rests
  · exact (prune_points _).trans rests

theorem paste_nodes_at_rest (globals : List Variable) (functions : List Guid) (text : String) (offset : Position)
    (rests : graph.AtRest) : (Edit.pasteNodes globals functions text offset graph).2.AtRest := by
  unfold Edit.pasteNodes Edit.pasteNodesWith
  split
  · exact rests
  · exact (prune_points _).trans (add_all_at_rest _ _ graph rests)

theorem prepare_at_rest (rests : graph.AtRest) : graph.prepare.2.AtRest := by
  unfold Graph.prepare
  split <;> exact rests

theorem operation_at_rest (graph : Graph) (operation : Operation) (rests : graph.AtRest) :
    (operation.apply graph).AtRest := by
  cases operation with
  | addNode node => exact rests
  | addLocal => exact rests
  | reshape index change => exact reshape_at_rest index change rests
  | removeNode =>
    refine after_keeps Graph.AtRest rests fun node _ => ?_
    split
    · rfl
    · exact rests
  | connect =>
    exact after_keeps Graph.AtRest rests fun _ _ => (replace_points _ _ graph).trans rests
  | disconnect =>
    refine after_keeps Graph.AtRest rests fun _ _ => ?_
    dsimp only
    split
    · exact rests
    · exact (replace_points _ _ graph).trans rests
  | connectExec source output =>
    exact after_keeps Graph.AtRest rests fun _ _ => set_target_at_rest source output _ rests
  | disconnectExec source output => exact set_target_at_rest source output none rests
  | setLiteral =>
    exact after_keeps Graph.AtRest rests fun _ _ =>
      (quiet_points _ _).trans ((replace_points _ _ graph).trans rests)
  | setCase =>
    refine after_keeps Graph.AtRest rests fun _ _ => ?_
    dsimp only
    split <;> exact rests
  | addInput index => exact grow_node_at_rest Node.addInput index rests
  | addOutput index => exact grow_node_at_rest Node.addOutput index rests
  | prune => exact (prune_points graph).trans rests
  | syncCalls function inputs outputs => exact sync_calls_at_rest function inputs outputs rests
  | convertReferences => exact erase_all_at_rest _ _ rests
  | pasteNodes globals functions text offset => exact paste_nodes_at_rest globals functions text offset rests
  | compile => exact (compile_points graph).trans rests
  | prepare => exact prepare_at_rest rests
  | run host start arguments env => exact run_with_at_rest host _ start arguments graph env rests

def Graph.Built (graph : Graph) : Prop :=
  ∃ (initial : Graph) (history : List Operation), initial.Initial ∧ graph = history.foldl Operation.apply initial

theorem initial_at_rest (graph : Graph) (initial : graph.Initial) : graph.AtRest := by
  cases initial with
  | empty => rfl
  | stored medium document graph read =>
    unfold Graph.read at read
    simp only [bind, Option.bind_eq_some_iff, pure, Option.some.injEq] at read
    obtain ⟨_, _, _, _, _, _, rfl⟩ := read
    rfl

theorem built_at_rest (graph : Graph) (built : graph.Built) : graph.AtRest := by
  obtain ⟨initial, history, begins, rfl⟩ := built
  exact history_keeps Graph.AtRest operation_at_rest history initial (initial_at_rest initial begins)

theorem built_fresh (graph : Graph) (built : graph.Built) : graph.Fresh := by
  obtain ⟨initial, history, begins, rfl⟩ := built
  exact history_keeps Graph.Fresh operation_fresh history initial (initial_fresh begins)

end Patchbay
