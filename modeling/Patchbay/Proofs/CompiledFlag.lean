import Patchbay.Clipboard
import Patchbay.Proofs.Layout
import Patchbay.Proofs.Machine

set_option autoImplicit false

namespace Patchbay

/-- A graph that counts as compiled has the layout of its nodes as they are now. -/
def Graph.Fresh (graph : Graph) : Prop := graph.isCompiled = true → graph.LaidOut

theorem fresh_of_uncompiled (graph : Graph) (uncompiled : graph.size = none) : graph.Fresh := by
  intro compiled
  simp [Graph.isCompiled, uncompiled] at compiled

theorem uncompile_fresh (graph : Graph) : graph.uncompile.Fresh := fresh_of_uncompiled graph.uncompile rfl

theorem fresh_congr (a b : Graph) (layouts : b.layouts = a.layouts) (locals : b.locals.length = a.locals.length)
    (size : b.size = a.size) (fresh : a.Fresh) : b.Fresh := by
  intro compiled
  have laid : a.LaidOut := fresh (by rw [Graph.isCompiled, ← size]; exact compiled)
  unfold Graph.LaidOut
  rw [layouts, locals, size]
  exact laid

variable {α β : Type} {index : Nat} {graph next : Graph} {node : Node}

theorem modify_at_congr (items : List α) (index : Nat) (first second : α → α)
    (same : ∀ item, items[index]? = some item → first item = second item) :
    items.modify index first = items.modify index second := by
  refine List.ext_getElem? fun place => ?_
  rw [List.getElem?_modify, List.getElem?_modify]
  by_cases here : index = place
  · subst here
    cases found : items[index]? with
    | none => rfl
    | some item => simp [same item found]
  · simp [here]

theorem modify_view_found (view : α → β) {items : List α} (change : α → α) {item : α}
    (found : items[index]? = some item) (same : view (change item) = view item) :
    (items.modify index change).map view = items.map view := by
  refine List.ext_getElem? fun place => ?_
  rw [List.getElem?_map, List.getElem?_map, List.getElem?_modify]
  by_cases here : index = place
  · subst here
    simp [found, same]
  · simp [here]

theorem modify_node_layouts (change : Node → Node)
    (found : graph.nodes[index]? = some node) (same : (change node).layout = node.layout) :
    (graph.modifyNode index change).layouts = graph.layouts :=
  modify_view_found Node.layout change found same

theorem modify_node_fresh (change : Node → Node)
    (found : graph.nodes[index]? = some node) (same : (change node).layout = node.layout) (fresh : graph.Fresh) :
    (graph.modifyNode index change).Fresh :=
  fresh_congr graph _ (modify_node_layouts change found same) rfl rfl fresh

theorem prune_fitting (nodes : List Node) (node : Node) (inputs : ∀ pin ∈ node.inputs, pin.fits nodes = true)
    (outs : ∀ pin ∈ node.execOut, pin.fits nodes = true) : node.prune nodes = node := by
  have sameInputs : node.inputs.map (·.prune nodes) = node.inputs.map id :=
    List.map_congr_left fun pin inside => if_pos (inputs pin inside)
  have sameOuts : node.execOut.map (·.prune nodes) = node.execOut.map id :=
    List.map_congr_left fun pin inside => if_pos (outs pin inside)
  simp only [Node.prune, sameInputs, sameOuts, List.map_id]

theorem node_prune_id {nodes : List Node} (none : node.misfits nodes = 0) : node.prune nodes = node := by
  unfold Node.misfits at none
  have inputs : (node.inputs.filter fun pin => !pin.fits nodes) = [] := List.eq_nil_of_length_eq_zero (by omega)
  have outs : (node.execOut.filter fun pin => !pin.fits nodes) = [] := List.eq_nil_of_length_eq_zero (by omega)
  refine prune_fitting nodes node (fun pin inside => ?_) fun pin inside => ?_
  · simpa using List.filter_eq_nil_iff.mp inputs pin inside
  · simpa using List.filter_eq_nil_iff.mp outs pin inside

theorem prune_without_misfits (none : graph.misfits = 0) : graph.prune.1 = graph := by
  have nodes : graph.nodes.map (·.prune graph.nodes) = graph.nodes.map id := by
    apply List.map_congr_left
    intro node inside
    exact node_prune_id (List.sum_eq_zero_iff_forall_eq_nat.mp none _ (List.mem_map_of_mem inside))
  simp only [Graph.prune, none, nodes, List.map_id, if_true]

theorem prune_fresh (fresh : graph.Fresh) : graph.prune.1.Fresh := by
  by_cases none : graph.misfits = 0
  · rwa [prune_without_misfits none]
  · simp only [Graph.prune, if_neg none]
    exact uncompile_fresh _

theorem node_found (found : graph.node? index = .ok node) :
    graph.nodes[index]? = some node := by
  unfold Graph.node? at found
  split at found
  · cases found
    assumption
  · cases found

theorem pin_found {node pin : Nat} {pins : List α} {found : α} (there : pin? node pin pins = .ok found) :
    pins[pin]? = some found := by
  unfold pin? at there
  split at there
  · cases there
    assumption
  · cases there

theorem bind_ok {first : Except ScriptError α} (next : α → Except ScriptError β) {result : β}
    (ok : (first >>= next) = .ok result) : ∃ value, first = .ok value ∧ next value = .ok result := by
  cases first with
  | error => cases ok
  | ok value => exact ⟨value, rfl, ok⟩

theorem pin_at_found {pins : Node → List α} {graph : Graph} {index pin : Nat} {node : Node} {found : α}
    (there : graph.pinAt pins index pin = .ok (node, found)) :
    graph.nodes[index]? = some node ∧ (pins node)[pin]? = some found := by
  unfold Graph.pinAt at there
  obtain ⟨other, nodeFound, rest⟩ := bind_ok _ there
  obtain ⟨item, pinFound, same⟩ := bind_ok _ rest
  cases same
  exact ⟨node_found nodeFound, pin_found pinFound⟩

theorem after_keeps (Kept : Graph → Prop) {look : Graph → Except ScriptError α} {edit : α → Edit β}
    {graph : Graph} (before : Kept graph) (kept : ∀ found, look graph = .ok found → Kept (edit found graph).2) :
    Kept (Edit.after look edit graph).2 := by
  -- A look at the graph changes nothing, so an edit is judged by what it does with what was found.
  unfold Edit.after
  split
  · exact before
  · next found there => exact kept found there

theorem retarget_actions (target : PinType) (node : Node) : (node.retarget target).2 ≠ [] := by
  unfold Node.retarget
  split <;> simp

theorem literal_changed_quiet {input : Nat} (quiet : (node.literalChanged input).2 = []) :
    (node.literalChanged input).1 = node := by
  unfold Node.literalChanged at quiet ⊢
  split
  · next typePin =>
      rw [if_pos typePin] at quiet
      split
      case h_3 => rfl
      all_goals
        next kind named =>
          simp only [kind, named] at quiet
          split
          · rfl
          · next other =>
              rw [if_neg other] at quiet
              exact absurd quiet (retarget_actions _ _)
  · rfl

theorem modify_layout_at (view : α → β) (index : Nat) (change : α → α) (list : List α)
    (same : ∀ item, list[index]? = some item → view (change item) = view item) :
    (list.modify index change).map view = list.map view := by
  apply List.ext_getElem?
  intro i
  simp only [List.getElem?_map, List.getElem?_modify]
  by_cases here : index = i
  · subst here
    cases found : list[index]? with
    | none => rfl
    | some item => simp [same item found]
  · simp [here]

theorem modify_layout (view : α → β) (index : Nat) (change : α → α) (list : List α)
    (same : ∀ item, view (change item) = view item) : (list.modify index change).map view = list.map view :=
  modify_layout_at view index change list fun item _ => same item

theorem set_literal_fresh (index input : Nat) (literal : Value) (fresh : graph.Fresh) :
    (Edit.setLiteral index input literal graph).2.Fresh := by
  apply after_keeps Graph.Fresh fresh
  intro ⟨node, pin⟩ there
  obtain ⟨found, _⟩ := pin_at_found there
  dsimp only
  split
  · next quiet =>
      have none := List.isEmpty_iff.mp quiet
      unfold Graph.replaceNode
      rw [none, literal_changed_quiet none]
      apply modify_node_fresh _ found _ fresh
      simp only [Node.layout]
      rw [modify_layout InputPin.layout]
      intro pin
      rfl
  · exact uncompile_fresh _

theorem set_case_fresh (index output : Nat) (value : Value) (fresh : graph.Fresh) :
    (Edit.setCase index output value graph).2.Fresh := by
  apply after_keeps Graph.Fresh fresh
  intro ⟨node, pin⟩ there
  obtain ⟨found, pinFound⟩ := pin_at_found there
  dsimp only
  split
  · exact fresh
  · apply modify_node_fresh _ found _ fresh
    simp only [Node.layout, NodeLayout.mk.injEq, true_and]
    refine modify_layout_at _ output _ node.execOut fun other there => ?_
    cases pinFound.symm.trans there
    rfl

theorem grow_node_fresh (grow : Node → Node × List NodeAction) (index : Nat)
    (quiet : ∀ node, (grow node).2 = [] → (grow node).1 = node) (fresh : graph.Fresh) :
    (Edit.growNode grow index graph).2.Fresh := by
  apply after_keeps Graph.Fresh fresh
  intro node there
  dsimp only
  split
  · next empty =>
      apply modify_node_fresh _ (node_found there) _ fresh
      rw [quiet node (List.isEmpty_iff.mp empty)]
  · exact uncompile_fresh _

theorem add_input_quiet (node : Node) (quiet : node.addInput.2 = []) : node.addInput.1 = node := by
  unfold Node.addInput at quiet ⊢
  split
  · next kind => simp [kind] at quiet
  · rfl

theorem add_output_quiet (node : Node) (quiet : node.addOutput.2 = []) : node.addOutput.1 = node := by
  unfold Node.addOutput at quiet ⊢
  split
  · next kind => simp [kind] at quiet
  · next kind => simp [kind] at quiet
  · rfl

theorem connect_fresh (source output target input : Nat) (fresh : graph.Fresh) :
    (Edit.connect source output target input graph).2.Fresh :=
  after_keeps Graph.Fresh fresh fun _ _ => uncompile_fresh _

theorem disconnect_fresh (target input : Nat) (fresh : graph.Fresh) :
    (Edit.disconnect target input graph).2.Fresh := by
  apply after_keeps Graph.Fresh fresh
  intro found _
  dsimp only
  split
  · exact fresh
  · exact uncompile_fresh _

theorem set_target_fresh (source output : Nat) (target : Option ExecTarget) (fresh : graph.Fresh) :
    (Edit.setTarget source output target graph).2.Fresh :=
  after_keeps Graph.Fresh fresh fun _ _ => uncompile_fresh _

theorem remove_node_fresh (index : Nat) (fresh : graph.Fresh) :
    (Edit.removeNode index graph).2.Fresh := by
  apply after_keeps Graph.Fresh fresh
  intro node _
  split
  · exact uncompile_fresh _
  · exact fresh

theorem convert_reference_layout (locals globals : List Variable) (functions : List Guid) (form : ReferenceForm)
    (node : Node) : ((node.convertReference? locals globals functions form).getD node).layout = node.layout := by
  unfold Node.convertReference?
  split
  · next reference _ => cases reference.convert? locals globals form <;> rfl
  · split
    · split <;> rfl
    · rfl

theorem erase_all_uncompiled (indices : List Nat) (graph : Graph) (uncompiled : graph.size = none) :
    (indices.foldl (fun graph index => graph.eraseNode index) graph).size = none := by
  induction indices generalizing graph with
  | nil => exact uncompiled
  | cons index rest ih => exact ih (graph.eraseNode index) rfl

theorem convert_references_fresh (globals : List Variable) (functions : List Guid) (form : ReferenceForm)
    (fresh : graph.Fresh) : (graph.convertReferences globals functions form).1.Fresh := by
  unfold Graph.convertReferences
  dsimp only
  cases (graph.staleNodes globals functions form).reverse with
  | nil =>
    refine fresh_congr graph _ ?_ rfl rfl fresh
    simp only [List.foldl_nil, Graph.layouts, List.map_map]
    exact List.map_congr_left fun node _ => convert_reference_layout graph.locals globals functions form node
  | cons index rest => exact fresh_of_uncompiled _ (erase_all_uncompiled rest _ rfl)

theorem sync_calls_fresh (function : Guid) (inputs outputs : List Parameter) (fresh : graph.Fresh) :
    (graph.syncCalls function inputs outputs).1.Fresh := by
  unfold Graph.syncCalls
  dsimp only
  split
  · exact fresh
  · exact uncompile_fresh _

theorem add_all_fresh (place : α → Node) (items : List α) (graph : Graph) (fresh : graph.Fresh) :
    (items.foldl (fun graph item => graph.addNode (place item)) graph).Fresh := by
  induction items generalizing graph with
  | nil => exact fresh
  | cons item rest ih => exact ih _ (uncompile_fresh _)

theorem paste_nodes_fresh (globals : List Variable) (functions : List Guid) (text : String) (offset : Position)
    (fresh : graph.Fresh) : (Edit.pasteNodes globals functions text offset graph).2.Fresh := by
  unfold Edit.pasteNodes Edit.pasteNodesWith
  split
  · exact fresh
  · exact prune_fresh (add_all_fresh _ _ graph fresh)

theorem compile_fresh (graph : Graph) : graph.compile.2.Fresh := by
  cases outcome : graph.compile with
  | mk result compiled =>
    cases result with
    | ok done => exact fun _ => compile_laid_out graph compiled outcome
    | error =>
      apply fresh_of_uncompiled
      unfold Graph.compile at outcome
      dsimp only at outcome
      split at outcome <;> cases outcome
      rfl

theorem progress_length_stable (job : Job) :
    FrameStable job (fun _ _ => True) fun a b => b.progress.length = a.progress.length where
  refl _ := rfl
  trans first second := second.trans first
  pulls _ _ := trivial
  effect frame index node activation inputs effect _ _ _ := by simp [Frame.applyEffect]
  returned _ _ := rfl
  stack _ _ _ := rfl

/-- A graph without what its runs leave behind: the stack, the return points and how far its nodes are. -/
def Graph.wiped (graph : Graph) : Graph :=
  { graph with nodes := graph.nodes.map (·.withProgress .idle), stack := [], returnPoints := [] }

theorem wiped_layouts (graph : Graph) : graph.wiped.layouts = graph.layouts := by
  simp only [Graph.layouts, Graph.wiped, List.map_map]
  rfl

theorem absorb_wiped {frame : Frame} (failed : Bool) {graph : Graph} (long : frame.progress.length = graph.nodes.length) :
    (graph.absorb frame failed).wiped = graph.wiped := by
  have nodes : (graph.absorb frame failed).nodes.map (·.withProgress .idle) = graph.nodes.map (·.withProgress .idle) := by
    apply List.ext_getElem?
    intro index
    simp only [Graph.absorb, List.getElem?_map, List.getElem?_zipWith]
    cases found : graph.nodes[index]? with
    | none => rfl
    | some node =>
      have inside : index < frame.progress.length := by
        rw [long]
        exact (List.getElem?_eq_some_iff.mp found).1
      simp only [List.getElem?_eq_getElem inside]
      rfl
  simp only [Graph.wiped, nodes]
  rfl

theorem prepare_error {cause : ScriptError} (failed : graph.prepare = (.error cause, next)) :
    next = graph := by
  unfold Graph.prepare at failed
  split at failed <;> cases failed
  rfl

theorem prepare_ok (ready : graph.prepare = (.ok (), next)) :
    ∃ size, graph.size = some size ∧ next = { graph with stack := Graph.initialStack graph.locals size } := by
  unfold Graph.prepare at ready
  split at ready <;> cases ready
  next size found => exact ⟨size, found, rfl⟩

/-- A run rewrites the stack, the return points and how far the nodes have come. It keeps a record
of progress for every node, so that no node is lost when the graph takes them back. -/
theorem run_with_wiped {σ : Type} (host : Host σ) (level start : Nat) (arguments : List Value) (graph : Graph)
    (env : Env σ) :
    (graph.runWith host (activate host level) start arguments env).2.1.wiped = graph.wiped := by
  unfold Graph.runWith
  split
  · rfl
  · split
    · next cause next failed => rw [prepare_error failed]
    · next next ready =>
        obtain ⟨size, _, rfl⟩ := prepare_ok ready
        have length := follow_frame (progress_length_stable ⟨graph.nodes, graph.locals, arguments⟩) host
          level (host.limits.maxSteps + 1) start (.entered 0)
          ⟨{ graph with stack := Graph.initialStack graph.locals size }.frame, env⟩
        simp only [Graph.frame, List.length_map] at length
        dsimp only
        split <;> next outcome =>
          have long := congrArg (fun result => result.2.frame.progress.length) outcome
          exact absorb_wiped _ (long.symm.trans length)

theorem run_with_fresh {σ : Type} (host : Host σ) (level start : Nat) (arguments : List Value)
    (env : Env σ) (fresh : graph.Fresh) : (graph.runWith host (activate host level) start arguments env).2.1.Fresh := by
  have same := run_with_wiped host level start arguments graph env
  have layouts := congrArg Graph.layouts same
  rw [wiped_layouts, wiped_layouts] at layouts
  exact fresh_congr graph _ layouts (congrArg (·.locals.length) same :) (congrArg Graph.size same :) fresh

/-- What can be done to a graph. `reshape` stands for any change of a node from outside. -/
inductive Operation : Type 1 where
  | addNode (node : Node)
  | reshape (index : Nat) (change : Node → Node × List NodeAction)
  | addLocal (entry : Variable)
  | removeNode (index : Nat)
  | connect (source output target input : Nat)
  | disconnect (target input : Nat)
  | connectExec (source output target input : Nat)
  | disconnectExec (source output : Nat)
  | setLiteral (index input : Nat) (literal : Value)
  | setCase (index output : Nat) (value : Value)
  | addInput (index : Nat)
  | addOutput (index : Nat)
  | prune
  | syncCalls (function : Guid) (inputs outputs : List Parameter)
  | convertReferences (globals : List Variable) (functions : List Guid) (form : ReferenceForm)
  | pasteNodes (globals : List Variable) (functions : List Guid) (text : String) (offset : Position)
  | compile
  | prepare
  | run {σ : Type} (host : Host σ) (start : Nat) (arguments : List Value) (env : Env σ)

/-- The graph after an operation, also after one that failed. -/
def Operation.apply (graph : Graph) : Operation → Graph
  | .addNode node => graph.addNode node
  | .reshape index change => (graph.reshapeNode index change).2
  | .addLocal entry => graph.addLocal entry
  | .removeNode index => (Edit.removeNode index graph).2
  | .connect source output target input => (Edit.connect source output target input graph).2
  | .disconnect target input => (Edit.disconnect target input graph).2
  | .connectExec source output target input => (Edit.connectExec source output target input graph).2
  | .disconnectExec source output => (Edit.disconnectExec source output graph).2
  | .setLiteral index input literal => (Edit.setLiteral index input literal graph).2
  | .setCase index output value => (Edit.setCase index output value graph).2
  | .addInput index => (Edit.addInput index graph).2
  | .addOutput index => (Edit.addOutput index graph).2
  | .prune => graph.prune.1
  | .syncCalls function inputs outputs => (graph.syncCalls function inputs outputs).1
  | .convertReferences globals functions form => (graph.convertReferences globals functions form).1
  | .pasteNodes globals functions text offset => (Edit.pasteNodes globals functions text offset graph).2
  | .compile => graph.compile.2
  | .prepare => graph.prepare.2
  | .run host start arguments env => (graph.run host start arguments env).2.1

theorem reshape_fresh (index : Nat) (change : Node → Node × List NodeAction) (graph : Graph) :
    (graph.reshapeNode index change).2.Fresh := by
  unfold Graph.reshapeNode
  split <;> exact uncompile_fresh _

theorem prepare_fresh (fresh : graph.Fresh) : graph.prepare.2.Fresh := by
  unfold Graph.prepare
  split
  · exact fresh
  · exact fresh_congr graph _ rfl rfl rfl fresh

theorem operation_fresh (graph : Graph) (operation : Operation) (fresh : graph.Fresh) :
    (operation.apply graph).Fresh := by
  cases operation with
  | addNode node => exact uncompile_fresh _
  | reshape index change => exact reshape_fresh index change graph
  | addLocal => exact uncompile_fresh _
  | removeNode index => exact remove_node_fresh index fresh
  | connect source output target input => exact connect_fresh source output target input fresh
  | disconnect target input => exact disconnect_fresh target input fresh
  | connectExec source output =>
    exact after_keeps Graph.Fresh fresh fun _ _ => set_target_fresh source output _ fresh
  | disconnectExec source output => exact set_target_fresh source output none fresh
  | setLiteral index input literal => exact set_literal_fresh index input literal fresh
  | setCase index output value => exact set_case_fresh index output value fresh
  | addInput index => exact grow_node_fresh Node.addInput index add_input_quiet fresh
  | addOutput index => exact grow_node_fresh Node.addOutput index add_output_quiet fresh
  | prune => exact prune_fresh fresh
  | syncCalls function inputs outputs => exact sync_calls_fresh function inputs outputs fresh
  | convertReferences globals functions form => exact convert_references_fresh globals functions form fresh
  | pasteNodes globals functions text offset => exact paste_nodes_fresh globals functions text offset fresh
  | compile => exact compile_fresh graph
  | prepare => exact prepare_fresh fresh
  | run host start arguments env => exact run_with_fresh host _ start arguments env fresh

theorem history_keeps (Kept : Graph → Prop) (kept : ∀ graph (operation : Operation), Kept graph → Kept (operation.apply graph))
    (history : List Operation) (graph : Graph) (before : Kept graph) : Kept (history.foldl Operation.apply graph) := by
  induction history generalizing graph with
  | nil => exact before
  | cons operation rest ih => exact ih _ (kept graph operation before)

theorem read_uncompiled {medium : Medium} {document : Document}
    (read : Graph.read medium document = some graph) : graph.size = none := by
  unfold Graph.read at read
  simp only [bind, Option.bind_eq_some_iff, pure, Option.some.injEq] at read
  obtain ⟨_, _, _, _, _, _, rfl⟩ := read
  rfl

/-- Where a graph begins: without nodes, or as a document has it. -/
inductive Graph.Initial : Graph → Prop where
  | empty : Initial Graph.empty
  | stored (medium : Medium) (document : Document) (graph : Graph) (read : Graph.read medium document = some graph) :
      Initial graph

theorem initial_fresh (initial : graph.Initial) : graph.Fresh := by
  cases initial with
  | empty => exact fresh_of_uncompiled Graph.empty rfl
  | stored medium document graph read => exact fresh_of_uncompiled graph (read_uncompiled read)

theorem compiled_flag_never_stale (initial : Graph) (begins : initial.Initial) (history : List Operation)
    (compiled : (history.foldl Operation.apply initial).isCompiled = true) :
    (history.foldl Operation.apply initial).compile = (.ok (), history.foldl Operation.apply initial) :=
  laid_out_compile _ (history_keeps Graph.Fresh operation_fresh history initial (initial_fresh begins) compiled)

/-- Four edits that leave a compiled graph compiled, and a run among them. -/
theorem compiled_flag_survives_quiet_edits :
    let history : List Operation := [.addNode (Node.functionEntry []), .addNode Node.branch, .connectExec 0 0 1 0,
      .compile, .setLiteral 1 0 (.bool true), .disconnect 1 0, .prune,
      .run (⟨Catalog.empty, none, Limits.default⟩ : Host Unit) 1 [] (Env.start [] [] ())]
    (history.foldl Operation.apply Graph.empty).isCompiled = true ∧
      (history.foldl Operation.apply Graph.empty).compile = (.ok (), history.foldl Operation.apply Graph.empty) :=
  ⟨rfl, compiled_flag_never_stale Graph.empty .empty _ rfl⟩

end Patchbay
