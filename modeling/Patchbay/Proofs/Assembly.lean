import Patchbay.Proofs.Fixtures
import Patchbay.Proofs.Independence
import Patchbay.Proofs.Resolvers
import Patchbay.Proofs.Subscriptions
import Patchbay.Proofs.Walk

set_option autoImplicit false

namespace Patchbay

namespace NodeKind

def exits : NodeKind → Nat
  | .branch | .forLoop | .forEach | .whileLoop | .cast _ => 2
  | .functionEntry | .receiveEvent _ _ | .switch | .setVariable _ | .setMember _ | .callFunction _ => 1
  | .callNative _ isPure => if isPure then 0 else 1
  | _ => 0

def yields? : NodeKind → Option Nat
  | .functionEntry | .receiveEvent _ _ | .callNative _ _ | .callFunction _ => none
  | .functionReturn | .branch | .sequence | .whileLoop | .switch => some 0
  | .forEach | .implicitCast _ => some 2
  | _ => some 1

/-- The outputs are the parameters of a function or an event, and follow them. -/
def follows : NodeKind → Bool
  | .functionEntry | .receiveEvent _ _ | .callFunction _ => true
  | _ => false

def sort : NodeKind → NodeKind
  | .receiveEvent _ _ => .receiveEvent "" none
  | .cast _ => .cast .any
  | .implicitCast _ => .implicitCast .any
  | .getVariable _ => .getVariable (.live .zero)
  | .setVariable _ => .setVariable (.live .zero)
  | .getMember _ => .getMember ""
  | .setMember _ => .setMember ""
  | .getComponent _ => .getComponent .zero
  | .callFunction _ => .callFunction .zero
  | kind => kind

variable (kind : NodeKind)

theorem sort_entrances : kind.sort.entrances = kind.entrances := by cases kind <;> rfl

theorem sort_exits : kind.sort.exits = kind.exits := by cases kind <;> rfl

theorem sort_yields : kind.sort.yields? = kind.yields? := by cases kind <;> rfl

theorem sort_follows : kind.sort.follows = kind.follows := by cases kind <;> rfl

theorem sort_native (key : String) (isPure : Bool) :
    kind.sort = .callNative key isPure ↔ kind = .callNative key isPure := by
  cases kind <;> simp [sort]

theorem follows_untold {kind : NodeKind} (follows : kind.follows = true) : kind.yields? = none := by
  cases kind with
  | functionEntry | receiveEvent | callFunction => rfl
  | _ => cases follows

theorem sort_referring (reference : Reference) : (kind.withReference reference).sort = kind.sort := by
  cases kind <;> rfl

end NodeKind

structure Form where
  sort : NodeKind
  execIn : Nat
  execOut : Nat
  outputs : Nat

namespace Node

def form (node : Node) : Form := ⟨node.kind.sort, node.execIn.length, node.execOut.length, node.outputs.length⟩

/-- A node has the pins that it counts on, and an output for every value that it gives. The outputs of a native call are those
of a function that is known. -/
structure Fitted (known : FunctionInfo → Prop) (node : Node) : Prop where
  shaped : node.Shaped
  exits : node.kind.exits ≤ node.execOut.length
  outputs : ∀ count, node.kind.yields? = some count → node.outputs.length = count
  native : ∀ key isPure, node.kind = .callNative key isPure →
    ∃ info, known info ∧ info.key = key ∧ node.outputs.length = info.outputs.length

/-- What edits can make of a node: it stays of its sort, gains out-pins at most, and only follows its parameters with its
outputs. -/
structure Descends (old node : Node) : Prop where
  sort : node.kind.sort = old.kind.sort
  execIn : node.execIn.length = old.execIn.length
  execOut : old.execOut.length ≤ node.execOut.length
  outputs : node.outputs.length = old.outputs.length ∨ old.kind.follows = true

theorem descends_of_form (old node : Node) (same : node.form = old.form) : old.Descends node := by
  obtain ⟨sort, execIn, execOut, outputs⟩ := Form.mk.inj same
  exact ⟨sort, execIn, Nat.le_of_eq execOut.symm, .inl outputs⟩

theorem Descends.trans {first second third : Node} (left : first.Descends second) (right : second.Descends third) :
    first.Descends third := by
  refine ⟨right.sort.trans left.sort, right.execIn.trans left.execIn, Nat.le_trans left.execOut right.execOut, ?_⟩
  obtain same | follows := left.outputs
  · obtain equal | follows := right.outputs
    · exact .inl (equal.trans same)
    · rw [← NodeKind.sort_follows, left.sort, NodeKind.sort_follows] at follows
      exact .inr follows
  · exact .inr follows

theorem Fitted.descends {known : FunctionInfo → Prop} {old node : Node} (fitted : old.Fitted known)
    (descends : old.Descends node) : node.Fitted known := by
  have entrances : node.kind.entrances = old.kind.entrances := by
    rw [← NodeKind.sort_entrances, descends.sort, NodeKind.sort_entrances]
  have exits : node.kind.exits = old.kind.exits := by rw [← NodeKind.sort_exits, descends.sort, NodeKind.sort_exits]
  have yields : node.kind.yields? = old.kind.yields? := by rw [← NodeKind.sort_yields, descends.sort, NodeKind.sort_yields]
  refine ⟨?_, ?_, fun count tells => ?_, fun key isPure native => ?_⟩
  · exact descends.execIn.trans (fitted.shaped.trans entrances.symm)
  · rw [exits]
    exact Nat.le_trans fitted.exits descends.execOut
  · rw [yields] at tells
    obtain same | follows := descends.outputs
    · exact same.trans (fitted.outputs count tells)
    · cases (NodeKind.follows_untold follows).symm.trans tells
  · rw [← NodeKind.sort_native, descends.sort, NodeKind.sort_native] at native
    obtain same | follows := descends.outputs
    · rw [same]
      exact fitted.native key isPure native
    · rw [native] at follows
      cases follows

end Node

def Graph.Descends (graph next : Graph) : Prop := ∀ node ∈ next.nodes, ∃ old ∈ graph.nodes, old.Descends node

namespace Graph

theorem descends_of_forms (graph next : Graph) (same : next.nodes.map Node.form = graph.nodes.map Node.form) :
    graph.Descends next := by
  intro node inside
  obtain ⟨old, there, alike⟩ := mem_of_map_eq Node.form same inside
  exact ⟨old, there, old.descends_of_form node alike.symm⟩

theorem Descends.refl (graph : Graph) : graph.Descends graph := graph.descends_of_forms graph rfl

theorem Descends.trans {first second third : Graph} (left : first.Descends second) (right : second.Descends third) :
    first.Descends third := by
  intro node inside
  obtain ⟨middle, between, later⟩ := right node inside
  obtain ⟨old, there, earlier⟩ := left middle between
  exact ⟨old, there, earlier.trans later⟩

theorem descends_map (graph next : Graph) (change : Node → Node) (nodes : next.nodes = graph.nodes.map change)
    (each : ∀ node ∈ graph.nodes, Node.Descends node (change node)) : graph.Descends next := by
  intro node inside
  rw [nodes] at inside
  obtain ⟨old, there, rfl⟩ := List.mem_map.mp inside
  exact ⟨old, there, each old there⟩

theorem modify_descends {index : Nat} {node : Node} (change : Node → Node) {graph : Graph}
    (found : graph.nodes[index]? = some node) (kept : node.Descends (change node)) :
    graph.Descends (graph.modifyNode index change) := by
  intro other inside
  obtain there | ⟨old, here, rfl⟩ := mem_modify index change graph.nodes other inside
  · exact Descends.refl graph other there
  · cases found.symm.trans here
    exact ⟨node, List.mem_of_getElem? found, kept⟩

end Graph

namespace Node

theorem retarget_form (target : PinType) (node : Node) : (node.retarget target).1.form = node.form := by
  unfold retarget
  split
  · rfl
  · next pin rest outputs =>
      rw [form, form, outputs]
      rfl

theorem literal_changed_form (input : Nat) (node : Node) : (node.literalChanged input).1.form = node.form := by
  unfold literalChanged
  split
  · split
    · next kind _ =>
        split
        · rfl
        · rw [retarget_form, form, form, kind]
          rfl
    · next kind _ =>
        split
        · rfl
        · rw [retarget_form, form, form, kind]
          rfl
    · rfl
  · rfl

theorem connection_changed_form (input : Nat) (type : Option PinType) (node : Node) :
    (node.connectionChanged input type).1.form = node.form := by
  unfold connectionChanged
  split
  · unfold retypeSwitch
    split
    · rfl
    · split
      · rfl
      · rw [form, form, List.length_map]
  · rfl

theorem form_aloof : Aloof form where
  pruned nodes node := by
    rw [form, prune, List.length_map]
    rfl
  linked node input _ type _ := connection_changed_form input type _
  aimed node output change := by
    rw [form, List.length_modify]
    rfl

theorem add_input_descends (node : Node) : node.Descends node.addInput.1 := by
  refine node.descends_of_form _ ?_
  unfold addInput
  split <;> rfl

theorem add_output_descends (node : Node) : node.Descends node.addOutput.1 := by
  unfold addOutput
  split
  · exact ⟨rfl, rfl, by simp, .inl rfl⟩
  · exact ⟨rfl, rfl, by simp, .inl rfl⟩
  · exact node.descends_of_form _ rfl

theorem renumber_form (rename : Nat → Option Nat) (node : Node) : (node.renumber rename).form = node.form := by
  rw [form, renumber, List.length_map]
  rfl

theorem rewire_form (rename : Nat → Option Nat) (node : Node) : (node.rewire rename).form = node.form :=
  node.renumber_form rename

theorem swapped_form (locals globals : List Variable) (functions : List Guid) (form' : ReferenceForm) (node swapped : Node)
    (made : node.convertReference? locals globals functions form' = some swapped ∨
      node.convertVariable? locals globals form' = some swapped) : swapped.form = node.form := by
  obtain rfl | ⟨_, other, _, _, rfl⟩ := node.swapped_cases made
  · rfl
  · rw [form, form, NodeKind.sort_referring]

theorem form_bones (node : Node) : node.bones.form = node.form := by
  simp [form, bones]

end Node

namespace Graph

variable (graph : Graph)

theorem prune_descends : graph.Descends graph.prune.1 := graph.descends_of_forms _ (Node.form_aloof.prune graph)

theorem grow_node_descends (grow : Node → Node × List NodeAction) (grows : ∀ node : Node, node.Descends (grow node).1) (index : Nat)
    (graph : Graph) : graph.Descends (Edit.growNode grow index graph).2 := by
  apply after_keeps graph.Descends (.refl graph)
  intro node there
  have next := modify_descends (fun _ => (grow node).1) (node_found there) (grows node)
  dsimp only
  split <;> exact next

theorem remove_node_descends (index : Nat) (graph : Graph) : graph.Descends (Edit.removeNode index graph).2 := by
  apply after_keeps graph.Descends (.refl graph)
  intro node _
  by_cases deletable : node.isDeletable = true
  · rw [if_pos deletable]
    intro other inside
    obtain ⟨old, there, rfl⟩ := List.mem_map.mp inside
    exact ⟨old, List.mem_of_mem_eraseIdx there, old.descends_of_form _ (old.renumber_form _)⟩
  · rw [if_neg deletable]
    exact .refl graph

theorem sync_calls_descends (function : Guid) (inputs outputs : List Parameter) (graph : Graph) :
    graph.Descends (graph.syncCalls function inputs outputs).1 := by
  by_cases none : (graph.nodes.filter fun node => node.kind == .callFunction function).length = 0
  · rw [syncCalls, if_pos none]
    exact .refl graph
  · rw [syncCalls, if_neg none]
    refine (graph.descends_map { graph with nodes := _ } _ rfl fun node _ => ?_).trans (prune_descends _)
    dsimp only
    split
    · next isCall =>
        -- The outputs of a call are those of the function.
        refine ⟨rfl, rfl, Nat.le_refl _, .inr ?_⟩
        rw [beq_iff_eq.mp isCall]
        rfl
    · exact node.descends_of_form node rfl

theorem convert_descends (globals : List Variable) (functions : List Guid) (form : ReferenceForm) (graph : Graph) :
    graph.Descends (graph.convertReferences globals functions form).1 := by
  intro node inside
  rw [convert_survivors] at inside
  obtain ⟨old, kept, rfl⟩ := List.mem_map.mp inside
  refine ⟨old, (List.mem_filter.mp kept).1, old.descends_of_form _ ?_⟩
  rw [Node.renumber_form, Node.convertedTo]
  cases converted : old.convertReference? graph.locals globals functions form with
  | none => rfl
  | some swapped => exact old.swapped_form graph.locals globals functions form swapped (.inl converted)

theorem compile_descends : graph.Descends graph.compile.2 :=
  graph.descends_of_forms _ (compile_view Node.form (fun _ _ => rfl) (fun _ _ _ => rfl) graph)

theorem prepare_descends : graph.Descends graph.prepare.2 := by
  unfold prepare
  split <;> exact .refl graph

theorem run_descends {σ : Type} (host : Host σ) (start : Nat) (arguments : List Value) (graph : Graph) (env : Env σ) :
    graph.Descends (graph.run host start arguments env).2.1 := by
  have wiped := congrArg (fun graph : Graph => graph.nodes.map Node.form)
    (run_with_wiped host (host.limits.maxSteps + 1) start arguments graph env)
  simp only [Graph.wiped, List.map_map] at wiped
  exact graph.descends_of_forms _ wiped

theorem pasted_origin {graph origin : Graph} {selection : List Nat} {originGlobals globals : List Variable}
    {functions : List Guid} {text : String} {offset : Position} (copied : origin.copyNodes selection originGlobals = .ok text) :
    ∀ node ∈ (Edit.pasteNodes globals functions text offset graph).2.nodes,
      ∃ old, (old ∈ graph.nodes ∨ old ∈ origin.nodes) ∧ old.Descends node := by
  intro node inside
  unfold Edit.pasteNodes Edit.pasteNodesWith at inside
  cases read : clipboardNodes? Document.parse? text with
  | none =>
    rw [read] at inside
    exact ⟨node, .inl inside, node.descends_of_form node rfl⟩
  | some nodes =>
    rw [read] at inside
    obtain ⟨placed, there, last⟩ := prune_descends _ node inside
    rw [add_all_nodes, List.mem_append] at there
    obtain own | added := there
    · exact ⟨placed, .inl own, last⟩
    · obtain ⟨entry, kept, rfl⟩ := List.mem_map.mp added
      obtain ⟨pair, zipped, adopted⟩ := List.mem_filterMap.mp kept
      obtain ⟨taken, converted, rfl⟩ := Option.map_eq_some_iff.mp adopted
      rw [Node.adopted_converts] at converted
      have same := pair.2.swapped_form graph.locals globals functions .live taken (.inl converted)
      -- The node of the text comes from one that was copied, and that from one of the other graph.
      have views := clipboard_view Node.form Node.form_bones copied read
      obtain ⟨copy, listed, alike⟩ := mem_of_map_eq Node.form views
        (List.mem_of_getElem? (zip_origin nodes pair zipped))
      obtain ⟨chosen, selected, rfl⟩ := List.mem_map.mp listed
      obtain ⟨old, picked, resolved⟩ := List.mem_filterMap.mp selected
      obtain ⟨renamed, swapped, rfl⟩ := Option.map_eq_some_iff.mp resolved
      have first := old.2.swapped_form origin.locals originGlobals functions .byGuid renamed (.inr swapped)
      refine ⟨old.2, .inr (List.mem_of_getElem? (selectable_origin selection origin old picked)), ?_⟩
      refine Node.Descends.trans (old.2.descends_of_form _ ?_) last
      calc (taken.rewire _).form
        _ = pair.2.form := (taken.rewire_form _).trans same
        _ = (renamed.rewire _).form := alike.symm
        _ = old.2.form := (renamed.rewire_form _).trans first

theorem rebuild_descends {body : Body} {answer : List NodeAction × List NodeAction × Body} (rebuilt : body.rebuild = .ok answer) :
    body.graph.Descends answer.2.2.graph := by
  obtain ⟨entry, returned, framed, same⟩ := rebuild_cases rebuilt
  rw [same]
  refine Descends.trans ?_ (prune_descends _)
  refine Descends.trans (modify_descends _ framed.entered ?_)
    (modify_descends _ (return_stays _ body.graph.nodes returned framed.left) ?_)
  · refine ⟨rfl, rfl, Nat.le_refl _, .inr ?_⟩
    rw [framed.isEntry]
    rfl
  · exact returned.descends_of_form _ rfl

end Graph

def Operation.isForeign : Operation → Bool
  | .addNode _ | .reshape _ _ | .pasteNodes _ _ _ _ => true
  | _ => false

theorem operation_descends {operation : Operation} (own : operation.isForeign = false) (graph : Graph) :
    graph.Descends (operation.apply graph) := by
  cases operation with
  | addNode | reshape | pasteNodes => cases own
  | addLocal => exact .refl graph
  | removeNode index => exact graph.remove_node_descends index
  | connect source output target input =>
    exact graph.descends_of_forms _ (Node.form_aloof.connect graph source output target input)
  | disconnect target input => exact graph.descends_of_forms _ (Node.form_aloof.disconnect graph target input)
  | connectExec source output target input =>
    exact graph.descends_of_forms _ (Node.form_aloof.connect_exec graph source output target input)
  | disconnectExec source output => exact graph.descends_of_forms _ (Node.form_aloof.set_target graph source output none)
  | setLiteral index input literal =>
    exact graph.descends_of_forms _ (Node.form_aloof.set_literal graph (fun _ _ input => Node.literal_changed_form input _) index
      input literal)
  | setCase index output value => exact graph.descends_of_forms _ (Node.form_aloof.set_case graph index output value)
  | addInput index => exact graph.grow_node_descends Node.addInput Node.add_input_descends index
  | addOutput index => exact graph.grow_node_descends Node.addOutput Node.add_output_descends index
  | prune => exact graph.prune_descends
  | syncCalls function inputs outputs => exact graph.sync_calls_descends function inputs outputs
  | convertReferences globals functions form => exact graph.convert_descends globals functions form
  | compile => exact graph.compile_descends
  | prepare => exact graph.prepare_descends
  | run host start arguments env => exact graph.run_descends host start arguments env

/-- A graph that was put together from nodes as they are made, of native functions those that are known. What is pasted was
copied from such a graph, and a function may be rebuilt for other parameters. Graphs may have been compiled and run
between. -/
inductive Graph.Assembled (known : FunctionInfo → Prop) : Graph → Prop where
  | empty : Assembled known .empty
  | added (graph : Graph) (factory : Factory) (x y : Float32) (before : Assembled known graph)
      (declared : ∀ info, factory = .callNative info → known info) : Assembled known (graph.addNode (factory.build.placedAt x y))
  | edited (graph : Graph) (operation : Operation) (before : Assembled known graph) (own : operation.isForeign = false) :
      Assembled known (operation.apply graph)
  | pasted (graph origin : Graph) (selection : List Nat) (originGlobals globals : List Variable) (functions : List Guid)
      (text : String) (offset : Position) (before : Assembled known graph) (source : Assembled known origin)
      (copied : origin.copyNodes selection originGlobals = .ok text) :
      Assembled known (Edit.pasteNodes globals functions text offset graph).2
  | rebuilt (body : Body) (answer : List NodeAction × List NodeAction × Body) (before : Assembled known body.graph)
      (rebuilds : body.rebuild = .ok answer) : Assembled known answer.2.2.graph

variable (known : FunctionInfo → Prop)

theorem makes_assembled (factories : List Factory)
    (declared : ∀ info, .callNative info ∈ factories → known info) (graph : Graph) (before : graph.Assembled known) :
    (factories.foldl (fun graph factory => graph.addNode (factory.build.placedAt (Float32.ofBits 0) (Float32.ofBits 0)))
      graph).Assembled known := by
  induction factories generalizing graph with
  | nil => exact before
  | cons factory rest ih =>
    refine ih (fun info inside => declared info (.tail _ inside)) _ (.added graph factory _ _ before ?_)
    rintro info rfl
    exact declared info (.head _)

theorem edits_assembled {operations : List Operation}
    (own : operations.all (!·.isForeign) = true) (graph : Graph) (before : graph.Assembled known) :
    (operations.foldl Operation.apply graph).Assembled known := by
  induction operations generalizing graph with
  | nil => exact before
  | cons operation rest ih =>
    rw [List.all_cons, Bool.and_eq_true, Bool.not_eq_true'] at own
    exact ih own.2 _ (.edited graph operation before own.1)

theorem build_fitted (factory : Factory)
    (declared : ∀ info, factory = .callNative info → known info) : factory.build.Fitted known := by
  cases factory with
  | callNative info =>
    have count : (Node.parameterOutputs info.outputs).length = info.outputs.length := List.length_map _
    simp only [Factory.build, Node.callNative]
    by_cases isPure : info.isPure = true
    · rw [if_pos isPure, isPure]
      refine ⟨rfl, Nat.le_refl _, fun _ tells => (by cases tells), fun key _ same => ?_⟩
      cases same
      exact ⟨info, declared info rfl, rfl, count⟩
    · rw [if_neg isPure, Bool.eq_false_iff.mpr isPure]
      refine ⟨rfl, Nat.le_refl _, fun _ tells => (by cases tells), fun key _ same => ?_⟩
      cases same
      exact ⟨info, declared info rfl, rfl, count⟩
  | sequence => exact ⟨rfl, Nat.zero_le _, fun _ tells => (by cases tells; rfl), fun _ _ same => by cases same⟩
  | _ => exact ⟨rfl, Nat.le_refl _, fun _ tells => (by cases tells; try rfl), fun _ _ same => by cases same⟩

theorem assembled_fitted (graph : Graph) (assembled : graph.Assembled known) :
    ∀ node ∈ graph.nodes, node.Fitted known := by
  have keeps (graph next : Graph) (fitted : ∀ node ∈ graph.nodes, node.Fitted known) (descends : graph.Descends next) :
      ∀ node ∈ next.nodes, node.Fitted known := by
    intro node inside
    obtain ⟨old, there, descent⟩ := descends node inside
    exact (fitted old there).descends descent
  induction assembled with
  | empty => exact fun node inside => absurd inside List.not_mem_nil
  | added graph factory x y _ declared ih =>
    intro node inside
    obtain there | here := List.mem_append.mp inside
    · exact ih node there
    · rw [List.mem_singleton.mp here]
      exact (build_fitted known factory declared).descends (Node.descends_of_form _ _ rfl)
  | edited graph operation _ own ih => exact keeps graph _ ih (operation_descends own graph)
  | pasted graph origin selection originGlobals globals functions text offset _ _ copied ih sourced =>
    intro node inside
    obtain ⟨old, there, descent⟩ := Graph.pasted_origin copied node inside
    exact (there.elim (ih old) (sourced old)).descends descent
  | rebuilt body answer _ rebuilds ih => exact keeps body.graph _ ih (Graph.rebuild_descends rebuilds)

theorem Graph.Built.next {graph : Graph} (operation : Operation) (built : graph.Built) : (operation.apply graph).Built := by
  obtain ⟨initial, history, begins, rfl⟩ := built
  refine ⟨initial, history ++ [operation], begins, ?_⟩
  rw [List.foldl_append]
  rfl

theorem reshape_found {index : Nat} (change : Node → Node × List NodeAction) {node : Node} {graph : Graph}
    (found : graph.nodes[index]? = some node) :
    (graph.reshapeNode index change).2 = (graph.modifyNode index fun _ => (change node).1).uncompile := by
  rw [Graph.reshapeNode, found]

theorem assembled_built (graph : Graph) (assembled : graph.Assembled known) : graph.Built := by
  induction assembled with
  | empty => exact ⟨.empty, [], .empty, rfl⟩
  | added graph factory x y _ _ ih => exact ih.next (.addNode (factory.build.placedAt x y))
  | edited graph operation _ _ ih => exact ih.next operation
  | pasted graph origin selection originGlobals globals functions text offset _ _ _ ih _ =>
    exact ih.next (.pasteNodes globals functions text offset)
  | rebuilt body answer _ rebuilds ih =>
    obtain ⟨entry, returned, framed, same⟩ := rebuild_cases rebuilds
    rw [same]
    have entered := ih.next (.reshape entryNode fun node => node.syncOutputs body.inputs)
    rw [Operation.apply, reshape_found _ framed.entered] at entered
    have left := entered.next (.reshape returnNode fun node => node.syncInputs body.outputs)
    rw [Operation.apply, reshape_found _
      (return_stays (fun _ => (entry.syncOutputs body.inputs).1) body.graph.nodes returned framed.left)] at left
    exact left.next .prune

end Patchbay
