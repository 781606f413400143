import Patchbay.Proofs.CallSites
import Patchbay.Proofs.Reshaping

set_option autoImplicit false

namespace Patchbay

namespace Shape

def ofCalls (guid : Guid) (declared : Signature) (_ : Nat) (kind : NodeKind) : Shape :=
  if kind = .callFunction guid then ⟨some declared.inputs, some declared.outputs⟩ else ⟨none, none⟩

/-- Inside of the function it is the other way: the entry gives its inputs, and the return takes its outputs. -/
def ofFrame (declared : Signature) (index : Nat) (_ : NodeKind) : Shape :=
  ⟨if index = returnNode then some declared.outputs else none, if index = entryNode then some declared.inputs else none⟩

def ofOwn (guid : Guid) (declared : Signature) (index : Nat) (kind : NodeKind) : Shape :=
  if kind = .callFunction guid then ⟨some declared.inputs, some declared.outputs⟩ else ofFrame declared index kind

end Shape

theorem Node.resynced_twice (guid : Guid) (declared : Signature) (index : Nat) (first second : List Node) (node : Node)
    (inside : node.kind = .callFunction guid → index ≠ entryNode ∧ index ≠ returnNode) :
    node.Resynced (Shape.ofOwn guid declared index node.kind)
      ((((node.take (Shape.ofFrame declared index node.kind)).prune first).take (Shape.ofCalls guid declared index node.kind)).prune
        second) := by
  by_cases isCall : node.kind = .callFunction guid
  · obtain ⟨outside, within⟩ := inside isCall
    rw [Shape.ofOwn, Shape.ofCalls, if_pos isCall, if_pos isCall, Shape.ofFrame, if_neg outside, if_neg within]
    exact (Resynced.of_pruned (take_resynced _ (node.prune first))).pruned second
  · rw [Shape.ofOwn, Shape.ofCalls, if_neg isCall, if_neg isCall]
    exact ((node.take_resynced _).pruned first).pruned second

namespace Graph

def CallAt (guid : Guid) (index : Nat) (graph : Graph) : Prop :=
  ∃ node, graph.nodes[index]? = some node ∧ node.kind = .callFunction guid

variable (guid : Guid) (declared : Signature)

variable {graph after : Graph} {index place : Nat} {source : PinSource} {body : Body} {entry returned : Node}

theorem sync_calls_reforms (called : ∃ index, graph.CallAt guid index) :
    (graph.syncCalls guid declared.inputs declared.outputs).1 = graph.reform (Shape.ofCalls guid declared) := by
  have some : (graph.nodes.filter fun node => node.kind == .callFunction guid).length ≠ 0 := by
    obtain ⟨index, node, found, isCall⟩ := called
    refine fun none => List.filter_eq_nil_iff.mp (List.length_eq_zero_iff.mp none) node (List.mem_of_getElem? found) ?_
    exact beq_iff_eq.mpr isCall
  have nodes : graph.nodes.mapIdx (fun index node => node.take (Shape.ofCalls guid declared index node.kind)) =
      graph.nodes.map fun node => if node.kind == .callFunction guid then
        ((node.syncInputs declared.inputs).1.syncOutputs declared.outputs).1 else node := by
    refine List.ext_getElem? fun index => ?_
    rw [List.getElem?_mapIdx, List.getElem?_map]
    refine congrArg (Option.map · _) (funext fun node => ?_)
    by_cases isCall : node.kind = .callFunction guid
    · rw [Shape.ofCalls, if_pos isCall, if_pos (beq_iff_eq.mpr isCall)]
      rfl
    · rw [Shape.ofCalls, if_neg isCall, if_neg (mt beq_iff_eq.mp isCall)]
      rfl
  rw [syncCalls, if_neg some, reform, taking, nodes]

theorem sync_calls_uncalled (graph : Graph) (uncalled : ¬ ∃ index, graph.CallAt guid index) :
    (graph.syncCalls guid declared.inputs declared.outputs).1 = graph := by
  have none : (graph.nodes.filter fun node => node.kind == .callFunction guid) = [] := by
    refine List.filter_eq_nil_iff.mpr fun node inside isCall => uncalled ?_
    obtain ⟨index, found⟩ := List.mem_iff_getElem?.mp inside
    exact ⟨index, node, found, beq_iff_eq.mp isCall⟩
  rw [syncCalls, none]
  rfl

theorem sync_calls_settled (linked : Linked graph.nodes) (uncompiled : graph.size = none) :
    (graph.syncCalls guid declared.inputs declared.outputs).1 = graph.reform (Shape.ofCalls guid declared) := by
  by_cases called : ∃ index, graph.CallAt guid index
  · exact sync_calls_reforms guid declared called
  · rw [sync_calls_uncalled guid declared graph called, reform_nothing _ linked uncompiled]
    intro index node found
    exact if_neg fun isCall => called ⟨index, node, found, isCall⟩

/-- What becomes of the graphs that are not the function's own: where it is called, the calls get the declared pins, and the
connections stay that fit. -/
structure Follows (before after : Graph) : Prop where
  calls : ∀ node ∈ after.nodes, node.kind = .callFunction guid → node.signature = declared
  uncalled : (¬ ∃ index, before.CallAt guid index) → after = before
  called : (∃ index, before.CallAt guid index) → before.Resynced (Shape.ofCalls guid declared) after
  wires : (∃ index, before.CallAt guid index) → ∀ index place source, after.Wired index place source ↔
    before.Wired index place source ∧ after.Fits index place source

theorem synced_calls (graph : Graph) (node : Node)
    (inside : node ∈ (graph.syncCalls guid declared.inputs declared.outputs).1.nodes)
    (isCall : node.kind = .callFunction guid) : node.signature = declared := by
  have listed := call_listed _ inside _ (node.call_of_kind isCall)
  obtain ⟨_, same⟩ | ⟨other, _⟩ := sync_calls_signed graph listed
  · exact same
  · exact absurd rfl other

theorem sync_calls_follows (graph : Graph) :
    Follows guid declared graph (graph.syncCalls guid declared.inputs declared.outputs).1 := by
  refine ⟨synced_calls guid declared graph, sync_calls_uncalled guid declared graph, fun called => ?_,
    fun called index place source => ?_⟩
  · rw [sync_calls_reforms guid declared called]
    exact reform_resynced _ graph
  · rw [sync_calls_reforms guid declared called]
    exact reform_wires index place source _ graph

def Crosses (index : Nat) (source : PinSource) (graph : Graph) : Prop :=
  graph.CallAt guid index ∧ source.node = entryNode ∨ graph.CallAt guid source.node ∧ index = returnNode

/-- What becomes of the function's own graph: the entry and the return get the declared pins, connections that do not fit are
dropped, and only then the calls of the function itself follow. So a connection has to fit before that as well. -/
structure OwnFollows (before after : Graph) : Prop where
  entered : ∃ entry, after.nodes[entryNode]? = some entry ∧ entry.kind = .functionEntry ∧ entry.signature.outputs = declared.inputs
  left : ∃ returned, after.nodes[returnNode]? = some returned ∧ returned.kind = .functionReturn ∧
    returned.signature.inputs = declared.outputs
  calls : ∀ node ∈ after.nodes, node.kind = .callFunction guid → node.signature = declared
  resynced : before.Resynced (Shape.ofOwn guid declared) after
  wires : ∀ index place source, after.Wired index place source ↔ before.Wired index place source ∧
    (before.taking (Shape.ofFrame declared)).Fits index place source ∧ after.Fits index place source
  apart : ∀ index place source, ¬ before.CallAt guid index → ¬ before.CallAt guid source.node →
    (after.Wired index place source ↔ before.Wired index place source ∧ after.Fits index place source)
  straight : Linked before.nodes → ∀ index place source, ¬ before.Crosses guid index source →
    (after.Wired index place source ↔ before.Wired index place source ∧ after.Fits index place source)

theorem linked_fits (linked : Linked graph.nodes)
    (wired : graph.Wired index place source) : graph.Fits index place source := by
  obtain ⟨node, pin, found, there, connected⟩ := wired
  exact (fits_feeds index place source found there).mpr
    ((linked node (List.mem_of_getElem? found)).sources pin (List.mem_of_getElem? there) source connected)

/-- Away from the entry and the return nothing is asked at first. -/
theorem frame_fits (inside : index ≠ returnNode)
    (outside : source.node ≠ entryNode) (fits : graph.Fits index place source) :
    (graph.taking (Shape.ofFrame declared)).Fits index place source := by
  refine taking_fits index place source (fun _ _ => ⟨none, none⟩) _ graph (fun _ _ => if_neg inside) (fun _ _ => if_neg outside) ?_
  rwa [taking_nothing _ graph fun _ _ _ => rfl]

theorem reshaped_taking (framed : body.Framed entry returned) :
    body.reshaped entry returned = (body.graph.taking (Shape.ofFrame body.signature)).uncompile := by
  have nodes : (body.reshaped entry returned).nodes = (body.graph.taking (Shape.ofFrame body.signature)).nodes := by
    refine List.ext_getElem? fun index => ?_
    rw [taking, List.getElem?_mapIdx, Body.reshaped]
    simp only [modifyNode, uncompile]
    by_cases first : index = entryNode
    · subst first
      rw [List.getElem?_modify_ne _ _ (by decide), List.getElem?_modify_eq, framed.entered]
      rfl
    · by_cases second : index = returnNode
      · subst second
        rw [List.getElem?_modify_eq, return_stays _ _ returned framed.left, framed.left]
        rfl
      · rw [List.getElem?_modify_ne _ _ (Ne.symm second), List.getElem?_modify_ne _ _ (Ne.symm first)]
        simp only [Shape.ofFrame, if_neg first, if_neg second]
        exact Option.map_id'.symm
  exact congrArg (fun nodes => { body.graph with nodes := nodes, size := none }) nodes

theorem call_inside (framed : body.Framed entry returned) (index : Nat)
    (call : body.graph.CallAt guid index) : index ≠ entryNode ∧ index ≠ returnNode := by
  obtain ⟨node, found, isCall⟩ := call
  refine ⟨fun first => ?_, fun second => ?_⟩
  · subst first
    cases framed.entered.symm.trans found
    cases framed.isEntry.symm.trans isCall
  · subst second
    cases framed.left.symm.trans found
    cases framed.isReturn.symm.trans isCall

theorem uncompile_prune (graph : Graph) : graph.uncompile.prune.1 = graph.prune.1.uncompile := by
  rw [prune_uncompiled, prune_nodes, prune]
  split <;> rfl

def rebuilt (graph : Graph) : Graph := (graph.reform (Shape.ofFrame declared)).reform (Shape.ofCalls guid declared)

theorem sync_calls_rebuilt (graph : Graph) :
    ((graph.reform (Shape.ofFrame declared)).syncCalls guid declared.inputs declared.outputs).1 = graph.rebuilt guid declared :=
  sync_calls_settled guid declared (prune_mends _) rfl

theorem rebuilt_resynced (graph : Graph) (inside : ∀ index, graph.CallAt guid index → index ≠ entryNode ∧ index ≠ returnNode) :
    graph.Resynced (Shape.ofOwn guid declared) (graph.rebuilt guid declared) := by
  have first := reform_resynced (Shape.ofFrame declared) graph
  have second := reform_resynced (Shape.ofCalls guid declared) (graph.reform (Shape.ofFrame declared))
  refine ⟨?_, rfl, second.count.trans first.count, fun index old new found there => ?_, fun index place target => ?_⟩
  · exact (congrArg (fun other => { other with nodes := graph.nodes, size := graph.size }) second.rest).trans first.rest
  · obtain ⟨left, stood, rfl⟩ := (reform_found index _ _ new).mp there
    obtain ⟨same, was, rfl⟩ := (reform_found index _ graph left).mp stood
    cases found.symm.trans was
    exact old.resynced_twice guid declared index _ _ fun isCall => inside index ⟨old, found, isCall⟩
  · have admits := admits_congr target (reform_entered (Shape.ofCalls guid declared) (graph.reform (Shape.ofFrame declared)))
    refine (second.leads index place target).trans (and_congr_left fun admitted => ?_)
    exact (first.leads index place target).trans (and_iff_left (admits.mp admitted))

theorem rebuilt_wires (index place : Nat) (source : PinSource) (graph : Graph) :
    (graph.rebuilt guid declared).Wired index place source ↔ graph.Wired index place source ∧
      (graph.taking (Shape.ofFrame declared)).Fits index place source ∧ (graph.rebuilt guid declared).Fits index place source := by
  have first := reform_wires index place source (Shape.ofFrame declared) graph
  rw [reform_fits] at first
  rw [← and_assoc, ← first]
  exact reform_wires index place source (Shape.ofCalls guid declared) (graph.reform (Shape.ofFrame declared))

/-- What fits in the end fits before the calls follow, if neither end is at a call. -/
theorem early_fits (resynced : graph.Resynced (Shape.ofOwn guid declared) after) (place : Nat)
    (taker : ¬ graph.CallAt guid index) (giver : ¬ graph.CallAt guid source.node)
    (fits : after.Fits index place source) : (graph.taking (Shape.ofFrame declared)).Fits index place source := by
  refine taking_fits index place source (Shape.ofOwn guid declared) _ graph (fun node found => ?_) (fun node found => ?_)
    (fits_congr index place source resynced.signatures.symm fits)
  · rw [Shape.ofOwn, if_neg fun isCall => taker ⟨node, found, isCall⟩]
  · rw [Shape.ofOwn, if_neg fun isCall => giver ⟨node, found, isCall⟩]

/-- And if one is at a call and the other one neither at the entry nor at the return, it fits as it did at the start. -/
theorem straight_fits (resynced : graph.Resynced (Shape.ofOwn guid declared) after)
    (inside : ∀ index, graph.CallAt guid index → index ≠ entryNode ∧ index ≠ returnNode) (linked : Linked graph.nodes)
    (straight : ¬ graph.Crosses guid index source)
    (wired : graph.Wired index place source) (fits : after.Fits index place source) :
    (graph.taking (Shape.ofFrame declared)).Fits index place source := by
  have before := linked_fits linked wired
  by_cases taker : graph.CallAt guid index
  · refine frame_fits declared (inside index taker).2 (fun first => straight ?_) before
    exact .inl ⟨taker, first⟩
  · by_cases giver : graph.CallAt guid source.node
    · refine frame_fits declared (fun last => straight ?_) (inside source.node giver).1 before
      exact .inr ⟨giver, last⟩
    · exact early_fits guid declared resynced place taker giver fits

theorem rebuilt_follows (framed : body.Framed entry returned) :
    OwnFollows guid body.signature body.graph (body.graph.rebuilt guid body.signature) := by
  have inside := call_inside guid framed
  have resynced := rebuilt_resynced guid body.signature body.graph inside
  have wires (index place : Nat) (source : PinSource) := rebuilt_wires guid body.signature index place source body.graph
  have calls := synced_calls guid body.signature (body.graph.reform (Shape.ofFrame body.signature))
  rw [sync_calls_rebuilt] at calls
  obtain ⟨first, entered, asEntry⟩ := resynced.found framed.entered
  obtain ⟨last, left, asReturn⟩ := resynced.found framed.left
  rw [framed.isEntry] at asEntry
  rw [framed.isReturn] at asReturn
  refine ⟨⟨first, entered, ?_, asEntry.outputs⟩, ⟨last, left, ?_, asReturn.inputs⟩, calls, resynced, wires, ?_, ?_⟩
  · exact (congrArg Node.kind asEntry.rest).trans framed.isEntry
  · exact (congrArg Node.kind asReturn.rest).trans framed.isReturn
  · intro index place source taker giver
    refine (wires index place source).trans (and_congr_right fun _ => and_iff_right_of_imp ?_)
    exact early_fits guid body.signature resynced place taker giver
  · intro linked index place source straight
    refine (wires index place source).trans (and_congr_right fun wired => and_iff_right_of_imp ?_)
    exact straight_fits guid body.signature resynced inside linked straight wired

end Graph

theorem Body.rebuild_error {body : Body} {cause : ScriptError} (failed : body.rebuild = .error cause) :
    body.checkStructure = .error cause := by
  unfold rebuild at failed
  cases checked : body.checkStructure with
  | error =>
    rw [checked] at failed
    cases failed
    rfl
  | ok =>
    rw [checked] at failed
    cases failed

namespace Script

def bare (script : Script) : Script := script.mapGraphs fun _ => .empty

theorem map_graphs_bare (change : Graph → Graph) (script : Script) : (script.mapGraphs change).bare = script.bare := by
  simp only [bare, mapGraphs, List.map_map]
  rfl

def ownPlace (index : Nat) (script : Script) : Nat := script.eventGraphs.length + script.interfaceFunctions.length + index

theorem own_graph (script : Script) (index : Nat) : script.graphs[script.ownPlace index]? =
    script.functions[index]?.map (·.body.graph) := by
  rw [graphs, ownPlace, List.getElem?_append_right (by simp)]
  simp

theorem replaced_graphs (script : Script) (index : Nat) (function : Function) :
    { script with functions := script.functions.set index function }.graphs =
      script.graphs.set (script.ownPlace index) function.body.graph := by
  rw [graphs, graphs, ownPlace, List.set_append_right _ _ (by simp), List.map_set]
  simp

variable {guid : Guid} {script next : Script} {rebuilt : Rebuilt}

theorem rebuild_ok (rebuilds : script.rebuildFunction guid = .ok (rebuilt, next)) :
    ∃ index function entry returned, script.functionIndex? guid = some index ∧ script.functions[index]? = some function ∧
      function.body.Framed entry returned ∧ rebuilt.function = function.guid ∧ rebuilt.inputs = function.body.inputs ∧
      rebuilt.outputs = function.body.outputs ∧
      let own := function.mapGraph (·.reform (Shape.ofFrame function.body.signature))
      next = { script with functions := script.functions.set index own }.mapGraphs fun graph =>
        (graph.syncCalls guid function.body.inputs function.body.outputs).1 := by
  unfold rebuildFunction at rebuilds
  split at rebuilds
  · cases rebuilds
  · next index found =>
      split at rebuilds
      · cases rebuilds
      · next function there =>
          obtain ⟨⟨shape, made⟩, whole, same⟩ := bind_ok _ rebuilds
          cases same
          obtain ⟨answer, body, same⟩ := bind_ok _ whole
          obtain ⟨entry, returned, framed, reshaped⟩ := rebuild_cases body
          obtain ⟨first, last, changed⟩ := answer
          cases same
          cases reshaped
          refine ⟨index, function, entry, returned, found, there, framed, rfl, rfl, rfl, ?_⟩
          rw [Graph.reshaped_taking framed, Graph.uncompile_prune]
          rfl

/-- What rebuilding a function makes of a script: no graph but its own is rebuilt, and nothing but graphs changes. -/
structure Resynchronized (guid : Guid) (declared : Signature) (place : Nat) (script next : Script) : Prop where
  rest : next.bare = script.bare
  own : ∃ before after, script.graphs[place]? = some before ∧ next.graphs[place]? = some after ∧
    Graph.OwnFollows guid declared before after
  others : ∀ (index : Nat) (before after : Graph), index ≠ place → script.graphs[index]? = some before →
    next.graphs[index]? = some after → Graph.Follows guid declared before after

theorem rebuild_resynchronized (rebuilds : script.rebuildFunction guid = .ok (rebuilt, next)) :
    ∃ index function, script.functionIndex? guid = some index ∧ script.functions[index]? = some function ∧
      rebuilt.function = function.guid ∧ rebuilt.inputs = function.body.inputs ∧ rebuilt.outputs = function.body.outputs ∧
      Resynchronized guid function.body.signature (script.ownPlace index) script next := by
  obtain ⟨index, function, entry, returned, found, there, framed, named, inputs, outputs, same⟩ :=
    rebuild_ok rebuilds
  refine ⟨index, function, found, there, named, inputs, outputs, ?_⟩
  have graphs := congrArg Script.graphs same
  rw [graphs_map, replaced_graphs] at graphs
  have was : script.graphs[script.ownPlace index]? = some function.body.graph := by rw [own_graph, there, Option.map_some]
  have is : next.graphs[script.ownPlace index]? = some (function.body.graph.rebuilt guid function.body.signature) := by
    rw [graphs, List.getElem?_map, List.getElem?_set_self (List.getElem?_eq_some_iff.mp was).1, ← Graph.sync_calls_rebuilt]
    rfl
  refine ⟨?_, ⟨_, _, was, is, Graph.rebuilt_follows guid framed⟩, fun place before after apart was is => ?_⟩
  · rw [same, map_graphs_bare]
    have functions := set_viewed (·.mapGraph fun _ => Graph.empty)
      (function.mapGraph (·.reform (Shape.ofFrame function.body.signature))) there rfl
    exact congrArg (fun functions => { script.bare with functions := functions }) functions
  · rw [graphs, List.getElem?_map, List.getElem?_set_ne (Ne.symm apart), was] at is
    cases is
    exact Graph.sync_calls_follows guid function.body.signature before

theorem rebuild_refused {cause : ScriptError} (failed : script.rebuildFunction guid = .error cause) :
    script.functionIndex? guid = none ∧ cause = .functionNotFound (.byGuid guid) ∨
      ∃ index function, script.functionIndex? guid = some index ∧ script.functions[index]? = some function ∧
        function.body.checkStructure = .error cause := by
  unfold rebuildFunction at failed
  split at failed
  · next missing =>
      cases failed
      exact .inl ⟨missing, rfl⟩
  · next index found =>
      obtain ⟨inside, _⟩ := List.findIdx?_eq_some_iff_getElem.mp found
      have there := List.getElem?_eq_getElem inside
      rw [there] at failed
      refine .inr ⟨index, _, found, there, ?_⟩
      cases rebuilt : script.functions[index].body.rebuild with
      | error =>
        simp only [Function.rebuild, rebuilt] at failed
        cases failed
        exact Body.rebuild_error rebuilt
      | ok =>
        simp only [Function.rebuild, rebuilt] at failed
        cases failed

theorem set_parameters_graphs (guid : Guid) (inputs outputs : Option (List Parameter)) (script : Script) :
    (script.setParameters guid inputs outputs).graphs = script.graphs := by
  cases found : script.functionIndex? guid with
  | none => rw [set_parameters_missing inputs outputs found]
  | some index =>
    rw [set_parameters_found inputs outputs found]
    have functions := modify_layout (fun function => function.body.graph) index (redeclared inputs outputs) script.functions
      fun _ => rfl
    exact congrArg (fun graphs => _ ++ _ ++ graphs) functions

theorem set_parameters_place (guid : Guid) (inputs outputs : Option (List Parameter)) (script : Script) (index : Nat) :
    (script.setParameters guid inputs outputs).ownPlace index = script.ownPlace index := by
  cases found : script.functionIndex? guid with
  | none => rw [set_parameters_missing inputs outputs found]
  | some =>
    rw [set_parameters_found inputs outputs found]
    rfl

theorem set_parameters_at {inputs outputs : Option (List Parameter)} {index : Nat} {changed : Function}
    (found : (script.setParameters guid inputs outputs).functionIndex? guid = some index)
    (there : (script.setParameters guid inputs outputs).functions[index]? = some changed) :
    script.functionIndex? guid = some index ∧ ∃ function, script.functions[index]? = some function ∧ function.guid = guid ∧
      changed = redeclared inputs outputs function := by
  rw [set_parameters_index] at found
  rw [set_parameters_found inputs outputs found, List.getElem?_modify_eq] at there
  obtain ⟨function, was, rfl⟩ := Option.map_eq_some_iff.mp there
  obtain ⟨inside, named, _⟩ := List.findIdx?_eq_some_iff_getElem.mp found
  cases (List.getElem?_eq_getElem inside).symm.trans was
  exact ⟨found, _, was, beq_iff_eq.mp named, rfl⟩

/-- A function that gets other parameters and is rebuilt has them at its entry and its return, and at all calls of it. Of the
connections those stay that fit, except in its own graph, where those have to fit also before its own calls follow. -/
theorem rebuilding_resynchronizes (guid : Guid) (inputs outputs : Option (List Parameter)) (script : Script) :
    let asked := script.setParameters guid inputs outputs
    asked.graphs = script.graphs ∧
    (∀ rebuilt next, asked.rebuildFunction guid = .ok (rebuilt, next) →
      ∃ index function, script.functionIndex? guid = some index ∧ script.functions[index]? = some function ∧
        let declared : Signature := ⟨inputs.getD function.body.inputs, outputs.getD function.body.outputs⟩
        rebuilt.function = guid ∧ rebuilt.inputs = declared.inputs ∧ rebuilt.outputs = declared.outputs ∧
        Resynchronized guid declared (script.ownPlace index) asked next) ∧
    ∀ cause, asked.rebuildFunction guid = .error cause → (Change.rebuildFunction guid).apply asked = asked ∧
      (script.functionIndex? guid = none ∧ cause = .functionNotFound (.byGuid guid) ∨
        ∃ index function, script.functionIndex? guid = some index ∧ script.functions[index]? = some function ∧
          function.body.checkStructure = .error cause) := by
  intro asked
  refine ⟨script.set_parameters_graphs guid inputs outputs, fun rebuilt next rebuilds => ?_, fun cause failed => ⟨?_, ?_⟩⟩
  · obtain ⟨index, changed, found, there, named, sameInputs, sameOutputs, resynchronized⟩ :=
      rebuild_resynchronized rebuilds
    obtain ⟨found, function, was, isNamed, rfl⟩ := set_parameters_at found there
    rw [set_parameters_place] at resynchronized
    exact ⟨index, function, found, was, named.trans isNamed, sameInputs, sameOutputs, resynchronized⟩
  · rw [Change.apply, failed]
    rfl
  · obtain ⟨missing, same⟩ | ⟨index, changed, found, there, broken⟩ := rebuild_refused failed
    · exact .inl ⟨by rwa [set_parameters_index] at missing, same⟩
    · obtain ⟨found, function, was, _, rfl⟩ := set_parameters_at found there
      exact .inr ⟨index, function, found, was, broken⟩

/-- A function that calls itself and is called when an event comes. Both calls get the number and the text from what is given
in front. -/
def counting : Script :=
  let parameters : List Parameter := [⟨"Number", .int⟩, ⟨"Text", .string⟩]
  let feed (call : Nat) (graph : Graph) : Graph :=
    let called := graph.addNode (Node.callFunction ⟨1⟩ "Count" parameters [])
    (Edit.connect 0 1 call 1 (Edit.connect 0 0 call 0 called).2).2
  { Script.empty "Counter" with
    eventGraphs := [(EventGraph.fresh ⟨2⟩ "tick" none parameters).mapGraph (feed 1)]
    functions := [⟨⟨1⟩, "Count", (Body.fresh parameters []).mapGraph (feed 2)⟩] }

def counted : List Parameter := [⟨"Count", .int⟩, ⟨"Done", .bool⟩]

/-- The number comes in as before, under another name. When the event comes there is nothing but a text for the rest. -/
theorem counting_resynchronized :
    ∃ rebuilt next event own, (counting.setParameters ⟨1⟩ (some counted) none).rebuildFunction ⟨1⟩ = .ok (rebuilt, next) ∧
      next.graphs = [event, own] ∧ event.size = none ∧ own.size = none ∧
      event.Wired 1 0 ⟨0, 0⟩ ∧ ¬ event.Wired 1 1 ⟨0, 1⟩ ∧ own.Wired 2 0 ⟨0, 0⟩ := by
  obtain ⟨_, resynchronizes, _⟩ := rebuilding_resynchronizes ⟨1⟩ (some counted) none counting
  refine ⟨_, _, _, _, rfl, rfl, ?_⟩
  obtain ⟨index, function, found, there, _, _, _, resynchronized⟩ := resynchronizes _ _ rfl
  cases (rfl : counting.functionIndex? ⟨1⟩ = some 0).symm.trans found
  cases there
  obtain ⟨before, after, was, is, rebuilt⟩ := resynchronized.own
  cases was
  cases is
  have follows := resynchronized.others 0 _ _ (by decide) rfl rfl
  have resynced := follows.called ⟨1, _, rfl, rfl⟩
  have wires := follows.wires ⟨1, _, rfl, rfl⟩
  refine ⟨resynced.uncompiled, rebuilt.resynced.uncompiled, (wires 1 0 ⟨0, 0⟩).mpr ⟨?_, ?_⟩, fun wired => ?_,
    (rebuilt.wires 2 0 ⟨0, 0⟩).mpr ⟨?_, ?_, ?_⟩⟩
  · decide +kernel
  · decide +kernel
  · exact absurd ((wires 1 1 ⟨0, 1⟩).mp wired).2 (by decide +kernel)
  · decide +kernel
  · decide +kernel
  · decide +kernel

/-- Inside of the function the rest would fit as well. But it did not as long as the call was as before, and it is lost. -/
theorem own_connection_lost :
    ∃ rebuilt next first before event own,
      (counting.setParameters ⟨1⟩ (some counted) none).rebuildFunction ⟨1⟩ = .ok (rebuilt, next) ∧
      counting.graphs = [first, before] ∧ next.graphs = [event, own] ∧
      before.Wired 2 1 ⟨0, 1⟩ ∧ own.Fits 2 1 ⟨0, 1⟩ ∧ ¬ own.Wired 2 1 ⟨0, 1⟩ := by
  refine ⟨_, _, _, _, _, _, rfl, rfl, rfl, ?_, ?_, ?_⟩
  · decide +kernel
  · decide +kernel
  · decide +kernel

end Script

end Patchbay
