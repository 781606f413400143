import Mathlib.Data.List.Induction
import Patchbay.Proofs.Clippings
import Patchbay.Proofs.Resolvers

set_option autoImplicit false

namespace Patchbay

def Reference.isLive : Reference → Bool
  | .live _ => true
  | _ => false

theorem Reference.live_restored (locals globals : List Variable) (guid : Guid) :
    let swapped := ((Reference.live guid).convert? locals globals .indexed).getD (.live guid)
    (swapped.convert? locals globals .live).getD swapped = .live guid := by
  intro swapped
  by_cases lost : (Reference.live guid).resolve? locals globals = none
  · simp only [swapped, (convert_found locals globals (.live guid) _).mpr lost, Option.getD_none]
  · obtain ⟨indexed, made⟩ := Option.ne_none_iff_exists'.mp ((convert_found locals globals (.live guid) .indexed).not.mpr lost)
    simp only [swapped, made, Option.getD_some, indexed_named locals globals (.live guid) guid rfl lost made]

/-- A node of this kind works with a variable or a function that is gone. -/
def NodeKind.stale (locals globals : List Variable) (functions : List Guid) (kind : NodeKind) : Bool :=
  match kind with
  | .getVariable reference | .setVariable reference => (reference.resolve? locals globals).isNone
  | .callFunction function => !functions.contains function
  | _ => false

theorem NodeKind.stale_congr {locals globals others outer : List Variable} (functions : List Guid)
    (sameLocals : locals.map (·.guid) = others.map (·.guid)) (same : globals.map (·.guid) = outer.map (·.guid))
    (kind : NodeKind) : kind.stale locals globals functions = kind.stale others outer functions := by
  cases kind <;> simp only [stale, Reference.resolve_congr locals globals sameLocals same]

namespace Node

variable (locals globals : List Variable) (functions : List Guid)

variable (form : ReferenceForm) (node : Node)

theorem stale_unconverted :
    (node.convertReference? locals globals functions form).isNone = node.kind.stale locals globals functions := by
  have found (reference : Reference) :
      (reference.convert? locals globals form).isNone = (reference.resolve? locals globals).isNone := by
    rw [Bool.eq_iff_iff, Option.isNone_iff_eq_none, Option.isNone_iff_eq_none, reference.convert_found]
  unfold convertReference? NodeKind.stale
  cases node.kind <;> simp only [NodeKind.reference?, Option.isNone_map, found, Option.isNone_some]
  case callFunction function => cases functions.contains function <;> rfl

theorem fresh_converts (fresh : node.kind.stale locals globals functions = false) :
    ∃ converted, node.convertReference? locals globals functions form = some converted := by
  rw [← node.stale_unconverted locals globals functions form, Option.isNone_eq_false_iff] at fresh
  exact Option.isSome_iff_exists.mp fresh

def Live (node : Node) : Prop := node.kind.reference?.all Reference.isLive = true

instance (node : Node) : Decidable node.Live := inferInstanceAs (Decidable (_ = true))

def convertedTo (form : ReferenceForm) (node : Node) : Node :=
  (node.convertReference? locals globals functions form).getD node

theorem renumber_converted (rename : Nat → Option Nat) (node : Node) :
    (node.renumber rename).convertedTo locals globals functions form =
      (node.convertedTo locals globals functions form).renumber rename := by
  rw [convertedTo, renumber_convert]
  unfold convertedTo
  cases node.convertReference? locals globals functions form <;> rfl

theorem plain_converted (plain : node.kind.reference? = none) :
    node.convertedTo locals globals functions form = node := by
  unfold convertedTo convertReference?
  simp only [plain]
  split
  · split <;> rfl
  · rfl

variable {reference : Reference}

theorem with_reference_own {kind : NodeKind} (named : kind.reference? = some reference) :
    kind.withReference reference = kind := by
  cases kind <;> cases named <;> rfl

theorem named_converted (form : ReferenceForm) (node : Node)
    (named : node.kind.reference? = some reference) : node.convertedTo locals globals functions form =
      { node with kind := node.kind.withReference ((reference.convert? locals globals form).getD reference) } := by
  unfold convertedTo convertReference?
  simp only [named]
  cases reference.convert? locals globals form with
  | none => rw [Option.map_none, Option.getD_none, Option.getD_none, with_reference_own named]
  | some => rfl

theorem live_restored (node : Node) (live : node.Live) :
    (node.convertedTo locals globals functions .indexed).convertedTo locals globals functions .live = node := by
  cases named : node.kind.reference? with
  | none => rw [plain_converted locals globals functions .indexed node named, plain_converted _ _ _ .live node named]
  | some reference =>
    obtain ⟨guid, rfl⟩ : ∃ guid, reference = .live guid := by
      rw [Live, named, Option.all_some] at live
      cases reference <;> cases live
      exact ⟨_, rfl⟩
    have again (swapped : Reference) : (node.kind.withReference swapped).reference? = some swapped := by
      rw [with_reference, named, Option.map_some]
    rw [named_converted locals globals functions .indexed node named, named_converted _ _ _ .live _ (again _),
      with_reference_again, Reference.live_restored, with_reference_own named]

end Node

namespace Graph

variable (globals : List Variable) (functions : List Guid)

def eraseAll (indices : List Nat) (graph : Graph) : Graph := indices.foldl (fun graph index => graph.eraseNode index) graph

def mapNodes (change : Node → Node) (graph : Graph) : Graph := { graph with nodes := graph.nodes.map change }

theorem map_nodes_back (there back : Node → Node) (graph : Graph) (each : ∀ node ∈ graph.nodes, back (there node) = node) :
    (graph.mapNodes there).mapNodes back = graph := by
  have nodes : (graph.nodes.map there).map back = graph.nodes := by
    rw [List.map_map]
    exact (List.map_congr_left each).trans (List.map_id _)
  simp only [mapNodes, nodes]

def staleLast (graph : Graph) : List Nat :=
  ((List.range graph.nodes.length).filter fun index =>
    (graph.nodes[index]?).any fun node => node.kind.stale graph.locals globals functions).reverse

def dropStale (graph : Graph) : Graph := graph.eraseAll (graph.staleLast globals functions)

theorem stale_last (form : ReferenceForm) (graph : Graph) :
    (graph.staleNodes globals functions form).reverse = graph.staleLast globals functions := by
  rw [staleNodes, staleLast]
  refine congrArg List.reverse (List.filter_congr fun index _ => ?_)
  cases graph.nodes[index]? with
  | none => rfl
  | some node => exact node.stale_unconverted graph.locals globals functions form

/-- A change of the nodes that renumbering does not disturb can be made before nodes are erased or afterwards. -/
theorem erase_all_map (change : Node → Node) (apart : ∀ rename node, change (Node.renumber rename node) =
    (change node).renumber rename)
    (indices : List Nat) (graph : Graph) : (graph.mapNodes change).eraseAll indices = (graph.eraseAll indices).mapNodes change := by
  induction indices generalizing graph with
  | nil => rfl
  | cons index rest ih =>
    have first : (graph.mapNodes change).eraseNode index = (graph.eraseNode index).mapNodes change := by
      simp only [eraseNode, mapNodes, uncompile, List.eraseIdx_map, List.map_map, Function.comp_def, apart]
    rw [eraseAll, List.foldl_cons, first]
    exact ih (graph.eraseNode index)

theorem convert_erases (form : ReferenceForm) (graph : Graph) : (graph.convertReferences globals functions form).1 =
    (graph.dropStale globals functions).mapNodes (Node.convertedTo graph.locals globals functions form) := by
  rw [dropStale, ← erase_all_map _ (fun rename node => node.renumber_converted graph.locals globals functions form rename),
    ← graph.stale_last globals functions form]
  rfl

variable {α : Type}

/-- Where items are erased from the last index on, those behind them do not move. -/
theorem erase_before {indices : List Nat} (items behind : List α) (descending : indices.Pairwise (· > ·))
    (inside : ∀ index ∈ indices, index < items.length) :
    indices.foldl (fun items index => items.eraseIdx index) (items ++ behind) =
      indices.foldl (fun items index => items.eraseIdx index) items ++ behind := by
  induction indices generalizing items with
  | nil => rfl
  | cons index rest ih =>
    obtain ⟨below, later⟩ := List.pairwise_cons.mp descending
    have first := inside index List.mem_cons_self
    rw [List.foldl_cons, List.foldl_cons, List.eraseIdx_append_of_lt_length first]
    refine ih _ later fun other member => ?_
    have small := below other member
    rw [List.length_eraseIdx_of_lt first]
    omega

/-- The indices of the dropped items, where one more item comes last. -/
theorem dropped_indices (drop : α → Bool) (rest : List α) (last : α) :
    (List.range (rest ++ [last]).length).filter (fun index => ((rest ++ [last])[index]?).any drop) =
      (List.range rest.length).filter (fun index => (rest[index]?).any drop) ++ if drop last then [rest.length] else [] := by
  have before : (List.range rest.length).filter (fun index => ((rest ++ [last])[index]?).any drop) =
      (List.range rest.length).filter fun index => (rest[index]?).any drop :=
    List.filter_congr fun index inside => by rw [List.getElem?_append_left (List.mem_range.mp inside)]
  rw [List.length_append, List.length_singleton, List.range_succ, List.filter_append, before]
  simp [List.filter_cons]

theorem erase_last_first (drop : α → Bool) (items : List α) :
    (((List.range items.length).filter fun index => (items[index]?).any drop).reverse).foldl
      (fun items index => items.eraseIdx index) items = items.filter fun item => !drop item := by
  induction items using List.reverseRecOn with
  | nil => rfl
  | append_singleton rest last ih =>
    rw [dropped_indices, List.reverse_append, List.foldl_append, List.filter_append, ← ih]
    by_cases dropped : drop last = true
    · simp [dropped, List.eraseIdx_append_of_length_le]
    · rw [if_neg dropped, List.reverse_nil, List.foldl_nil]
      refine (erase_before rest [last] ?_ fun index inside => ?_).trans ?_
      · exact List.pairwise_reverse.mpr (List.Pairwise.filter _ List.pairwise_lt_range)
      · exact List.mem_range.mp (List.mem_filter.mp (List.mem_reverse.mp inside)).1
      · simp [dropped]

theorem erase_all_kinds (indices : List Nat) (graph : Graph) : (graph.eraseAll indices).nodes.map (·.kind) =
    indices.foldl (fun kinds index => kinds.eraseIdx index) (graph.nodes.map (·.kind)) := by
  induction indices generalizing graph with
  | nil => rfl
  | cons index rest ih =>
    have first : (graph.eraseNode index).nodes.map (·.kind) = (graph.nodes.map (·.kind)).eraseIdx index := by
      simp only [eraseNode, uncompile, List.map_map, List.eraseIdx_map]
      rfl
    rw [List.foldl_cons, ← first]
    exact ih (graph.eraseNode index)

variable (graph : Graph)

theorem dropped_kinds : (graph.dropStale globals functions).nodes.map (·.kind) =
    (graph.nodes.map (·.kind)).filter fun kind => !kind.stale graph.locals globals functions := by
  have kinds := erase_last_first (NodeKind.stale graph.locals globals functions) (graph.nodes.map (·.kind))
  rw [dropStale, erase_all_kinds, ← kinds, staleLast, List.length_map]
  simp only [List.getElem?_map, Option.any_map]

theorem dropped_origin {node : Node} (inside : node ∈ (graph.dropStale globals functions).nodes) :
    node.kind.stale graph.locals globals functions = false ∧ ∃ old ∈ graph.nodes, old.kind = node.kind := by
  have kind : node.kind ∈ (graph.dropStale globals functions).nodes.map (·.kind) := List.mem_map_of_mem inside
  rw [dropped_kinds, List.mem_filter, List.mem_map, Bool.not_eq_true'] at kind
  exact ⟨kind.2, kind.1⟩

theorem drop_locals : (graph.dropStale globals functions).locals = graph.locals := erase_all_locals _ _

theorem fresh_dropped (fresh : ∀ node ∈ graph.nodes, node.kind.stale graph.locals globals functions = false) :
    graph.dropStale globals functions = graph := by
  have none := graph.none_stale globals functions .live fun node inside =>
    node.fresh_converts graph.locals globals functions .live (fresh node inside)
  rw [dropStale, ← graph.stale_last globals functions .live, none]
  rfl

def Live (graph : Graph) : Prop := ∀ node ∈ graph.nodes, node.Live

instance (graph : Graph) : Decidable graph.Live := inferInstanceAs (Decidable (∀ node ∈ graph.nodes, node.Live))

theorem dropped_live (live : graph.Live) : (graph.dropStale globals functions).Live := by
  intro node inside
  obtain ⟨_, old, there, same⟩ := graph.dropped_origin globals functions inside
  have named := live old there
  rwa [Node.Live, same] at named

theorem saved_dropped (live : graph.Live) :
    ((graph.convertReferences globals functions .indexed).1.convertReferences globals functions .live).1 =
      graph.dropStale globals functions := by
  have whole : ((graph.convertReferences globals functions .indexed).1.convertReferences globals functions .live).1 =
      (graph.convertReferences globals functions .indexed).1.mapNodes _ :=
    convert_all globals functions .live _ (graph.indexed_converts globals functions .live)
  rw [whole, convert_locals, convert_erases]
  refine map_nodes_back _ _ (graph.dropStale globals functions) fun node inside => ?_
  exact node.live_restored graph.locals globals functions (graph.dropped_live globals functions live node inside)

theorem swapped_again : ((graph.dropStale globals functions).convertReferences globals functions .indexed).1 =
    (graph.convertReferences globals functions .indexed).1 := by
  have again := (graph.dropStale globals functions).fresh_dropped globals functions
    (by rw [drop_locals]; exact fun node inside => (graph.dropped_origin globals functions inside).1)
  rw [convert_erases, again, drop_locals, convert_erases]

end Graph

theorem all_written {α : Type} (write : α → Option Document) (items : List α)
    (each : ∀ item ∈ items, ∃ document, write item = some document) : ∃ documents, items.mapM write = some documents := by
  induction items with
  | nil => exact ⟨[], rfl⟩
  | cons item rest ih =>
    obtain ⟨document, written⟩ := each item List.mem_cons_self
    obtain ⟨documents, others⟩ := ih fun other inside => each other (List.mem_cons_of_mem _ inside)
    exact ⟨document :: documents, by rw [List.mapM_cons, written, others]; rfl⟩

theorem NodeKind.written (kind : NodeKind)
    (positions : ∀ reference, kind.reference? = some reference → ∃ isLocal index, reference = .indexed isLocal index) :
    ∃ document, kind.toDocument? = some document := by
  cases kind
  case getVariable reference | setVariable reference =>
    obtain ⟨isLocal, index, rfl⟩ := positions reference rfl
    exact ⟨_, rfl⟩
  all_goals exact ⟨_, rfl⟩

theorem Graph.swapped_written (globals : List Variable) (functions : List Guid) (graph : Graph) :
    ∃ document, (graph.convertReferences globals functions .indexed).1.toDocument? = some document := by
  have kinds : ∀ node ∈ (graph.convertReferences globals functions .indexed).1.nodes,
      ∃ document, node.kind.toDocument? = some document := by
    refine graph.convert_keeps globals functions .indexed _ (fun _ _ => id) fun node _ other made => ?_
    refine other.kind.written fun reference named => ?_
    obtain ⟨old, converts⟩ := (node.converted graph.locals globals functions made).reference reference named
    obtain ⟨isLocal, index, same, _⟩ := Reference.converted_indexed graph.locals globals converts
    exact ⟨isLocal, index, same⟩
  obtain ⟨nodes, written⟩ := all_written Node.toDocument? _ fun node inside => by
    obtain ⟨kind, written⟩ := kinds node inside
    exact ⟨_, by rw [Node.toDocument?, written]; rfl⟩
  exact ⟨_, by rw [toDocument?, written]; rfl⟩

namespace Script

def Live (script : Script) : Prop := ∀ graph ∈ script.graphs, graph.Live

instance (script : Script) : Decidable script.Live := inferInstanceAs (Decidable (∀ graph ∈ script.graphs, graph.Live))

def dropStale (script : Script) : Script := script.mapGraphs (Graph.dropStale script.vars script.functionIds)

theorem map_graphs_congr (change other : Graph → Graph) (script : Script)
    (same : ∀ graph ∈ script.graphs, change graph = other graph) : script.mapGraphs change = script.mapGraphs other := by
  simp only [graphs, List.mem_append, List.mem_map] at same
  have events : script.eventGraphs.map (·.mapGraph change) = script.eventGraphs.map (·.mapGraph other) :=
    List.map_congr_left fun event inside => by
      rw [EventGraph.mapGraph, EventGraph.mapGraph, same _ (.inl (.inl ⟨event, inside, rfl⟩))]
  have provided : script.interfaceFunctions.map (·.mapGraph change) = script.interfaceFunctions.map (·.mapGraph other) :=
    List.map_congr_left fun function inside => by
      rw [InterfaceFunction.mapGraph, InterfaceFunction.mapGraph, Body.mapGraph, Body.mapGraph,
        same _ (.inl (.inr ⟨function, inside, rfl⟩))]
  have functions : script.functions.map (·.mapGraph change) = script.functions.map (·.mapGraph other) :=
    List.map_congr_left fun function inside => by
      rw [Function.mapGraph, Function.mapGraph, Body.mapGraph, Body.mapGraph, same _ (.inr ⟨function, inside, rfl⟩)]
  rw [mapGraphs, mapGraphs, events, provided, functions]

theorem map_graphs_map (first second : Graph → Graph) (script : Script) :
    (script.mapGraphs first).mapGraphs second = script.mapGraphs fun graph => second (first graph) := by
  simp [mapGraphs, Function.comp_def, EventGraph.mapGraph, InterfaceFunction.mapGraph, Function.mapGraph, Body.mapGraph]

variable (script : Script)

theorem map_graphs_id : script.mapGraphs (fun graph => graph) = script := by
  simp [mapGraphs, EventGraph.mapGraph, InterfaceFunction.mapGraph, Function.mapGraph, Body.mapGraph]

theorem map_graphs_ids (change : Graph → Graph) (script : Script) :
    (script.mapGraphs change).functionIds = script.functionIds := by
  simp [functionIds, mapGraphs, Function.comp_def, Function.mapGraph]

theorem saved_dropped (write : Document → String) (script : Script) (live : script.Live) :
    (script.saveWith write).2 = script.dropStale := by
  have second : (script.saveWith write).2 =
      (script.mapGraphs fun graph => (graph.convertReferences script.vars script.functionIds .indexed).1).mapGraphs
        fun graph => (graph.convertReferences script.vars (script.convertReferences .indexed).1.functionIds .live).1 := rfl
  rw [second, script.convert_functions .indexed, map_graphs_map]
  exact script.map_graphs_congr _ _ fun graph inside => graph.saved_dropped script.vars script.functionIds (live graph inside)

theorem dropped_live (live : script.Live) : script.dropStale.Live := by
  intro graph inside
  rw [dropStale, graphs_map] at inside
  obtain ⟨old, there, rfl⟩ := List.mem_map.mp inside
  exact old.dropped_live script.vars script.functionIds (live old there)

theorem swapped_again :
    (script.dropStale.convertReferences .indexed).1 = (script.convertReferences .indexed).1 := by
  rw [convertReferences, convertReferences, dropStale, map_graphs_ids, map_graphs_map]
  exact script.map_graphs_congr _ _ fun graph _ => graph.swapped_again script.vars script.functionIds

theorem second_pass_keeps : ((script.convertReferences .indexed).1.convertReferences .live).2 = 0 := by
  have counts : ((script.convertReferences .indexed).1.convertReferences .live).2 =
      ((script.convertReferences .indexed).1.graphs.map fun graph =>
        (graph.convertReferences script.vars (script.convertReferences .indexed).1.functionIds .live).2).sum := rfl
  rw [counts, script.convert_functions .indexed, convert_graphs, List.map_map]
  refine List.sum_eq_zero_iff_forall_eq_nat.mpr fun count inside => ?_
  obtain ⟨graph, _, rfl⟩ := List.mem_map.mp inside
  have none := Graph.none_stale script.vars script.functionIds .live _
    (graph.indexed_converts script.vars script.functionIds .live)
  exact congrArg List.length none

theorem swapped_written : ∃ document, (script.convertReferences .indexed).1.toDocument? = some document := by
  have each : ∀ graph ∈ (script.convertReferences .indexed).1.graphs, ∃ document, graph.toDocument? = some document := by
    intro graph inside
    rw [convert_graphs] at inside
    obtain ⟨old, _, rfl⟩ := List.mem_map.mp inside
    exact old.swapped_written script.vars script.functionIds
  simp only [graphs, List.mem_append, List.mem_map] at each
  obtain ⟨events, eventsWritten⟩ := all_written EventGraph.toDocument? _ fun event inside => by
    obtain ⟨document, written⟩ := each _ (.inl (.inl ⟨event, inside, rfl⟩))
    exact ⟨_, by rw [EventGraph.toDocument?, written]; rfl⟩
  obtain ⟨provided, providedWritten⟩ := all_written InterfaceFunction.toDocument? _ fun function inside => by
    obtain ⟨document, written⟩ := each _ (.inl (.inr ⟨function, inside, rfl⟩))
    exact ⟨_, by rw [InterfaceFunction.toDocument?, Body.entries?, written]; rfl⟩
  obtain ⟨functions, functionsWritten⟩ := all_written Function.toDocument? _ fun function inside => by
    obtain ⟨document, written⟩ := each _ (.inr ⟨function, inside, rfl⟩)
    exact ⟨_, by rw [Function.toDocument?, Body.entries?, written]; rfl⟩
  exact ⟨_, by rw [toDocument?, eventsWritten, providedWritten, functionsWritten]; rfl⟩

end Script

/-- Saving drops the stale nodes of a script and does nothing else to it, so a second time it finds the script as it is. -/
theorem saving_undisturbed (write : Document → String) (script : Script) (live : script.Live) :
    (∃ text, (script.saveWith write).1 = .ok text) ∧ (script.saveWith write).2 = script.dropStale ∧
    script.dropStale.graphs.map (fun graph => graph.nodes.map (·.kind)) = script.graphs.map (fun graph =>
      (graph.nodes.map (·.kind)).filter fun kind => !kind.stale graph.locals script.vars script.functionIds) ∧
    script.dropStale.Live ∧ ((script.convertReferences .indexed).1.convertReferences .live).2 = 0 ∧
    (script.saveWith write).2.saveWith write = script.saveWith write ∧
    ((∀ graph ∈ script.graphs, ∀ node ∈ graph.nodes,
      node.kind.stale graph.locals script.vars script.functionIds = false) → (script.saveWith write).2 = script) := by
  have saved := script.saved_dropped write live
  refine ⟨?_, saved, ?_, script.dropped_live live, script.second_pass_keeps, ?_, fun fresh => ?_⟩
  · obtain ⟨document, written⟩ := script.swapped_written
    exact ⟨write document, by simp only [Script.saveWith, written]⟩
  · rw [Script.dropStale, Script.graphs_map, List.map_map]
    exact List.map_congr_left fun graph _ => graph.dropped_kinds script.vars script.functionIds
  · rw [saved, Script.saveWith, script.swapped_again]
    rfl
  · rw [saved, Script.dropStale]
    refine (script.map_graphs_congr _ _ fun graph inside => ?_).trans script.map_graphs_id
    exact graph.fresh_dropped script.vars script.functionIds (fresh graph inside)

/-- The one stale node goes, and then nothing more. What a run has left behind stays. -/
theorem running_scripts_undisturbed : thermostat.Live ∧ thermostat.save.2 = thermostat.dropStale ∧
    thermostat.nodeCount = 8 ∧ thermostat.dropStale.nodeCount = 7 ∧ thermostat.save.2.save = thermostat.save ∧
    division.2.1.Live ∧ division.2.1.save.2 = division.2.1 := by
  have live : thermostat.Live := by decide +kernel
  have ran : division.2.1.Live := by decide +kernel
  obtain ⟨_, dropped, _, _, _, again, _⟩ := saving_undisturbed Document.pretty thermostat live
  obtain ⟨_, _, _, _, _, _, kept⟩ := saving_undisturbed Document.pretty division.2.1 ran
  exact ⟨live, dropped, by decide +kernel, by decide +kernel, again, ran, kept (by decide +kernel)⟩

end Patchbay
