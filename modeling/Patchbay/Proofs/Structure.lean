import Patchbay.Proofs.Signatures
import Patchbay.Proofs.Unedited
import Patchbay.Proofs.Subscriptions

set_option autoImplicit false

namespace Patchbay

variable {record : Record} {medium : Medium} {document read : Document} {names : List String}

theorem graph_reread {graph : Graph} {value : Graph}
    (written : graph.toDocument? = some document) (rereads : Document.Rereads document read)
    (got : Graph.read medium read = some value) : value.fixtures = graph.fixtures :=
  bones_view Node.fixture? (fun _ => rfl) (nodes_reread written rereads got)

theorem event_graph_reread (event : EventGraph) (document read : Document) (value : EventGraph)
    (written : event.toDocument? = some document) (rereads : Document.Rereads document read)
    (got : EventGraph.ofDocument? read = some value) : value.graph.fixtures = event.graph.fixtures := by
  obtain ⟨graphText, graphWritten, same⟩ := Option.bind_eq_some_iff.mp written
  cases same
  unfold EventGraph.ofDocument? at got
  simp only [bind, Option.bind_eq_some_iff, pure, Option.some.injEq] at got
  obtain ⟨record, found, _, _, graph, graphRead, rfl⟩ := got
  obtain ⟨part, comes, inner⟩ := (Document.record_reread rereads found).required (by simp) graphText rfl
    _ graph graphRead
  exact graph_reread graphWritten comes inner

theorem merged_record
    (found : document.mergedRecord? names = some record) : document.record? names = some record := by
  rw [Document.mergedRecord?] at found
  split at found
  · cases document with
    | object => exact found
    | _ => cases found
  · cases found

theorem body_reread {body : Body} {entries : List (String × Document)} {graphText : Document} {value : Body}
    (known : "graph" ∈ names) (written : body.graph.toDocument? = some graphText)
    (there : (Record.mk false entries).find? "graph" = some graphText) (rereads : Document.Rereads (.object entries) read)
    (found : read.mergedRecord? names = some record) (got : Body.ofRecord? record = some value) :
    value.graph.fixtures = body.graph.fixtures := by
  unfold Body.ofRecord? at got
  simp only [bind, Option.bind_eq_some_iff, pure, Option.some.injEq] at got
  obtain ⟨graph, graphRead, _, _, _, _, rfl⟩ := got
  have fields := Document.record_reread rereads (merged_record found)
  obtain ⟨part, comes, inner⟩ := fields.required known graphText there _ graph graphRead
  exact graph_reread written comes inner

theorem function_reread (function : Function) (document read : Document) (value : Function)
    (written : function.toDocument? = some document) (rereads : Document.Rereads document read)
    (got : Function.ofDocument? read = some value) : value.body.graph.fixtures = function.body.graph.fixtures := by
  obtain ⟨entries, inner, same⟩ := Option.bind_eq_some_iff.mp written
  obtain ⟨graphText, graphWritten, inner⟩ := Option.bind_eq_some_iff.mp inner
  cases inner
  cases same
  unfold Function.ofDocument? at got
  simp only [bind, Option.bind_eq_some_iff, pure, Option.some.injEq] at got
  obtain ⟨record, found, _, _, _, _, body, bodyRead, rfl⟩ := got
  exact body_reread (by simp [Body.fieldNames]) graphWritten rfl rereads found bodyRead

theorem interface_function_reread (function : InterfaceFunction) (document read : Document) (value : InterfaceFunction)
    (written : function.toDocument? = some document) (rereads : Document.Rereads document read)
    (got : InterfaceFunction.ofDocument? read = some value) : value.body.graph.fixtures = function.body.graph.fixtures := by
  obtain ⟨entries, inner, same⟩ := Option.bind_eq_some_iff.mp written
  obtain ⟨graphText, graphWritten, inner⟩ := Option.bind_eq_some_iff.mp inner
  cases inner
  cases same
  unfold InterfaceFunction.ofDocument? at got
  simp only [bind, Option.bind_eq_some_iff, pure, Option.some.injEq] at got
  obtain ⟨record, found, _, _, _, _, body, bodyRead, rfl⟩ := got
  exact body_reread (by simp [Body.fieldNames]) graphWritten rfl rereads found bodyRead

theorem script_reread {script : Script} {value : Script}
    (written : script.toDocument? = some document) (rereads : Document.Rereads document read)
    (got : Script.ofDocument? read = some value) : value.graphs.map Graph.fixtures = script.graphs.map Graph.fixtures := by
  unfold Script.toDocument? at written
  simp only [bind, Option.bind_eq_some_iff, pure, Option.some.injEq] at written
  obtain ⟨events, eventsWritten, provided, providedWritten, functions, functionsWritten, rfl⟩ := written
  unfold Script.ofDocument? at got
  simp only [bind, Option.bind_eq_some_iff, pure, Option.some.injEq] at got
  obtain ⟨record, found, _, _, _, _, eventGraphs, eventsRead, interfaceFunctions, providedRead, ownFunctions, functionsRead, _, _,
    rfl⟩ := got
  have fields := Document.record_reread rereads found
  obtain ⟨_, comes, got⟩ := fields.withDefault (by simp [Script.fieldNames]) (.array events) rfl _ eventsRead
  have sameEvents := Document.parts_reread _ _ _ event_graph_reread eventsWritten comes got
  obtain ⟨_, comes, got⟩ := fields.withDefault (by simp [Script.fieldNames]) (.array provided) rfl _ providedRead
  have sameProvided := Document.parts_reread _ _ _ interface_function_reread providedWritten comes got
  obtain ⟨_, comes, got⟩ := fields.withDefault (by simp [Script.fieldNames]) (.array functions) rfl _ functionsRead
  have sameFunctions := Document.parts_reread _ _ _ function_reread functionsWritten comes got
  simp only [Script.graphs, List.map_append, List.map_map, Function.comp_def, sameEvents, sameProvided, sameFunctions]

/-- A change of a node from outside may be of any other part of it, but it leaves its kind. -/
def Operation.KeepsKinds : Operation → Prop
  | .reshape _ change => ∀ node, (change node).1.kind = node.kind
  | _ => True

namespace Graph

variable (kinds : List NodeKind)

theorem wiped_fixtures (graph : Graph) : graph.wiped.fixtures = graph.fixtures := by
  rw [fixtures, wiped, List.map_map]
  rfl

theorem run_fixtures {σ : Type} (host : Host σ) (start : Nat) (arguments : List Value) (graph : Graph) (env : Env σ) :
    (graph.run host start arguments env).2.1.fixtures = graph.fixtures := by
  rw [← wiped_fixtures, ← wiped_fixtures graph]
  exact congrArg fixtures (run_with_wiped host _ start arguments graph env)

theorem compile_fixtures (graph : Graph) : graph.compile.2.fixtures = graph.fixtures := by
  rw [fixtures_of_kinds, compile_kinds, ← fixtures_of_kinds]

theorem prepare_fixtures (graph : Graph) : graph.prepare.2.fixtures = graph.fixtures := by
  rw [prepare]
  split <;> rfl

theorem reshape_fixtures (index : Nat) (change : Node → Node × List NodeAction) (same : ∀ node, (change node).1.kind = node.kind)
    (graph : Graph) : (graph.reshapeNode index change).2.fixtures = graph.fixtures := by
  rw [reshapeNode]
  split
  · rfl
  · next node found => exact modify_fixtures index node _ found (node.fixture_congr (same node))

variable {graph : Graph} {script : Script} {place : Nat}

theorem operation_begins {operation : Operation} (inside : operation.KeepsKinds)
    (begins : graph.BeginsWith kinds) : (operation.apply graph).BeginsWith kinds := by
  cases operation with
  | addNode node => exact begins_append kinds List.map_append begins
  | reshape index change => exact begins_congr kinds (reshape_fixtures index change inside graph) begins
  | addLocal => exact begins
  | removeNode index => exact remove_node_begins kinds index begins
  | connect source output target input =>
    exact begins_congr kinds (fixture_aloof.connect graph source output target input) begins
  | disconnect target input => exact begins_congr kinds (fixture_aloof.disconnect graph target input) begins
  | connectExec source output target input =>
    exact begins_congr kinds (fixture_aloof.connect_exec graph source output target input) begins
  | disconnectExec source output => exact begins_congr kinds (fixture_aloof.set_target graph source output none) begins
  | setLiteral index input literal =>
    refine begins_congr kinds (fixture_aloof.set_literal graph (fun _ _ input => ?_) index input literal) begins
    exact literal_changed_fixture input _
  | setCase index output value => exact begins_congr kinds (fixture_aloof.set_case graph index output value) begins
  | addInput index => exact begins_congr kinds (grow_node_fixtures _ add_input_fixture index graph) begins
  | addOutput index => exact begins_congr kinds (grow_node_fixtures _ add_output_fixture index graph) begins
  | prune => exact begins_congr kinds graph.prune_fixtures begins
  | syncCalls function inputs outputs =>
    exact begins_congr kinds (sync_calls_fixtures function inputs outputs graph) begins
  | convertReferences globals functions form => exact convert_begins kinds globals functions form begins
  | pasteNodes globals functions text offset => exact paste_begins kinds globals functions text offset begins
  | compile => exact begins_congr kinds graph.compile_fixtures begins
  | prepare => exact begins_congr kinds graph.prepare_fixtures begins
  | run host start arguments env => exact begins_congr kinds (run_fixtures host start arguments graph env) begins

theorem rebuild_begins {body : Body} {answer : List NodeAction × List NodeAction × Body} (rebuilt : body.rebuild = .ok answer)
    (begins : body.graph.BeginsWith kinds) : answer.2.2.graph.BeginsWith kinds := by
  obtain ⟨entry, returned, framed, same⟩ := rebuild_cases rebuilt
  rw [same]
  exact begins_congr kinds (reshaped_fixtures framed) begins

theorem save_begins {saved : Graph} (part : script.graphs[place]? = some graph)
    (after : script.save.2.graphs[place]? = some saved) (begins : graph.BeginsWith kinds) : saved.BeginsWith kinds := by
  rw [Script.save, Script.saved_graphs, Script.convert_graphs, List.getElem?_map, List.getElem?_map, part] at after
  cases after
  exact convert_begins kinds _ _ .live (convert_begins kinds _ _ .indexed begins)

theorem load_begins {loaded : Script} {text : String} {next : Graph}
    (part : script.graphs[place]? = some graph) (saved : script.save.1 = .ok text) (read : Script.load text = .ok loaded)
    (after : loaded.graphs[place]? = some next) (begins : graph.BeginsWith kinds) : next.BeginsWith kinds := by
  unfold Script.save Script.saveWith at saved
  dsimp only at saved
  split at saved
  · next document written =>
      cases saved
      unfold Script.load Script.loadWith at read
      split at read
      · next value found =>
          cases read
          obtain ⟨document, parsed, value⟩ := Option.bind_eq_some_iff.mp found
          have same := script_reread written (Document.Layout.indented.parse_back parsed) value
          rw [Script.convert_graphs, List.getElem?_map] at after
          obtain ⟨raw, inside, rfl⟩ := Option.map_eq_some_iff.mp after
          have fixtures : raw.fixtures = (graph.convertReferences script.vars script.functionIds .indexed).1.fixtures := by
            have here := congrArg (·[place]?) same
            simp only [Script.convert_graphs, List.getElem?_map, inside, part, Option.map_some, Option.some.injEq] at here
            exact here
          exact convert_begins kinds _ _ .live
            (begins_congr kinds fixtures (convert_begins kinds _ _ .indexed begins))
      · cases read
  · cases saved

/-- What a graph can become: by operations on it, when its variables are changed in any way, when its function gets other
parameters and is rebuilt, and when the script that it is a part of is saved, or loaded from where it was saved. -/
inductive Becomes (start : Graph) : Graph → Prop where
  | start : Becomes start start
  | operation (graph : Graph) (before : Becomes start graph) (operation : Operation) (inside : operation.KeepsKinds) :
      Becomes start (operation.apply graph)
  | locals (graph : Graph) (before : Becomes start graph) (locals : List Variable) : Becomes start { graph with locals := locals }
  | rebuild (graph : Graph) (before : Becomes start graph) (inputs outputs : List Parameter)
      (answer : List NodeAction × List NodeAction × Body) (rebuilt : Body.rebuild ⟨graph, inputs, outputs⟩ = .ok answer) :
      Becomes start answer.2.2.graph
  | save (graph : Graph) (before : Becomes start graph) (script : Script) (place : Nat) (saved : Graph)
      (part : script.graphs[place]? = some graph) (after : script.save.2.graphs[place]? = some saved) : Becomes start saved
  | load (graph : Graph) (before : Becomes start graph) (script loaded : Script) (text : String) (place : Nat) (next : Graph)
      (part : script.graphs[place]? = some graph) (saved : script.save.1 = .ok text) (read : Script.load text = .ok loaded)
      (after : loaded.graphs[place]? = some next) : Becomes start next

theorem becomes_begins {start : Graph} (becomes : start.Becomes graph) (begins : start.BeginsWith kinds) :
    graph.BeginsWith kinds := by
  induction becomes with
  | start => exact begins
  | operation graph _ operation inside ih => exact operation_begins kinds inside ih
  | locals graph _ locals ih => exact ih
  | rebuild graph _ inputs outputs answer rebuilt ih => exact rebuild_begins kinds rebuilt ih
  | save graph _ script place saved part after ih => exact save_begins kinds part after ih
  | load graph _ script loaded text place next part saved read after ih =>
    exact load_begins kinds part saved read after ih

end Graph

theorem EventGraph.event_begins {event : String} {component : Option Guid} {graph : EventGraph}
    (begins : graph.graph.BeginsWith [.receiveEvent event component]) : graph.event = .ok (event, component) := by
  obtain ⟨node, found, kind⟩ := graph.graph.begins_found _ begins receiveNode rfl
  rw [EventGraph.event, found]
  dsimp only
  rw [kind]

/-- Entry and return of a body and the event of an event graph stay in front of whatever becomes of the graph. -/
theorem fixtures_stay :
    (∀ inputs outputs graph, (Body.fresh inputs outputs).graph.Becomes graph →
      (∃ entry, graph.nodes[entryNode]? = some entry ∧ entry.kind = .functionEntry) ∧
      (∃ returned, graph.nodes[returnNode]? = some returned ∧ returned.kind = .functionReturn) ∧
      ∀ inputs outputs, Body.checkStructure ⟨graph, inputs, outputs⟩ = .ok () ∧
        ∃ answer, Body.rebuild ⟨graph, inputs, outputs⟩ = .ok answer) ∧
    ∀ guid event component parameters graph, (EventGraph.fresh guid event component parameters).graph.Becomes graph →
      (∃ node, graph.nodes[receiveNode]? = some node ∧ node.kind = .receiveEvent event component) ∧
      ∀ guid subscription, EventGraph.event ⟨guid, graph, subscription⟩ = .ok (event, component) := by
  constructor
  · intro inputs outputs graph becomes
    have begins := Graph.becomes_begins [.functionEntry, .functionReturn] becomes (List.prefix_refl _)
    have callable := graph.callable_iff.mpr begins
    exact ⟨graph.begins_found _ begins entryNode rfl, graph.begins_found _ begins returnNode rfl, fun inputs outputs =>
      ⟨Body.callable_checked ⟨graph, inputs, outputs⟩ callable, Body.callable_rebuilds ⟨graph, inputs, outputs⟩ callable⟩⟩
  · intro guid event component parameters graph becomes
    have begins := Graph.becomes_begins [.receiveEvent event component] becomes (List.prefix_refl _)
    exact ⟨graph.begins_found _ begins receiveNode rfl, fun guid subscription =>
      EventGraph.event_begins begins⟩

/-- A graph gets a call of a function that is not there and an entry that does not belong there, and is to give up its first
node. -/
def Graph.besieged (start : Graph) : Graph :=
  [Operation.addNode (Node.callFunction ⟨9⟩ "Gone" [] []), .addNode (Node.functionEntry []), .removeNode 0].foldl Operation.apply
    start

def besieged : Script :=
  { Script.empty "Siege" with
    eventGraphs := [(EventGraph.fresh ⟨3⟩ "tick" none []).mapGraph Graph.besieged]
    functions := [⟨⟨5⟩, "Step", (Body.fresh [] []).mapGraph Graph.besieged⟩] }

theorem besieged_becomes (start : Graph) : start.Becomes start.besieged := by
  refine .operation _ (.operation _ (.operation start .start (.addNode _) ?_) (.addNode _) ?_) (.removeNode 0) ?_ <;>
  exact trivial

/-- The call is lost when the script is saved. The entry takes no part, and what was in front is there again. -/
theorem besieged_stays :
    ∃ text loaded event step, besieged.save.1 = .ok text ∧ Script.load text = .ok loaded ∧ loaded.graphs = [event, step] ∧
      event.nodes.map (·.kind) = [.receiveEvent "tick" none, .functionEntry] ∧
      step.nodes.map (·.kind) = [.functionEntry, .functionReturn, .functionEntry] ∧
      EventGraph.event ⟨⟨3⟩, event, none⟩ = .ok ("tick", none) ∧
      Body.checkStructure ⟨step, [⟨"Count", .int⟩], []⟩ = .ok () := by
  obtain ⟨text, saved, loaded⟩ := besieged.legible_reload (by decide +kernel) (by decide +kernel) (by decide +kernel)
  obtain ⟨body, events⟩ := fixtures_stay
  refine ⟨text, _, _, _, saved, loaded, rfl, by decide +kernel, by decide +kernel, ?_, ?_⟩
  · exact (events ⟨3⟩ "tick" none [] _ (.load _ (besieged_becomes _) besieged _ text 0 _ rfl saved loaded rfl)).2 ⟨3⟩ none
  · exact ((body [] [] _ (.load _ (besieged_becomes _) besieged _ text 1 _ rfl saved loaded rfl)).2.2 _ _).1

end Patchbay
