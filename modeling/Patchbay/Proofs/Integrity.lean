import Patchbay.Proofs.Calls
import Patchbay.Proofs.Initialization
import Patchbay.Proofs.Lifecycles
import Patchbay.Proofs.Unedited

set_option autoImplicit false

namespace Patchbay

variable {σ : Type}

/-- What a node refers to is there: its variable, which it names as in memory, and the function that it calls. -/
structure NodeKind.Refers (known functions : List Guid) (kind : NodeKind) : Prop where
  named : ∀ reference, kind.reference? = some reference → ∃ guid ∈ known, reference = .live guid
  called : ∀ guid, kind = .callFunction guid → guid ∈ functions

theorem NodeKind.Refers.mono {known more functions others : List Guid} {kind : NodeKind}
    (refers : kind.Refers known functions) (grown : known ⊆ more) (listed : functions ⊆ others) : kind.Refers more others := by
  refine ⟨fun reference names => ?_, fun guid call => listed (refers.called guid call)⟩
  obtain ⟨guid, inside, live⟩ := refers.named reference names
  exact ⟨guid, grown inside, live⟩

theorem NodeKind.refers_plain (known functions : List Guid) {kind : NodeKind} (plain : kind.reference? = none)
    (other : ∀ guid, kind ≠ .callFunction guid) : kind.Refers known functions :=
  ⟨fun _ names => absurd (names.symm.trans plain) (Option.some_ne_none _), fun guid call => absurd call (other guid)⟩

structure Naming where
  locals : List Guid
  kinds : List NodeKind

def Naming.Refers (globals functions : List Guid) (naming : Naming) : Prop :=
  ∀ kind ∈ naming.kinds, kind.Refers (naming.locals ++ globals) functions

def Graph.naming (graph : Graph) : Naming := ⟨graph.locals.map (·.guid), graph.nodes.map (·.kind)⟩

namespace Script

def variableIds (script : Script) : List Guid := script.vars.map (·.guid)

def Refers (script : Script) : Prop :=
  ∀ graph ∈ script.graphs, graph.naming.Refers script.variableIds script.functionIds

def names (script : Script) : List Naming × List Guid × List Guid :=
  (script.graphs.map (·.naming), script.variableIds, script.functionIds)

theorem refers_of_names {script after : Script} (same : after.names = script.names) (refers : script.Refers) :
    after.Refers := by
  obtain ⟨graphs, known, functions⟩ : _ ∧ _ ∧ _ := by simpa only [names, Prod.mk.injEq] using same
  intro graph inside
  have listed : graph.naming ∈ after.graphs.map (·.naming) := List.mem_map_of_mem inside
  rw [graphs] at listed
  obtain ⟨old, there, alike⟩ := List.mem_map.mp listed
  rw [← alike, known, functions]
  exact refers old there

end Script

theorem Graph.convert_refers (globals : List Variable) (functions : List Guid) (graph : Graph) :
    (graph.convertReferences globals functions .live).1.naming.Refers (globals.map (·.guid)) functions := by
  have each := graph.convert_keeps globals functions .live
    (fun node => node.kind.Refers (graph.locals.map (·.guid) ++ globals.map (·.guid)) functions) (fun _ _ => id) ?_
  · intro kind inside
    obtain ⟨node, there, rfl⟩ := List.mem_map.mp inside
    rw [Graph.naming, convert_locals]
    exact each node there
  · intro node _ other made
    have conversion := node.converted graph.locals globals functions made
    refine ⟨fun reference named => ?_, fun guid call => by simpa using conversion.function guid call⟩
    obtain ⟨old, converts⟩ := conversion.reference reference named
    exact Reference.converted_live graph.locals globals old converts

namespace Script

theorem convert_refers (script : Script) : (script.convertReferences .live).1.Refers := by
  intro graph inside
  rw [convert_graphs] at inside
  obtain ⟨old, _, rfl⟩ := List.mem_map.mp inside
  rw [convert_functions]
  exact old.convert_refers script.vars script.functionIds

variable {script : Script} {globals : List Variable} {functions : List Guid} {graph : Graph}

theorem loaded_refers {text : String} (loaded : Script.load text = .ok script) : script.Refers := by
  unfold load loadWith at loaded
  split at loaded
  · cases loaded
    exact convert_refers _
  · cases loaded

theorem grown_refers {after : Script} (refers : script.Refers)
    (graphs : ∀ graph ∈ after.graphs, graph ∈ script.graphs ∨ graph.naming.Refers after.variableIds after.functionIds)
    (known : script.variableIds ⊆ after.variableIds) (functions : script.functionIds ⊆ after.functionIds) :
    after.Refers := by
  intro graph inside
  obtain old | new := graphs graph inside
  · intro kind member
    refine (refers graph old kind member).mono (List.append_subset.mpr ⟨List.subset_append_left _ _, ?_⟩) functions
    exact List.Subset.trans known (List.subset_append_right _ _)
  · exact new

theorem add_variable_refers (entry : Variable) (refers : script.Refers) :
    (script.addVariable entry).Refers := by
  refine grown_refers refers (fun graph inside => .inl inside) ?_ (fun _ inside => inside)
  simp only [variableIds, addVariable, List.map_append]
  exact List.subset_append_left _ _

theorem fresh_body_refers (inputs outputs : List Parameter) (globals functions : List Guid) :
    (Body.fresh inputs outputs).graph.naming.Refers globals functions := by
  intro kind inside
  have kinds : (Body.fresh inputs outputs).graph.naming.kinds = [.functionEntry, .functionReturn] := rfl
  rw [kinds] at inside
  simp only [List.mem_cons, List.not_mem_nil, or_false] at inside
  obtain rfl | rfl := inside <;> exact NodeKind.refers_plain _ _ rfl nofun

theorem add_function_refers {function : Function} {inputs outputs : List Parameter}
    (fresh : function.body = Body.fresh inputs outputs) (refers : script.Refers) : (script.addFunction function).Refers := by
  refine grown_refers refers (fun graph inside => ?_) (fun _ inside => inside) ?_
  · simp only [graphs, addFunction, List.map_append, List.mem_append, List.map_cons, List.map_nil, List.mem_singleton] at inside
    obtain old | old | rfl := inside
    · exact .inl (List.mem_append_left _ (List.mem_append.mpr old))
    · exact .inl (List.mem_append_right _ old)
    · rw [fresh]
      exact .inr (fresh_body_refers inputs outputs _ _)
  · simp only [functionIds, addFunction, List.map_append]
    exact List.subset_append_left _ _

theorem adopted_refers {locals : List Variable} {node other : Node}
    (adopted : Graph.adoptNode? globals functions locals node = some other) :
    other.kind.Refers (locals.map (·.guid) ++ globals.map (·.guid)) functions := by
  unfold Graph.adoptNode? at adopted
  split at adopted
  · next function call =>
      split at adopted <;> cases adopted
      next listed =>
        rw [call]
        refine ⟨fun _ names => ?_, fun guid same => ?_⟩
        · cases names
        · cases same
          simpa using listed
  · next plain =>
      unfold Node.convertVariable? at adopted
      split at adopted
      · next unnamed =>
          cases adopted
          exact NodeKind.refers_plain _ _ unnamed plain
      · next reference named =>
          obtain ⟨converted, made, rfl⟩ := Option.map_eq_some_iff.mp adopted
          have listed := Reference.converted_live locals globals reference made
          cases kind : node.kind <;> rw [kind] at named <;> cases named
          all_goals
            refine ⟨fun other same => ?_, fun guid call => ?_⟩
            · cases same
              exact listed
            · cases call

theorem adopt_naming (kept : List (Nat × Node)) (offset : Position) (graph : Graph) :
    (graph.adoptNodes kept offset).naming = ⟨graph.naming.locals, graph.naming.kinds ++ kept.map (·.2.kind)⟩ := by
  simp only [Graph.naming, Graph.adoptNodes, prune_nodes, prune_locals, add_all_nodes, add_all_locals, List.map_map,
    List.map_append]
  rfl

theorem pasted_refers (text : String) (offset : Position)
    (refers : graph.naming.Refers (globals.map (·.guid)) functions) :
    (Edit.pasteNodes globals functions text offset graph).2.naming.Refers (globals.map (·.guid)) functions := by
  unfold Edit.pasteNodes Edit.pasteNodesWith
  split
  · exact refers
  · intro kind inside
    dsimp only at inside ⊢
    rw [adopt_naming] at inside ⊢
    obtain old | new := List.mem_append.mp inside
    · exact refers kind old
    · obtain ⟨entry, kept, rfl⟩ := List.mem_map.mp new
      obtain ⟨pair, _, made⟩ := List.mem_filterMap.mp kept
      obtain ⟨other, adopted, rfl⟩ := Option.map_eq_some_iff.mp made
      exact adopted_refers adopted

theorem modified_graphs {address : GraphAddress} (change : Graph → Graph) :
    ∀ graph ∈ (script.modifyGraph address change).graphs,
      graph ∈ script.graphs ∨ ∃ old ∈ script.graphs, graph = change old := by
  intro graph inside
  have listed {α : Type} (items : List α) (view : α → Graph) (index : Nat) (mapped : (Graph → Graph) → α → α)
      (maps : ∀ item, view (mapped change item) = change (view item))
      (inside : graph ∈ (items.modify index (mapped change)).map view) :
      graph ∈ items.map view ∨ ∃ old ∈ items.map view, graph = change old := by
    obtain ⟨item, there, rfl⟩ := List.mem_map.mp inside
    obtain old | ⟨old, here, rfl⟩ := mem_modify index (mapped change) items item there
    · exact .inl (List.mem_map_of_mem old)
    · exact .inr ⟨view old, List.mem_map_of_mem (List.mem_of_getElem? here), maps old⟩
  cases address with
  | event index =>
    simp only [modifyGraph, graphs, List.mem_append] at inside ⊢
    obtain (new | old) | old := inside
    · rcases listed script.eventGraphs _ index EventGraph.mapGraph (fun _ => rfl) new with old | ⟨old, was, same⟩
      · exact .inl (.inl (.inl old))
      · exact .inr ⟨old, .inl (.inl was), same⟩
    · exact .inl (.inl (.inr old))
    · exact .inl (.inr old)
  | interface index =>
    simp only [modifyGraph, graphs, List.mem_append] at inside ⊢
    obtain (old | new) | old := inside
    · exact .inl (.inl (.inl old))
    · rcases listed script.interfaceFunctions _ index InterfaceFunction.mapGraph (fun _ => rfl) new with old | ⟨old, was, same⟩
      · exact .inl (.inl (.inr old))
      · exact .inr ⟨old, .inl (.inr was), same⟩
    · exact .inl (.inr old)
  | function guid =>
    unfold modifyGraph at inside
    dsimp only at inside
    split at inside
    · next index _ =>
        simp only [graphs, List.mem_append] at inside ⊢
        obtain old | new := inside
        · exact .inl (.inl old)
        · rcases listed script.functions _ index Function.mapGraph (fun _ => rfl) new with old | ⟨old, was, same⟩
          · exact .inl (.inr old)
          · exact .inr ⟨old, .inr was, same⟩
    · exact .inl inside

variable (address : GraphAddress)

theorem modified_ids (change : Graph → Graph) (script : Script) :
    (script.modifyGraph address change).variableIds = script.variableIds ∧
      (script.modifyGraph address change).functionIds = script.functionIds := by
  cases address with
  | event index | interface index => exact ⟨rfl, rfl⟩
  | function guid =>
    unfold modifyGraph
    dsimp only
    split
    · next index _ => exact ⟨rfl, modify_layout Function.guid index (·.mapGraph change) script.functions fun _ => rfl⟩
    · exact ⟨rfl, rfl⟩

theorem graph_listed (script : Script) (found : script.graph? address = some graph) :
    graph ∈ script.graphs := by
  unfold graph? at found
  simp only [graphs, List.mem_append]
  cases address with
  | event =>
    obtain ⟨event, there, rfl⟩ := Option.map_eq_some_iff.mp found
    exact .inl (.inl (List.mem_map_of_mem (List.mem_of_getElem? there)))
  | interface =>
    obtain ⟨function, there, rfl⟩ := Option.map_eq_some_iff.mp found
    exact .inl (.inr (List.mem_map_of_mem (List.mem_of_getElem? there)))
  | function guid =>
    obtain ⟨function, there, rfl⟩ := Option.map_eq_some_iff.mp found
    exact .inr (List.mem_map_of_mem (List.mem_of_find?_eq_some there))

theorem paste_refers (text : String) (offset : Position) (refers : script.Refers) :
    ((Change.pasteNodes address text offset).apply script).Refers := by
  obtain same | ⟨graph, indices, pasted, found, edited, changed⟩ := paste_nodes_cases address text offset script
  · rwa [same]
  · rw [changed]
    obtain ⟨known, functions⟩ := modified_ids address (fun _ => pasted) script
    have kept : pasted = (Edit.pasteNodes script.vars script.functionIds text offset graph).2 := by
      unfold Graph.pasteNodes Edit.commit at edited
      split at edited <;> cases edited
      next answer => rw [answer]
    refine grown_refers refers (fun other inside => ?_) (known ▸ List.Subset.refl _) (functions ▸ List.Subset.refl _)
    obtain old | ⟨_, _, rfl⟩ := modified_graphs (fun _ => pasted) other inside
    · exact .inl old
    · rw [known, functions, kept]
      exact .inr (pasted_refers text offset (refers graph (graph_listed address script found)))

/-- The edits that this is about: variables and functions come and go, nodes are pasted, and the script is saved. -/
def Change.Admitted : Change → Prop
  | .addVariable _ | .removeVariable _ | .removeFunction _ | .pasteNodes _ _ _ | .save _ => True
  | .addFunction function => ∃ inputs outputs, function.body = Body.fresh inputs outputs
  | _ => False

theorem change_refers {change : Change} (admitted : change.Admitted) (refers : script.Refers) :
    (change.apply script).Refers := by
  cases change with
  | addVariable entry => exact add_variable_refers entry refers
  | addFunction =>
    obtain ⟨inputs, outputs, fresh⟩ := admitted
    exact add_function_refers fresh refers
  | removeVariable guid =>
    obtain same | ⟨index, changed⟩ := remove_variable_cases guid script
    · rwa [same]
    · rw [changed]
      exact convert_refers _
  | removeFunction guid =>
    obtain same | ⟨index, changed⟩ := remove_function_cases guid script
    · rwa [same]
    · rw [changed]
      exact convert_refers _
  | pasteNodes address text offset => exact paste_refers address text offset refers
  | save => exact convert_refers _
  | addEventGraph | includeInterface | setParameters | rebuildFunction | modifyGraph | convertReferences | compileAll =>
    exact admitted.elim

end Script

/-! To start and to stop a script, to compile it and to run it leaves all names alone. -/

namespace World

variable {ε : Type}

theorem unsubscribe_graph (graph : EventGraph) (world : World ε) : (world.unsubscribe graph).1.graph = graph.graph := by
  unfold unsubscribe
  split <;> rfl

theorem unsubscribe_all_graphs (graphs : List EventGraph) (world : World ε) :
    (unsubscribeAll graphs world).1.map (·.graph) = graphs.map (·.graph) := by
  induction graphs generalizing world with
  | nil => rfl
  | cons graph rest ih => simp only [unsubscribeAll, List.map_cons, unsubscribe_graph, ih]

theorem subscribe_graph (script entity : Nat) (graph : EventGraph) (world : World ε) :
    (world.subscribe script entity graph).2.1.graph = graph.graph := by
  unfold subscribe
  split
  · rfl
  · split
    · rfl
    · exact unsubscribe_graph graph world

theorem subscribe_all_graphs (script entity : Nat) (graphs : List EventGraph) (world : World ε) :
    (world.subscribeAll script entity graphs).2.1.map (·.graph) = graphs.map (·.graph) := by
  induction graphs generalizing world with
  | nil => rfl
  | cons graph rest ih =>
    have first := subscribe_graph script entity graph world
    unfold subscribeAll
    split <;> next outcome =>
      rw [outcome] at first
      dsimp only at first
      simp [first, ih]

theorem detach_names (script : Script) (world : World ε) : (world.detach script).1.names = script.names := by
  simp only [Script.names, Script.graphs, detach, unsubscribe_all_graphs]
  rfl

end World

theorem compile_naming (graph : Graph) : graph.compile.2.naming = graph.naming := by
  have locals : graph.compile.2.locals = graph.locals := by
    unfold Graph.compile
    dsimp only
    split <;> rfl
  simp only [Graph.naming, compile_kinds, locals]

theorem wiped_naming (graph : Graph) : graph.wiped.naming = graph.naming := by
  simp only [Graph.naming, Graph.wiped, List.map_map, Function.comp_def, Node.withProgress]

namespace Script

theorem names_of_parts (script after : Script) (known : after.variableIds = script.variableIds)
    (events : after.eventGraphs.map (·.graph.naming) = script.eventGraphs.map (·.graph.naming))
    (interfaces : after.interfaceFunctions.map (·.body.graph.naming) = script.interfaceFunctions.map (·.body.graph.naming))
    (functions : after.functions.map (fun function => (function.guid, function.body.graph.naming)) =
      script.functions.map fun function => (function.guid, function.body.graph.naming)) : after.names = script.names := by
  have guids := congrArg (List.map Prod.fst) functions
  have bodies := congrArg (List.map Prod.snd) functions
  simp only [List.map_map, Function.comp_def] at guids bodies
  simp only [names, graphs, functionIds, List.map_append, List.map_map, Function.comp_def, known, events, interfaces, guids,
    bodies]

theorem compile_all_names (script : Script) : script.compileAll.2.names = script.names := by
  obtain ⟨_, _, _, same, events, interfaces, functions⟩ := compile_all_parts (·.graph.naming) (·.body.graph.naming)
    (fun function => (function.guid, function.body.graph.naming)) (fun event => compile_naming event.graph)
    (fun function => compile_naming function.body.graph)
    (fun function => congrArg (Prod.mk function.guid) (compile_naming function.body.graph)) script
  rw [same]
  exact names_of_parts script _ rfl events interfaces functions

theorem wiped_names (script : Script) : script.wiped.names = script.names := by
  refine names_of_parts script script.wiped rfl ?_ ?_ ?_
  all_goals
    simp only [wiped, mapGraphs, EventGraph.mapGraph, InterfaceFunction.mapGraph, Function.mapGraph, Body.mapGraph,
      List.map_map, Function.comp_def, wiped_naming]

theorem unedited_names {script after : Script} (unedited : Unedited script after) : after.names = script.names := by
  have known : after.variableIds = script.variableIds := by
    have guids := congrArg (List.map Variable.guid) unedited.vars
    rw [List.map_map, List.map_map] at guids
    exact guids
  have rest := congrArg names unedited.rest
  rw [wiped_names, wiped_names] at rest
  have graphs : after.graphs.map (·.naming) = script.graphs.map (·.naming) := congrArg Prod.fst rest
  have functions : after.functionIds = script.functionIds := congrArg (·.2.2) rest
  simp only [names, graphs, known, functions]

theorem execute_names (services : Services σ) (script : Script) (world : σ) (invocation : Invocation) :
    (script.execute services world invocation).2.1.names = script.names := by
  cases invocation with
  | event index arguments => exact unedited_names (run_event_unedited services index arguments script world)
  | function guid arguments => exact unedited_names (call_unedited services guid arguments script world)
  | interface interface name arguments =>
    exact unedited_names (call_interface_unedited services interface name arguments script world)

theorem attach_names {ε : Type} (index entity : Nat) (limits : Limits) (script : Script) (world : World ε) :
    (world.attach index entity limits script).2.1.names = script.names := by
  have subscribed : (world.bound index entity script).2.1.names = script.names := by
    rw [← World.detach_names script world]
    refine names_of_parts (world.detach script).1 _ rfl ?_ rfl rfl
    have naming := congrArg (List.map Graph.naming) (World.subscribe_all_graphs index entity (world.detach script).1.eventGraphs
      (world.detach script).2)
    rw [List.map_map, List.map_map] at naming
    exact naming
  have compiles := (compile_all_names (world.bound index entity script).2.1).trans subscribed
  obtain ⟨cause, _, refused⟩ | ⟨cause, final, _, compiled, refused⟩ | ⟨final, _, compiled, started⟩ :=
    World.attach_cases index entity limits script world
  · rw [refused]
    exact (World.detach_names _ _).trans subscribed
  · rw [compiled] at compiles
    rw [refused]
    exact (World.detach_names final _).trans compiles
  · rw [compiled] at compiles
    rw [started]
    exact compiles

def Use.Admitted : Use → Prop
  | .edit change => change.Admitted
  | .start _ _ _ _ | .stop _ | .execute _ _ _ => True

theorem use_refers {script : Script} {use : Use} (admitted : use.Admitted) (refers : script.Refers) :
    (use.apply script).Refers := by
  cases use with
  | start world index entity limits => exact refers_of_names (attach_names index entity limits script world) refers
  | stop world => exact refers_of_names (World.detach_names script world) refers
  | edit => exact change_refers admitted refers
  | execute services world invocation =>
    exact refers_of_names (execute_names services script world invocation) refers

theorem history_refers (history : List Use) (admitted : ∀ use ∈ history, use.Admitted) (script : Script)
    (refers : script.Refers) : (history.foldl Use.apply script).Refers := by
  induction history generalizing script with
  | nil => exact refers
  | cons use rest ih =>
    obtain ⟨first, later⟩ := List.forall_mem_cons.mp admitted
    exact ih later _ (use_refers first refers)

end Script

def Job.naming (job : Job) : Naming := ⟨job.locals.map (·.guid), job.nodes.map (·.kind)⟩

/-- What a part of an execution goes by: the nodes that it runs, or the function that it calls. -/
def Stage.Refers (globals functions : List Guid) : Stage σ → Prop
  | .activates _ job _ _ _ _ | .reads _ job _ _ _ | .follows _ job _ _ _ _ => job.naming.Refers globals functions
  | .calls _ guid _ _ => guid ∈ functions
  | .enters _ _ body _ => body.graph.naming.Refers globals functions
  | .runs _ _ _ graph _ => graph.naming.Refers globals functions

variable {outer inner part : Stage σ} {opened calls : List ActiveCall} {limits : Limits} {functions : List Function}
  {env : Env σ} {guid : Guid} {place : Nat} {callee : Function} {script : Script} {host : Host σ}
  {cause : ScriptError}

theorem set_off_known (host : Host σ) (leads : SetsOff host outer opened inner) :
    inner.env.vars.map (·.guid) = outer.env.vars.map (·.guid) := by
  obtain ⟨_, kept⟩ | ⟨guid, place, _, _, _, _, _, _, without⟩ := (unset_stable host).set_off leads
  · have guids := congrArg (List.map Variable.guid) kept
    rw [List.map_map, List.map_map] at guids
    exact guids
  · rw [without]
    rfl

theorem callee_origin (inside : InCalls limits functions calls env) (idle : guid ∉ env.callStack)
    (found : env.functions.findIdx? (·.guid == guid) = some place) (there : env.functions[place]? = some callee) :
    guid = Guid.zero ∧ callee = Function.placeholder ∨
      ∃ function ∈ functions, function.guid = guid ∧ function.wiped = callee.wiped := by
  rcases inside.lookup idle found with ⟨zero, empty⟩ | ⟨free, first⟩
  · obtain ⟨call, member, rfl⟩ := List.mem_map.mp empty
    exact .inl ⟨zero, Option.some.inj (there.symm.trans (inside.taken call member))⟩
  · have same := inside.others place free
    rw [there] at same
    obtain ⟨function, listed, alike⟩ := Option.map_eq_some_iff.mp same.symm
    have named := ((first_place_iff functions guid place).mp first).1
    rw [listed] at named
    exact .inr ⟨function, List.mem_of_getElem? listed, Option.some.inj named, alike⟩

theorem callee_refers (refers : script.Refers)
    (inside : InCalls limits script.functions calls env) (idle : guid ∉ env.callStack)
    (found : env.functions.findIdx? (·.guid == guid) = some place)
    (there : env.functions[place]? = some callee) :
    callee.body.graph.naming.Refers script.variableIds script.functionIds := by
  rcases callee_origin inside idle found there with
    ⟨_, rfl⟩ | ⟨function, listed, _, alike⟩
  · exact Script.fresh_body_refers [] [] _ _
  · have naming : callee.body.graph.naming = function.body.graph.naming := by
      rw [← wiped_naming callee.body.graph, ← wiped_naming function.body.graph]
      exact congrArg (fun function : Function => function.body.graph.naming) alike.symm
    rw [naming]
    exact refers _ (List.mem_append_right _ (List.mem_map_of_mem listed))

theorem set_off_refers (refers : script.Refers) (leads : SetsOff host outer opened inner)
    (inside : InCalls host.limits script.functions calls outer.env)
    (sound : outer.Refers script.variableIds script.functionIds) : inner.Refers script.variableIds script.functionIds := by
  cases leads with
  | reads | pulls | next | visits | goes | enters => exact sound
  | calls level job index activation depth run ready env node inputs function counted found gathered kind =>
    exact (sound node.kind (List.mem_map_of_mem (List.mem_of_getElem? found))).called function kind
  | takes level guid arguments env place callee idle shallow found there =>
    exact callee_refers refers inside idle found there
  | begins level start arguments graph ready env inside prepared =>
    obtain ⟨size, _, rfl⟩ := prepare_ok prepared
    exact sound

/-- What every part of an execution of a script finds, whatever was run before it. -/
structure Sound (host : Host σ) (script : Script) (calls : List ActiveCall) (part : Stage σ) : Prop where
  calls : InCalls host.limits script.functions calls part.env
  known : part.env.vars.map (·.guid) = script.variableIds
  refers : part.Refers script.variableIds script.functionIds

theorem within_sound (refers : script.Refers) {world : σ} {whole : Stage σ}
    (begins : whole.env = script.env world) (named : whole.Refers script.variableIds script.functionIds)
    (within : Within host whole calls part) : Sound host script calls part := by
  induction within with
  | whole =>
    refine ⟨?_, by rw [begins]; rfl, named⟩
    rw [begins]
    exact .start (script.env world) rfl
  | part calls opened outer inner _ leads ih =>
    exact ⟨.set_off leads ih.calls, (set_off_known host leads).trans ih.known,
      set_off_refers refers leads ih.calls ih.refers⟩

theorem listed_found (inside : InCalls limits functions calls env) (listed : guid ∈ functions.map (·.guid))
    (idle : guid ∉ env.callStack) : env.functions.findIdx? (·.guid == guid) ≠ none := by
  -- A function that is not active is where it was, so that the call of a listed function finds one.
  intro absent
  obtain ⟨function, member, named⟩ := List.mem_map.mp listed
  obtain ⟨place, there⟩ := List.mem_iff_getElem?.mp member
  have here : (functions[place]?).map (·.guid) = some guid := by rw [there, Option.map_some, named]
  have free : place ∉ calls.map (·.place) := fun empty => idle (inside.active_at empty here)
  obtain ⟨found, stands, same⟩ := Option.map_eq_some_iff.mp ((inside.guid_at free).trans here)
  have other := List.findIdx?_eq_none_iff.mp absent found (List.mem_of_getElem? stands)
  simp [same] at other

def ScriptError.isLookup : ScriptError → Bool
  | .variableNotFound _ | .functionNotFound _ => true
  | _ => false

theorem own_found (own : cause.isOwn = true) : cause.isLookup = false := by
  cases cause <;> first | rfl | cases own

theorem sound_raises
    (sound : Sound host script calls part) (raises : Raises host cause part) : cause.isLookup = false := by
  cases raises with
  | limit _ _ limit => cases cause <;> first | rfl | cases limit
  | own _ _ own => exact own_found own
  | reenters => rfl
  | missing level guid arguments env idle absent =>
    exact absurd absent (listed_found sound.calls sound.refers idle)
  | unresolved level job index activation depth run ready env node inputs reference counted found gathered refers lost =>
    obtain ⟨guid, listed, rfl⟩ := (sound.refers node.kind (List.mem_map_of_mem (List.mem_of_getElem? found))).named reference refers
    -- Up to the activation of the node its inputs are read, which leaves the variables in place.
    have gathers := set_off_known host (.reads level job index activation depth run env node counted found)
    have read := (unset_stable host).gather host.limits job (pullAt host level job depth) depth node.inputs
      ((run.withEnv env).note (.began ⟨env.callStack, index, activation⟩))
      (fun source run => (unset_stable host).activate level job source .pulled (depth + 1) run)
    rw [gathered] at read
    have kept := congrArg (List.map Variable.guid) read
    rw [List.map_map, List.map_map] at kept
    have known : ready.env.vars.map (·.guid) = script.variableIds := (Eq.trans kept gathers).trans sound.known
    refine absurd lost (Reference.live_resolves job.locals ready.env.vars guid ?_)
    rw [known]
    exact listed

namespace Script

/-- The invocation itself asks for what the script does not have. -/
inductive Unknown (script : Script) : Invocation → MissingFunction → Prop where
  | function (guid : Guid) (arguments : List Value) (absent : guid ∉ script.functionIds) :
      Unknown script (.function guid arguments) (.byGuid guid)
  | interface (interface name : String) (arguments : List Value) (absent : script.provides interface name = false) :
      Unknown script (.interface interface name arguments) (.ofInterface interface name)

variable {script : Script} {world : σ} {cause : ScriptError}

theorem unlisted_call {host : Host σ} {guid : Guid} {arguments : List Value}
    (absent : guid ∉ script.functionIds) (failed : failureOf (callFunction host guid arguments (script.env world)).1 = some cause)
    (lookup : cause.isLookup = true) : cause = .functionNotFound (.byGuid guid) := by
  have nowhere : (script.env world).functions.findIdx? (·.guid == guid) = none := by
    refine List.findIdx?_eq_none_iff.mpr fun function inside => ?_
    refine beq_false_of_ne fun same => absent ?_
    exact List.mem_map.mpr ⟨function, inside, same⟩
  unfold callFunction callFunctionWith at failed
  simp only [nowhere] at failed
  split at failed
  · cases failed
    cases lookup
  · split at failed
    · cases failed
      cases lookup
    · cases failed
      rfl

theorem execute_lookup {services : Services σ} (refers : script.Refers) {invocation : Invocation}
    (failed : (script.execute services world invocation).1 = .error cause) (lookup : cause.isLookup = true) :
    ∃ missing, cause = .functionNotFound missing ∧ script.Unknown invocation missing := by
  cases set : script.limits with
  | none =>
    rw [execute_without_limits services world invocation set] at failed
    cases failed
    cases lookup
  | some =>
    obtain ⟨host, hosted⟩ := host_limits services world set
    -- A part of the execution that fails like this would not be sound.
    have sound (whole : Stage σ) (begins : whole.env = script.env world)
        (named : whole.Refers script.variableIds script.functionIds) (failed : whole.failure host = some cause) : False := by
      obtain ⟨calls, part, within, raises⟩ := failure_raised failed
      have found := sound_raises (within_sound refers begins named within) raises
      exact Bool.false_ne_true (found.symm.trans lookup)
    obtain ⟨whole, begins, failed⟩ | misses := execute_failure hosted failed
    · cases begins with
      | event index arguments event found =>
        have listed : event.graph ∈ script.graphs := graph_listed (.event index) script (by rw [graph?, found]; rfl)
        exact (sound (.runs _ receiveNode arguments event.graph (script.env world)) rfl (refers event.graph listed) failed).elim
      | function guid arguments =>
        by_cases listed : guid ∈ script.functionIds
        · exact (sound (.calls _ guid arguments (script.env world)) rfl listed failed).elim
        · exact ⟨.byGuid guid, unlisted_call listed failed lookup, .function guid arguments listed⟩
      | interface interface name arguments function member =>
        have listed : function.body.graph ∈ script.graphs :=
          List.mem_append_left _ (List.mem_append_right _ (List.mem_map_of_mem member))
        exact (sound (.enters _ arguments function.body (script.env world)) rfl (refers _ listed) failed).elim
    · cases misses with
      | graph => cases lookup
      | event _ _ _ own => exact absurd lookup (Bool.eq_false_iff.mp (own_found own))
      | function interface name arguments absent => exact ⟨_, rfl, .interface interface name arguments absent⟩

/-- Every reference of a loaded script has something to refer to, and keeps it while variables and functions come and go,
nodes are pasted from any text, and the script is saved, started, stopped and run. So no execution misses a variable, and a
function only if it was called from outside and is not there. -/
theorem references_stay_sound (text : String) (script : Script) (loaded : Script.load text = .ok script) (history : List Use)
    (admitted : ∀ use ∈ history, use.Admitted) :
    let current := history.foldl Use.apply script
    current.Refers ∧ ∀ {σ : Type} (services : Services σ) (world : σ) (invocation : Invocation),
      (∀ reference, (current.execute services world invocation).1 ≠ .error (.variableNotFound reference)) ∧
      ∀ missing, (current.execute services world invocation).1 = .error (.functionNotFound missing) →
        current.Unknown invocation missing := by
  intro current
  have refers : current.Refers := history_refers history admitted script (loaded_refers loaded)
  refine ⟨refers, fun services world invocation => ⟨fun reference failed => ?_, fun missing failed => ?_⟩⟩
  · obtain ⟨missing, same, _⟩ := execute_lookup refers failed rfl
    cases same
  · obtain ⟨other, same, unknown⟩ := execute_lookup refers failed rfl
    cases same
    exact unknown

def relaying : Script :=
  let level : Variable := ⟨⟨2⟩, "level", .int, .int 4⟩
  let fresh := (Body.fresh [] []).graph
  let nodes := fresh.nodes ++ [Node.setVariable level, Node.callFunction ⟨1⟩ "Pass" [] []]
  { Script.empty "Relay" with
    vars := [level]
    functions := [passing, ⟨⟨5⟩, "Relay", ⟨{ fresh with nodes := nodes }, [], []⟩⟩] }

theorem relaying_loads : ∃ text, Script.load text = .ok relaying.save.2.reset := by
  obtain ⟨text, _, loaded⟩ := relaying.legible_reload (by decide +kernel) (by decide +kernel) (by decide +kernel)
  exact ⟨text, loaded⟩

/-- The call goes with the function that it named, and the setter stays. -/
theorem relaying_stays_sound :
    ∃ text script, Script.load text = .ok script ∧
      let history : List Use := [.edit (.removeFunction ⟨1⟩), .start plaza 0 0 .default,
        .execute (World.services Catalog.empty) plaza (.function ⟨5⟩ [])]
      let current := history.foldl Use.apply script
      current.Refers ∧
        current.graphs.map (·.naming.kinds) = [[.functionEntry, .functionReturn, .setVariable (.live ⟨2⟩)]] ∧
        (current.execute (World.services Catalog.empty) plaza (.function ⟨1⟩ [])).1 =
          .error (.functionNotFound (.byGuid ⟨1⟩)) ∧
        current.Unknown (.function ⟨1⟩ []) (.byGuid ⟨1⟩) := by
  obtain ⟨text, loaded⟩ := relaying_loads
  obtain ⟨refers, sound⟩ := references_stay_sound text _ loaded [.edit (.removeFunction ⟨1⟩), .start plaza 0 0 .default,
    .execute (World.services Catalog.empty) plaza (.function ⟨5⟩ [])] (by simp [Use.Admitted, Change.Admitted])
  obtain ⟨_, listed⟩ := sound (World.services Catalog.empty) plaza (.function ⟨1⟩ [])
  exact ⟨text, _, loaded, refers, rfl, rfl, listed _ rfl⟩

end Script

end Patchbay
