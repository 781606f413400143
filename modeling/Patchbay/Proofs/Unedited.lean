import Patchbay.Proofs.Invocations

set_option autoImplicit false

namespace Patchbay

variable {σ : Type}

theorem map_written {α : Type} (write : α → Option Document) (change : α → α)
    (same : ∀ item, write (change item) = write item) (items : List α) : (items.map change).mapM write = items.mapM write := by
  induction items with
  | nil => rfl
  | cons item rest ih => simp only [List.map_cons, List.mapM_cons, same item, ih]

theorem InputPin.reset_written (pin : InputPin) : pin.reset.toDocument = pin.toDocument := rfl

theorem Node.reset_written (node : Node) : node.reset.toDocument? = node.toDocument? := by
  simp only [Node.toDocument?, Node.reset, Document.ofList, List.map_map, Function.comp_def, InputPin.reset_written]

theorem Graph.reset_written (graph : Graph) : graph.reset.toDocument? = graph.toDocument? := by
  unfold Graph.toDocument?
  rw [show graph.reset.nodes = graph.nodes.map Node.reset from rfl,
    map_written Node.toDocument? Node.reset Node.reset_written graph.nodes]
  rfl

theorem EventGraph.reset_written (event : EventGraph) : event.reset.toDocument? = event.toDocument? := by
  simp only [EventGraph.toDocument?, EventGraph.reset, EventGraph.mapGraph, Graph.reset_written]

theorem InterfaceFunction.reset_written (function : InterfaceFunction) :
    (function.mapGraph Graph.reset).toDocument? = function.toDocument? := by
  simp only [InterfaceFunction.toDocument?, InterfaceFunction.mapGraph, Body.entries?, Body.mapGraph, Graph.reset_written]

theorem Function.reset_written (function : Function) : (function.mapGraph Graph.reset).toDocument? = function.toDocument? := by
  simp only [Function.toDocument?, Function.mapGraph, Body.entries?, Body.mapGraph, Graph.reset_written]

namespace Script

theorem reset_written (script : Script) : script.reset.toDocument? = script.toDocument? := by
  have events := map_written _ _ EventGraph.reset_written script.eventGraphs
  have interfaces := map_written _ _ InterfaceFunction.reset_written script.interfaceFunctions
  have functions := map_written _ _ Function.reset_written script.functions
  simp only [toDocument?, reset, mapGraphs, events, interfaces, functions]

theorem reset_saved (write : Document → String) (script : Script) : (script.reset.saveWith write).1 =
    (script.saveWith write).1 := by
  simp only [saveWith, reset_convert, reset_written]

def wiped (script : Script) : Script := script.mapGraphs Graph.wiped

theorem wiped_reset (script : Script) : script.wiped.reset = script.reset := by
  have graphs (graph : Graph) : graph.wiped.reset = graph.reset := by
    simp only [Graph.wiped, Graph.reset, List.map_map]
    rfl
  simp only [reset, wiped, mapGraphs, InterfaceFunction.mapGraph, Function.mapGraph, Body.mapGraph, List.map_map,
    Function.comp_def, graphs, EventGraph.reset, EventGraph.mapGraph]
  rfl

theorem wiped_saved (write : Document → String) (a b : Script) (same : a.wiped = b.wiped) :
    (a.saveWith write).1 = (b.saveWith write).1 := by
  rw [← a.reset_saved, ← b.reset_saved, ← a.wiped_reset, ← b.wiped_reset, same]

end Script

def Variable.unset (entry : Variable) : Variable := { entry with value := .null }

variable (services : Services σ) (host : Host σ)

theorem unset_stable :
    EnvStable host (fun _ _ => True) fun a b => b.vars.map Variable.unset = a.vars.map Variable.unset where
  refl _ := rfl
  trans first second := second.trans first
  counted _ _ := rfl
  noted _ _ := rfl
  assigned env index _ := modify_layout Variable.unset index _ env.vars fun _ => rfl
  changed _ _ _ := rfl
  still _ := trivial
  ran _ _ _ _ := trivial
  called _ _ _ _ _ _ _ _ _ _ kept := kept

structure LeftOver (before after : Env σ) : Prop where
  vars : after.vars.map Variable.unset = before.vars.map Variable.unset
  functions : after.functions.map Function.wiped = before.functions.map Function.wiped

theorem run_left_over (start : Nat) (arguments : List Value) (graph : Graph) (env : Env σ) :
    LeftOver env (graph.run host start arguments env).2.2 :=
  ⟨(unset_stable host).run_with _ ((unset_stable host).activate (host.limits.maxSteps + 1)) start arguments graph env,
    ((wiped_stable host).run_with _ ((wiped_stable host).activate (host.limits.maxSteps + 1)) start arguments graph env).symm⟩

theorem call_left_over (guid : Guid) (arguments : List Value) (env : Env σ) :
    LeftOver env (callFunction host guid arguments env).2 :=
  ⟨(unset_stable host).call_function _ ((unset_stable host).activate (host.limits.maxSteps + 1)) guid arguments env,
    ((wiped_stable host).call_function _ ((wiped_stable host).activate (host.limits.maxSteps + 1)) guid arguments env).symm⟩

/-- The same script but for what runs may change: the values of its variables, and in its graphs the stacks, the return points
and how far the nodes are. With its variables as they were, it is saved in the same text. -/
structure Unedited (script after : Script) : Prop where
  vars : after.vars.map Variable.unset = script.vars.map Variable.unset
  rest : { after with vars := script.vars }.wiped = script.wiped
  compiled : after.graphs.map (fun graph => (graph.layouts, graph.size)) =
    script.graphs.map fun graph => (graph.layouts, graph.size)
  saved : ∀ write, ({ after with vars := script.vars }.saveWith write).1 = (script.saveWith write).1

theorem wiped_compiled (a b : Script) (same : a.wiped = b.wiped) :
    a.graphs.map (fun graph => (graph.layouts, graph.size)) = b.graphs.map fun graph => (graph.layouts, graph.size) := by
  have graphs : a.graphs.map Graph.wiped = b.graphs.map Graph.wiped := by
    rw [← a.graphs_map, ← b.graphs_map]
    exact congrArg Script.graphs same
  have views := congrArg (List.map fun graph => (graph.layouts, graph.size)) graphs
  simp only [List.map_map, Function.comp_def, wiped_layouts] at views
  exact views

theorem unedited_of_wiped (script after : Script) (vars : after.vars.map Variable.unset = script.vars.map Variable.unset)
    (rest : { after with vars := script.vars }.wiped = script.wiped) : Unedited script after :=
  ⟨vars, rest, wiped_compiled { after with vars := script.vars } script rest, fun write => Script.wiped_saved write _ _ rest⟩

theorem unedited_refl (script : Script) : Unedited script script := unedited_of_wiped script script rfl rfl

theorem body_left_over (arguments : List Value) (body : Body) (env : Env σ) :
    (body.call host arguments env).2.1.wiped = body.wiped ∧ LeftOver env (body.call host arguments env).2.2 := by
  obtain ⟨graph, ran, made, functions⟩ := (wiped_stable host).call_with (host.limits.maxSteps + 1)
    ((wiped_stable host).activate _) arguments body env
  obtain ⟨_, _, _, vars⟩ := (unset_stable host).call_with (host.limits.maxSteps + 1) ((unset_stable host).activate _) arguments
    body env
  have wiped : (body.call host arguments env).2.1.wiped = body.wiped := by
    have same := congrArg Body.wiped made
    simp only [Body.wiped, ← ran] at same
    exact same
  exact ⟨wiped, vars, functions.symm⟩

theorem set_viewed {α β : Type} (view : α → β) {list : List α} {index : Nat} {old : α} (new : α) (there : list[index]? = some old)
    (same : view new = view old) : (list.set index new).map view = list.map view := by
  obtain ⟨inside, rfl⟩ := List.getElem?_eq_some_iff.mp there
  rw [List.map_set, same, ← List.map_set, List.set_getElem_self]

theorem unedited_absorbed {script : Script} {world : σ} {env : Env σ} (left : LeftOver (script.env world) env)
    {events : List EventGraph} {interfaces : List InterfaceFunction}
    (sameEvents : events.map (·.mapGraph Graph.wiped) = script.eventGraphs.map (·.mapGraph Graph.wiped))
    (sameInterfaces : interfaces.map (·.mapGraph Graph.wiped) = script.interfaceFunctions.map (·.mapGraph Graph.wiped)) :
    Unedited script { script.absorb env with eventGraphs := events, interfaceFunctions := interfaces } := by
  have functions : env.functions.map (·.mapGraph Graph.wiped) = script.functions.map (·.mapGraph Graph.wiped) := left.functions
  refine unedited_of_wiped script _ left.vars ?_
  simp only [Script.wiped, Script.mapGraphs, Script.absorb, sameEvents, sameInterfaces, functions]

theorem run_event_unedited (index : Nat) (arguments : List Value) (script : Script) (world : σ) :
    Unedited script (script.runEventGraph services index arguments world).2.1 := by
  unfold Script.runEventGraph
  cases script.host services world with
  | error => exact unedited_refl script
  | ok host =>
    dsimp only
    cases found : script.eventGraphs[index]? with
    | none => exact unedited_refl script
    | some event =>
      dsimp only
      cases event.event with
      | error => exact unedited_refl script
      | ok _ =>
        have ran := run_with_wiped host (host.limits.maxSteps + 1) receiveNode arguments event.graph (script.env world)
        refine unedited_absorbed (run_left_over host receiveNode arguments event.graph _) ?_ rfl
        refine set_viewed (·.mapGraph Graph.wiped) _ found ?_
        exact congrArg (fun graph => ({ event with graph := graph } : EventGraph)) ran

theorem call_unedited (guid : Guid) (arguments : List Value) (script : Script) (world : σ) :
    Unedited script (script.call services guid arguments world).2.1 := by
  unfold Script.call
  cases script.host services world with
  | error => exact unedited_refl script
  | ok host => exact unedited_absorbed (call_left_over host guid arguments _) rfl rfl

theorem call_interface_unedited (interface name : String) (arguments : List Value) (script : Script)
    (world : σ) : Unedited script (script.callInterface services interface name arguments world).2.1 := by
  unfold Script.callInterface
  cases script.host services world with
  | error => exact unedited_refl script
  | ok host =>
    dsimp only
    split
    · exact unedited_refl script
    · next index _ =>
        split
        · exact unedited_refl script
        · next function found =>
            obtain ⟨ran, left⟩ := body_left_over host arguments function.body (script.env world)
            refine unedited_absorbed left rfl ?_
            refine set_viewed (·.mapGraph Graph.wiped) _ found ?_
            exact congrArg (fun body => ({ function with body := body } : InterfaceFunction)) ran

/-- However a script is made to run, and however the run ends, nothing of the script changes that is saved or compiled but the
values of its variables. -/
theorem running_never_edits (services : Services σ) (script : Script) (world : σ) (arguments : List Value) :
    (∀ index, Unedited script (script.runEventGraph services index arguments world).2.1) ∧
    (∀ guid, Unedited script (script.runEventGraphOf services guid arguments world).2.1) ∧
    (∀ guid, Unedited script (script.call services guid arguments world).2.1) ∧
    (∀ name, Unedited script (script.callByName services name arguments world).2.1) ∧
    (∀ interface name, Unedited script (script.callInterface services interface name arguments world).2.1) := by
  refine ⟨fun index => run_event_unedited services index arguments script world, fun guid => ?_,
    fun guid => call_unedited services guid arguments script world, fun name => ?_,
    fun interface name => call_interface_unedited services interface name arguments script world⟩
  · unfold Script.runEventGraphOf
    split
    · exact unedited_refl script
    · exact run_event_unedited services _ arguments script world
  · unfold Script.callByName
    split
    · exact unedited_refl script
    · exact call_unedited services _ arguments script world

/-- An event that calls a function, which sets a variable and then calls itself. -/
def selfCalling : Script :=
  let level : Variable := ⟨⟨1⟩, "level", .int, .int 3⟩
  let call := Operation.addNode (Node.callFunction ⟨2⟩ "Trip" [] [])
  let event := [call, .connectExec 0 0 1 0, .compile].foldl Operation.apply
    { Graph.empty with nodes := [Node.receiveEvent "tick" none []] }
  let body := [.addNode (Node.setVariable level), call, .setLiteral 2 0 (.int 5), .connectExec 0 0 2 0, .connectExec 2 0 3 0,
    .compile].foldl Operation.apply (Body.fresh [] []).graph
  { Script.empty "Self-calling" with
    vars := [level]
    eventGraphs := [⟨⟨3⟩, event, none⟩]
    functions := [⟨⟨2⟩, "Trip", ⟨body, [], []⟩⟩]
    limits := some ⟨100, 10, 10⟩ }

/-- The run fails inside the function, after the variable was set. The function is back in its place, with what the run left
on its stack, and with the old value the script is saved in the old text. -/
theorem self_calling_unedited :
    let after := selfCalling.runEventGraph ⟨Catalog.empty, fun _ _ => none⟩ 0 [] ()
    after.1 = .error (.recursiveCall ⟨2⟩) ∧ after.2.1.vars.map (·.value) = [.int 5] ∧
      after.2.1.functions.map (·.body.graph.stack) = [[.int 5]] ∧
      { after.2.1 with vars := selfCalling.vars }.save.1 = selfCalling.save.1 := by
  obtain ⟨unedited, _⟩ := running_never_edits ⟨Catalog.empty, fun _ _ => none⟩ selfCalling () []
  exact ⟨by decide +kernel, rfl, rfl, (unedited 0).saved Document.pretty⟩

end Patchbay
