import Patchbay.Proofs.InRange
import Patchbay.Proofs.Persistence

set_option autoImplicit false

namespace Patchbay

variable {σ : Type}

structure Graph.Ready (graph : Graph) : Prop where
  laid : graph.LaidOut
  rests : graph.AtRest

variable {graph : Graph} {env : Env σ} {body : Body} {script : Script} {α : Type} {record : Record} {name : String}
  {items : List α}

theorem ready_sound (ready : graph.Ready) : graph.Sound := ⟨fun _ => ready.laid, ready.rests⟩

theorem ready_of_wiped {a b : Graph} (same : a.wiped = b.wiped) (ready : a.Ready) (rests : b.AtRest) : b.Ready := by
  have locals : a.locals = b.locals := (congrArg Graph.locals same :)
  have size : a.size = b.size := (congrArg Graph.size same :)
  have layouts : a.layouts = b.layouts := by rw [← wiped_layouts, same, wiped_layouts]
  refine ⟨?_, rests⟩
  unfold Graph.LaidOut
  rw [← layouts, ← locals, ← size]
  exact ready.laid

variable (read : Document → Option α) (host : Host σ) (services : Services σ)

theorem run_with_ready (level start : Nat) (arguments : List Value) (env : Env σ)
    (ready : graph.Ready) : (graph.runWith host (activate host level) start arguments env).2.1.Ready :=
  ready_of_wiped (run_with_wiped host level start arguments graph env).symm ready
    (run_with_at_rest host _ start arguments graph env ready.rests)

def Env.Ready (env : Env σ) : Prop := ∀ function ∈ env.functions, function.body.graph.Ready

/-- The functions are ready again when a run is over, though some were taken out of the list meanwhile. -/
theorem env_ready {a b : Env σ} (ready : a.Ready) (same : a.functions.map Function.wiped = b.functions.map Function.wiped)
    (rests : a.AtRest → b.AtRest) : b.Ready := by
  intro function member
  have there : function.wiped ∈ a.functions.map Function.wiped := by
    rw [same]
    exact List.mem_map_of_mem member
  obtain ⟨old, inside, alike⟩ := List.mem_map.mp there
  have graphs : old.body.graph.wiped = function.body.graph.wiped := congrArg (·.body.graph) alike
  exact ready_of_wiped graphs (ready old inside) (rests (fun entry member => (ready entry member).rests) function member)

theorem run_env_ready (level start : Nat) (arguments : List Value) (graph : Graph)
    (ready : env.Ready) : (graph.runWith host (activate host level) start arguments env).2.2.Ready :=
  env_ready ready ((wiped_stable host).run_with _ ((wiped_stable host).activate level) start arguments graph env)
    ((at_rest_stable host).run_with _ ((at_rest_stable host).activate level) start arguments graph env)

theorem call_function_ready (level : Nat) (guid : Guid) (arguments : List Value) (ready : env.Ready) :
    (callAt host level guid arguments env).2.Ready :=
  env_ready ready ((wiped_stable host).call_function level ((wiped_stable host).activate level) guid arguments env)
    ((at_rest_stable host).call_function level ((at_rest_stable host).activate level) guid arguments env)

theorem call_body_ready (level : Nat) (arguments : List Value)
    (ready : body.graph.Ready) (calls : env.Ready) :
    (body.callWith (Graph.runWith host (activate host level) entryNode) arguments env).2.1.graph.Ready ∧
      (body.callWith (Graph.runWith host (activate host level) entryNode) arguments env).2.2.Ready := by
  have ran := run_with_ready host level entryNode arguments env ready
  have left := run_env_ready host level entryNode arguments body.graph calls
  unfold Body.callWith
  split
  · exact ⟨ready, calls⟩
  · split
    · exact ⟨ready, calls⟩
    · split <;> next outcome =>
        rw [outcome] at ran left
        exact ⟨ran, left⟩

structure Script.Ready (script : Script) : Prop where
  events : ∀ event ∈ script.eventGraphs, event.graph.Ready
  interfaces : ∀ function ∈ script.interfaceFunctions, function.body.graph.Ready
  functions : ∀ function ∈ script.functions, function.body.graph.Ready

theorem env_sound (ready : env.Ready) : env.Sound :=
  fun function member => ready_sound (ready function member)

theorem script_ready_iff (script : Script) : script.Ready ↔ ∀ graph ∈ script.graphs, graph.Ready := by
  constructor
  · rintro ⟨events, interfaces, functions⟩ graph member
    simp only [Script.graphs, List.mem_append, List.mem_map] at member
    obtain (⟨event, inside, rfl⟩ | ⟨function, inside, rfl⟩) | ⟨function, inside, rfl⟩ := member
    · exact events event inside
    · exact interfaces function inside
    · exact functions function inside
  · intro all
    refine ⟨fun event inside => all _ ?_, fun function inside => all _ ?_, fun function inside => all _ ?_⟩
    · exact List.mem_append_left _ (List.mem_append_left _ (List.mem_map_of_mem inside))
    · exact List.mem_append_left _ (List.mem_append_right _ (List.mem_map_of_mem inside))
    · exact List.mem_append_right _ (List.mem_map_of_mem inside)

structure Answered {α : Type} (strict : Option (Except ScriptError α × Script × σ)) (answer : Except ScriptError α × Script × σ) :
    Prop where
  same : strict = some answer
  ready : answer.2.1.Ready

theorem run_event_answered (index : Nat) (arguments : List Value)
    (ready : script.Ready) (world : σ) :
    Answered (Strict.runEventGraph services index arguments script world)
      (script.runEventGraph services index arguments world) := by
  unfold Strict.runEventGraph Script.runEventGraph
  cases script.host services world with
  | error => exact ⟨rfl, ready⟩
  | ok host =>
    dsimp only
    cases found : script.eventGraphs[index]? with
    | none => exact ⟨rfl, ready⟩
    | some event =>
      dsimp only
      cases event.event with
      | error => exact ⟨rfl, ready⟩
      | ok _ =>
        have own := ready.events event (List.mem_of_getElem? found)
        have calls : (script.env world).Ready := ready.functions
        dsimp only [Strict.run, Graph.run]
        rw [run_with_in_range (activate_in_range host _) receiveNode arguments (ready_sound own) (env_sound calls)]
        exact ⟨rfl, all_set script.eventGraphs (·.graph.Ready) index _ ready.events
            (run_with_ready host _ receiveNode arguments _ own), ready.interfaces,
          run_env_ready host _ receiveNode arguments event.graph calls⟩

theorem call_answered (guid : Guid) (arguments : List Value)
    (ready : script.Ready) (world : σ) :
    Answered (Strict.callScript services guid arguments script world) (script.call services guid arguments world) := by
  unfold Strict.callScript Script.call
  cases script.host services world with
  | error => exact ⟨rfl, ready⟩
  | ok host =>
    have calls : (script.env world).Ready := ready.functions
    dsimp only [Strict.callFunction, callFunction, Host.runner]
    rw [call_function_in_range (activate_in_range host _) guid arguments (env_sound calls)]
    exact ⟨rfl, ready.events, ready.interfaces, call_function_ready host _ guid arguments calls⟩

theorem call_interface_answered (interface name : String) (arguments : List Value)
    (ready : script.Ready) (world : σ) :
    Answered (Strict.callInterface services interface name arguments script world)
      (script.callInterface services interface name arguments world) := by
  unfold Strict.callInterface Script.callInterface
  cases script.host services world with
  | error => exact ⟨rfl, ready⟩
  | ok host =>
    dsimp only
    cases found : script.interfaceFunctions.findIdx? fun function =>
        function.interface == interface && function.name == name with
    | none => exact ⟨rfl, ready⟩
    | some index =>
      obtain ⟨there, _⟩ := List.findIdx?_eq_some_iff_getElem.mp found
      have own := ready.interfaces _ (List.getElem_mem there)
      have calls : (script.env world).Ready := ready.functions
      dsimp only [Strict.call, Body.call, Host.runner]
      rw [List.getElem?_eq_getElem there]
      dsimp only [bind, Option.bind]
      rw [call_with_in_range (activate_in_range host _) arguments (ready_sound own) (env_sound calls)]
      obtain ⟨body, left⟩ := call_body_ready host (host.limits.maxSteps + 1) arguments own calls
      exact ⟨rfl, ready.events, all_set script.interfaceFunctions (·.body.graph.Ready) index _ ready.interfaces body, left⟩

theorem execute_answered (ready : script.Ready) (world : σ) (invocation : Invocation) :
    Answered (Strict.execute services script world invocation) (script.execute services world invocation) := by
  cases invocation with
  | event index arguments =>
    obtain ⟨same, after⟩ := run_event_answered services index arguments ready world
    unfold Strict.execute
    dsimp only
    rw [same]
    exact ⟨rfl, after⟩
  | function guid arguments => exact call_answered services guid arguments ready world
  | interface interface name arguments => exact call_interface_answered services interface name arguments ready world

theorem items_read_each {documents : List Document} (items : List α)
    (found : documents.mapM read = some items) : ∀ item ∈ items, ∃ part, read part = some item := by
  induction documents generalizing items with
  | nil =>
    cases found
    exact fun item member => absurd member List.not_mem_nil
  | cons first rest ih =>
    simp only [List.mapM_cons, bind, Option.bind_eq_some_iff, pure, Option.some.injEq] at found
    obtain ⟨head, there, tail, others, rfl⟩ := found
    intro item member
    obtain rfl | later := List.mem_cons.mp member
    · exact ⟨first, there⟩
    · exact ih tail others item later

theorem listed_read (found : record.withDefault name [] (Document.list? read) = some items) :
    ∀ item ∈ items, ∃ part, read part = some item := by
  unfold Record.withDefault at found
  split at found
  · next document _ =>
      cases document with
      | array => exact items_read_each read items found
      | _ => cases found
  · cases found
    exact fun item member => absurd member List.not_mem_nil

theorem required_read {item : α}
    (found : record.required name read = some item) : ∃ part, read part = some item := by
  obtain ⟨part, _, there⟩ := Option.bind_eq_some_iff.mp found
  exact ⟨part, there⟩

theorem body_read (read : Body.ofRecord? record = some body) : body.graph.Initial := by
  unfold Body.ofRecord? at read
  simp only [bind, Option.bind_eq_some_iff, pure, Option.some.injEq] at read
  obtain ⟨graph, found, _, _, _, _, rfl⟩ := read
  obtain ⟨part, there⟩ := required_read _ found
  exact .stored .held part graph there

theorem script_read {document : Document} (read : Script.ofDocument? document = some script) :
    ∀ graph ∈ script.graphs, graph.Initial := by
  unfold Script.ofDocument? at read
  simp only [bind, Option.bind_eq_some_iff, pure, Option.some.injEq] at read
  obtain ⟨record, _, name, _, vars, _, events, eventsRead, interfaces, interfacesRead, functions, functionsRead, promised, _,
    rfl⟩ := read
  intro graph member
  simp only [Script.graphs, List.mem_append, List.mem_map] at member
  obtain (⟨event, inside, rfl⟩ | ⟨function, inside, rfl⟩) | ⟨function, inside, rfl⟩ := member
  · obtain ⟨part, there⟩ := listed_read _ eventsRead event inside
    unfold EventGraph.ofDocument? at there
    simp only [bind, Option.bind_eq_some_iff, pure, Option.some.injEq] at there
    obtain ⟨fields, _, _, _, graph, found, rfl⟩ := there
    obtain ⟨part, there⟩ := required_read _ found
    exact .stored .json part graph there
  · obtain ⟨part, there⟩ := listed_read _ interfacesRead function inside
    unfold InterfaceFunction.ofDocument? at there
    simp only [bind, Option.bind_eq_some_iff, pure, Option.some.injEq] at there
    obtain ⟨fields, _, _, _, _, _, body, found, rfl⟩ := there
    exact body_read found
  · obtain ⟨part, there⟩ := listed_read _ functionsRead function inside
    unfold Function.ofDocument? at there
    simp only [bind, Option.bind_eq_some_iff, pure, Option.some.injEq] at there
    obtain ⟨fields, _, _, _, _, _, body, found, rfl⟩ := there
    exact body_read found

theorem loaded_at_rest {text : String} (loaded : Script.load text = .ok script) :
    ∀ graph ∈ script.graphs, graph.AtRest := by
  unfold Script.load Script.loadWith at loaded
  split at loaded
  · next stored read =>
      obtain ⟨document, _, read⟩ := Option.bind_eq_some_iff.mp read
      cases loaded
      intro graph member
      rw [Script.convert_graphs] at member
      obtain ⟨old, inside, rfl⟩ := List.mem_map.mp member
      exact operation_at_rest old (.convertReferences stored.vars stored.functionIds .live)
        (initial_at_rest old (script_read read old inside))
  · cases loaded

theorem compile_graphs_ok (compile : α → Except ScriptError Unit × α) (done : List α)
    (compiles : Script.compileGraphs compile items = (.ok (), done)) :
    ∀ item ∈ done, ∃ old ∈ items, compile old = (.ok (), item) := by
  induction items generalizing done with
  | nil =>
    cases compiles
    exact fun item member => absurd member List.not_mem_nil
  | cons first rest ih =>
    unfold Script.compileGraphs at compiles
    split at compiles
    · cases compiles
    · next changed one =>
        obtain ⟨result, rfl⟩ := Prod.mk.inj compiles
        intro item member
        obtain rfl | later := List.mem_cons.mp member
        · exact ⟨first, List.mem_cons_self, one⟩
        · obtain ⟨old, inside, there⟩ := ih _ (Prod.ext result rfl) item later
          exact ⟨old, List.mem_cons_of_mem first inside, there⟩

theorem compile_ready {compiled : Graph} (rests : graph.AtRest) (compiles : graph.compile = (.ok (), compiled)) :
    compiled.Ready := by
  refine ⟨compile_laid_out graph compiled compiles, ?_⟩
  have points := compile_points graph
  rw [compiles] at points
  exact points.trans rests

theorem compile_all_ready {compiled : Script} (rests : ∀ graph ∈ script.graphs, graph.AtRest)
    (compiles : script.compileAll = (.ok (), compiled)) : compiled.Ready := by
  unfold Script.compileAll at compiles
  split at compiles
  · cases compiles
  · next events eventsDone =>
      dsimp only at compiles
      split at compiles
      · cases compiles
      · next interfaces interfacesDone =>
          obtain ⟨result, rfl⟩ := Prod.mk.inj compiles
          refine ⟨fun event member => ?_, fun function member => ?_, fun function member => ?_⟩
          · obtain ⟨old, inside, there⟩ := compile_graphs_ok Script.compileEvent events eventsDone event member
            obtain ⟨done, rfl⟩ := Prod.mk.inj there
            exact compile_ready (rests _ (List.mem_append_left _ (List.mem_append_left _
              (List.mem_map_of_mem inside)))) (Prod.ext done rfl)
          · obtain ⟨old, inside, there⟩ := compile_graphs_ok Script.compileInterface interfaces interfacesDone function member
            obtain ⟨done, rfl⟩ := Prod.mk.inj there
            exact compile_ready (rests _ (List.mem_append_left _ (List.mem_append_right _
              (List.mem_map_of_mem inside)))) (Prod.ext done rfl)
          · obtain ⟨old, inside, there⟩ := compile_graphs_ok Script.compileFunction _ (Prod.ext result rfl)
              function member
            obtain ⟨done, rfl⟩ := Prod.mk.inj there
            exact compile_ready (rests _ (List.mem_append_right _ (List.mem_map_of_mem inside))) (Prod.ext done rfl)

structure Execution (σ : Type) where
  services : Services σ
  world : σ
  owner : Option Nat
  limits : Limits
  invocation : Invocation

def Execution.started (execution : Execution σ) (script : Script) : Script :=
  { script with owner := execution.owner, limits := some execution.limits }

def Execution.after (script : Script) (execution : Execution σ) : Script :=
  ((execution.started script).execute execution.services execution.world execution.invocation).2.1

theorem history_ready (history : List (Execution σ)) (script : Script) (ready : script.Ready) :
    (history.foldl Execution.after script).Ready := by
  induction history generalizing script with
  | nil => exact ready
  | cons execution rest ih =>
    have started : (execution.started script).Ready := ⟨ready.events, ready.interfaces, ready.functions⟩
    exact ih _ (execute_answered execution.services started execution.world execution.invocation).ready

/-- A script that was loaded from any text and then compiled meets every invocation, after any others, with every index in
range: the machine that has no way out gives the same. -/
theorem executions_in_range (text : String) (script compiled : Script) (loaded : Script.load text = .ok script)
    (compiles : script.compileAll = (.ok (), compiled)) (history : List (Execution σ)) (execution : Execution σ) :
    let current := execution.started (history.foldl Execution.after compiled)
    (∀ graph ∈ current.graphs, graph.LaidOut) ∧
      Strict.execute execution.services current execution.world execution.invocation =
        some (current.execute execution.services execution.world execution.invocation) := by
  intro current
  have ready := history_ready history compiled (compile_all_ready (loaded_at_rest loaded) compiles)
  have started : current.Ready := ⟨ready.events, ready.interfaces, ready.functions⟩
  exact ⟨fun graph member => ((script_ready_iff current).mp started graph member).laid,
    (execute_answered execution.services started execution.world execution.invocation).same⟩

/-- A script that no edit leads to. The event comes to a setter that is fed by itself through a setting, then to a loop
without bounds that leads back to itself and is fed by an array of itself, and the function has no nodes. -/
def tampered : Script :=
  let level : Variable := ⟨⟨2⟩, "level", .int, .int 4⟩
  let leads (node : Nat) : ExecPin := ⟨"Then", some ⟨node, 0⟩, none⟩
  let fed (node output : Nat) : InputPin := { InputPin.setting "Value" .any .null with source := some ⟨node, output⟩ }
  let event := { Node.receiveEvent "tick" none [] with execOut := [leads 1] }
  let setter := { Node.setVariable level with inputs := [fed 1 0], execOut := [leads 2] }
  let loop := { Node.forLoop with inputs := [fed 3 0], execOut := [leads 2] }
  let ring := { Node.makeArray 0 with inputs := [fed 3 0] }
  { Script.empty "Tampered" with
    eventGraphs := [⟨⟨3⟩, { Graph.empty with nodes := [event, setter, loop, ring], locals := [level] }, none⟩]
    functions := [⟨⟨5⟩, "hollow", ⟨Graph.empty, [], []⟩⟩] }

def tamperedInvocation (invocation : Invocation) : Execution Unit :=
  ⟨⟨Catalog.empty, fun _ _ => none⟩, (), none, ⟨100, 4, 4⟩, invocation⟩

theorem tampered_loads : ∃ text, Script.load text = .ok tampered.save.2.reset := by
  obtain ⟨text, _, loaded⟩ := tampered.legible_reload (by decide +kernel) (by decide +kernel) (by decide +kernel)
  exact ⟨text, loaded⟩

theorem tampered_in_range :
    ∃ text script compiled, Script.load text = .ok script ∧ script.compileAll = (.ok (), compiled) ∧
      let execution := tamperedInvocation (.event 0 [])
      let current := execution.started ([tamperedInvocation (.function ⟨5⟩ []), execution].foldl Execution.after compiled)
      (current.execute execution.services () (.event 0 [])).1 = .error (.implicitDepthExceeded 4) ∧
        Strict.execute execution.services current () (.event 0 []) =
          some (current.execute execution.services () (.event 0 [])) := by
  obtain ⟨text, loaded⟩ := tampered_loads
  have compiles : tampered.save.2.reset.compileAll = (.ok (), tampered.save.2.reset.compileAll.2) := by
    have done : tampered.save.2.reset.compileAll.1 = .ok () := by decide +kernel
    exact Prod.ext done rfl
  have ranged := executions_in_range text _ _ loaded compiles
    [tamperedInvocation (.function ⟨5⟩ []), tamperedInvocation (.event 0 [])] (tamperedInvocation (.event 0 []))
  exact ⟨text, _, _, loaded, compiles, rfl, ranged.2⟩

end Patchbay
