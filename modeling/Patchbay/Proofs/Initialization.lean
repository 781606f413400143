import Patchbay.Clipboard
import Patchbay.Proofs.Stages
import Patchbay.Proofs.Strict
import Patchbay.Proofs.Subscriptions
import Patchbay.Storage.Script

set_option autoImplicit false

namespace Patchbay

variable {σ : Type}

namespace Script

inductive Initial : Script → Prop where
  | empty (name : String) : Initial (Script.empty name)
  | loaded (text : String) (script : Script) (loaded : Script.load text = .ok script) : Initial script

/-- The edits of a script. `modifyGraph` stands for any edit of one of its graphs. -/
inductive Change where
  | addVariable (entry : Variable)
  | removeVariable (guid : Guid)
  | addFunction (function : Function)
  | removeFunction (guid : Guid)
  | addEventGraph (graph : EventGraph)
  | includeInterface (definition : InterfaceDefinition)
  | setParameters (guid : Guid) (inputs outputs : Option (List Parameter))
  | rebuildFunction (guid : Guid)
  | modifyGraph (address : GraphAddress) (change : Graph → Graph)
  | pasteNodes (address : GraphAddress) (text : String) (offset : Position)
  | convertReferences (form : ReferenceForm)
  | save (write : Document → String)
  | compileAll

def Change.apply (script : Script) : Change → Script
  | .addVariable entry => script.addVariable entry
  | .removeVariable guid => ((script.removeVariable guid).map (·.2)).getD script
  | .addFunction function => script.addFunction function
  | .removeFunction guid => ((script.removeFunction guid).map (·.2)).getD script
  | .addEventGraph graph => script.addEventGraph graph
  | .includeInterface definition => (script.includeInterface definition).1
  | .setParameters guid inputs outputs => script.setParameters guid inputs outputs
  | .rebuildFunction guid => ((script.rebuildFunction guid).toOption.map (·.2)).getD script
  | .modifyGraph address change => script.modifyGraph address change
  | .pasteNodes address text offset => ((script.pasteNodes address text offset).toOption.map (·.2)).getD script
  | .convertReferences form => (script.convertReferences form).1
  | .save write => (script.saveWith write).2
  | .compileAll => script.compileAll.2

inductive Use : Type 1 where
  | start {ε : Type} (world : World ε) (index entity : Nat) (limits : Limits)
  | stop {ε : Type} (world : World ε)
  | edit (change : Change)
  | execute {σ : Type} (services : Services σ) (world : σ) (invocation : Invocation)

def Use.apply (script : Script) : Use → Script
  | .start world index entity limits => (world.attach index entity limits script).2.1
  | .stop world => (world.detach script).1
  | .edit change => change.apply script
  | .execute services world invocation => (script.execute services world invocation).2.1

def runtime (script : Script) : Option Nat × Option Limits := (script.owner, script.limits)

variable (guid : Guid)

theorem remove_variable_cases (script : Script) :
    (Change.removeVariable guid).apply script = script ∨ ∃ index, (Change.removeVariable guid).apply script =
      ({ script with vars := script.vars.eraseIdx index }.convertReferences .live).1 := by
  dsimp only [Change.apply, removeVariable]
  split
  · exact .inl rfl
  · next index _ =>
      split
      · exact .inl rfl
      · exact .inr ⟨index, rfl⟩

theorem remove_function_cases (script : Script) :
    (Change.removeFunction guid).apply script = script ∨ ∃ index, (Change.removeFunction guid).apply script =
      ({ script with functions := script.functions.eraseIdx index }.convertReferences .live).1 := by
  dsimp only [Change.apply, removeFunction]
  split
  · exact .inl rfl
  · next index _ =>
      split
      · exact .inl rfl
      · exact .inr ⟨index, rfl⟩

theorem rebuild_function_cases (script : Script) :
    (Change.rebuildFunction guid).apply script = script ∨ ∃ index function change,
      (Change.rebuildFunction guid).apply script =
        { script with functions := script.functions.set index function }.mapGraphs change := by
  dsimp only [Change.apply, rebuildFunction]
  split
  · exact .inl rfl
  · next index _ =>
      split
      · exact .inl rfl
      · next function _ =>
          cases function.rebuild with
          | error => exact .inl rfl
          | ok answer => exact .inr ⟨index, answer.2, _, rfl⟩

theorem paste_nodes_cases (address : GraphAddress) (text : String) (offset : Position) (script : Script) :
    (Change.pasteNodes address text offset).apply script = script ∨ ∃ graph indices pasted,
      script.graph? address = some graph ∧
      graph.pasteNodes script.vars script.functionIds text offset = .ok (indices, pasted) ∧
      (Change.pasteNodes address text offset).apply script = script.modifyGraph address fun _ => pasted := by
  dsimp only [Change.apply, pasteNodes]
  split
  · exact .inl rfl
  · next graph found =>
      cases edited : graph.pasteNodes script.vars script.functionIds text offset with
      | error => exact .inl rfl
      | ok answer => exact .inr ⟨graph, answer.1, answer.2, found, edited, rfl⟩

theorem modify_graph_runtime (address : GraphAddress) (change : Graph → Graph) (script : Script) :
    (script.modifyGraph address change).runtime = script.runtime := by
  cases address with
  | event index | interface index => rfl
  | function guid =>
    unfold modifyGraph
    dsimp only
    split <;> rfl

theorem include_all_runtime (interface : String) (signatures : List InterfaceSignature) (script : Script) :
    (signatures.foldl (includeFunction interface) script).runtime = script.runtime := by
  induction signatures generalizing script with
  | nil => rfl
  | cons signature rest ih =>
    have one : (script.includeFunction interface signature).runtime = script.runtime := by
      unfold includeFunction
      split <;> rfl
    exact (ih _).trans one

theorem compile_all_runtime (script : Script) : script.compileAll.2.runtime = script.runtime := by
  unfold compileAll
  split
  · rfl
  · dsimp only
    split <;> rfl

theorem change_runtime (script : Script) (change : Change) : (change.apply script).runtime = script.runtime := by
  cases change with
  | addVariable | addFunction | addEventGraph | convertReferences | save => rfl
  | compileAll => exact compile_all_runtime script
  | modifyGraph address change => exact modify_graph_runtime address change script
  | removeVariable guid =>
    obtain same | ⟨index, changed⟩ := remove_variable_cases guid script
    · rw [same]
    · rw [changed]
      rfl
  | removeFunction guid =>
    obtain same | ⟨index, changed⟩ := remove_function_cases guid script
    · rw [same]
    · rw [changed]
      rfl
  | includeInterface definition =>
    refine (include_all_runtime definition.name definition.functions _).trans ?_
    split <;> rfl
  | setParameters =>
    dsimp only [Change.apply, setParameters]
    split <;> rfl
  | rebuildFunction guid =>
    obtain same | ⟨index, function, change, changed⟩ := rebuild_function_cases guid script
    · rw [same]
    · rw [changed]
      rfl
  | pasteNodes address text offset =>
    obtain same | ⟨graph, indices, pasted, _, _, changed⟩ := paste_nodes_cases address text offset script
    · rw [same]
    · rw [changed]
      exact modify_graph_runtime address _ script

theorem execute_runtime (services : Services σ) (script : Script) (world : σ) (invocation : Invocation) :
    (script.execute services world invocation).2.1.runtime = script.runtime := by
  cases invocation with
  | event index =>
    unfold execute runEventGraph
    dsimp only
    cases script.host services world with
    | error => rfl
    | ok host =>
      dsimp only
      cases script.eventGraphs[index]? with
      | none => rfl
      | some event =>
        dsimp only
        cases event.event <;> rfl
  | function =>
    unfold execute call
    dsimp only
    cases script.host services world <;> rfl
  | interface =>
    unfold execute callInterface
    dsimp only
    cases script.host services world with
    | error => rfl
    | ok host =>
      dsimp only
      split
      · rfl
      · split <;> rfl

end Script

theorem attach_runtime {ε : Type} (index entity : Nat) (limits : Limits) (script : Script) (world : World ε) :
    let after := world.attach index entity limits script
    after.1 = .ok () ∧ after.2.1.runtime = (some entity, some limits) ∨
      (∃ cause, after.1 = .error cause) ∧ after.2.1.runtime = (none, script.limits) := by
  have kept := Script.compile_all_runtime (world.bound index entity script).2.1
  obtain ⟨cause, _, refused⟩ | ⟨cause, final, _, compiled, refused⟩ | ⟨final, _, _, started⟩ :=
    World.attach_cases index entity limits script world
  · rw [refused]
    exact .inr ⟨⟨cause, rfl⟩, rfl⟩
  · rw [compiled] at kept
    rw [refused]
    exact .inr ⟨⟨cause, rfl⟩, congrArg (fun runtime => (none, runtime.2)) kept⟩
  · rw [started]
    exact .inl ⟨rfl, rfl⟩

theorem event_own (graph : EventGraph) : Own graph.event := by
  unfold EventGraph.event
  split
  · exact .error rfl
  · split
    · exact .ok _
    · exact .error rfl

namespace Script

/-- The execution that an invocation of a script sets off. -/
inductive Begins (host : Host σ) (script : Script) (world : σ) : Invocation → Stage σ → Prop where
  | event (index : Nat) (arguments : List Value) (event : EventGraph) (found : script.eventGraphs[index]? = some event) :
      Begins host script world (.event index arguments)
        (.runs (host.limits.maxSteps + 1) receiveNode arguments event.graph (script.env world))
  | function (guid : Guid) (arguments : List Value) :
      Begins host script world (.function guid arguments)
        (.calls (host.limits.maxSteps + 1) guid arguments (script.env world))
  | interface (interface name : String) (arguments : List Value) (function : InterfaceFunction)
      (member : function ∈ script.interfaceFunctions) :
      Begins host script world (.interface interface name arguments)
        (.enters (host.limits.maxSteps + 1) arguments function.body (script.env world))

/-- An invocation that does not come to an execution: there is no such event graph, or it waits for nothing, or the script
provides no such function. -/
inductive Misses (script : Script) : Invocation → ScriptError → Prop where
  | graph (index : Nat) (arguments : List Value) : Misses script (.event index arguments) (.graphNotFound (.eventIndex index))
  | event (index : Nat) (arguments : List Value) (cause : ScriptError) (own : cause.isOwn = true) :
      Misses script (.event index arguments) cause
  | function (interface name : String) (arguments : List Value) (absent : script.provides interface name = false) :
      Misses script (.interface interface name arguments) (.functionNotFound (.ofInterface interface name))

variable {script : Script}

theorem execute_failure {services : Services σ} {world : σ} {invocation : Invocation} {host : Host σ}
    (hosted : script.host services world = .ok host) {cause : ScriptError}
    (failed : (script.execute services world invocation).1 = .error cause) :
    (∃ whole, script.Begins host world invocation whole ∧ whole.failure host = some cause) ∨ script.Misses invocation cause := by
  cases invocation with
  | event index arguments =>
    simp only [execute, runEventGraph, hosted] at failed
    cases found : script.eventGraphs[index]? with
    | none =>
      rw [found] at failed
      cases failed
      exact .inr (.graph index arguments)
    | some event =>
      rw [found] at failed
      have own := event_own event
      cases named : event.event with
      | error =>
        simp only [named] at failed
        cases failed
        exact .inr (.event index arguments cause (own cause named))
      | ok =>
        simp only [named] at failed
        refine .inl ⟨_, .event index arguments event found, ?_⟩
        dsimp only [Stage.failure]
        change failureOf (event.graph.run host receiveNode arguments (script.env world)).1 = some cause
        cases result : (event.graph.run host receiveNode arguments (script.env world)).1 with
        | ok =>
          rw [result] at failed
          cases failed
        | error =>
          rw [result] at failed
          cases failed
          rfl
  | function guid arguments =>
    simp only [execute, call, hosted] at failed
    refine .inl ⟨_, .function guid arguments, ?_⟩
    change failureOf (callFunction host guid arguments (script.env world)).1 = some cause
    rw [failed]
    rfl
  | interface interface name arguments =>
    simp only [execute, callInterface, hosted] at failed
    split at failed
    · next absent =>
        cases failed
        refine .inr (.function interface name arguments ?_)
        simpa [provides] using List.findIdx?_eq_none_iff.mp absent
    · next index found =>
        obtain ⟨inside, _⟩ := List.findIdx?_eq_some_iff_getElem.mp found
        rw [List.getElem?_eq_getElem inside] at failed
        refine .inl ⟨_, .interface interface name arguments _ (List.getElem_mem inside), ?_⟩
        change failureOf (script.interfaceFunctions[index].body.call host arguments (script.env world)).1 = some cause
        dsimp only at failed
        rw [failed]
        rfl

variable (services : Services σ)

theorem host_limits (world : σ) {limits : Limits} (set : script.limits = some limits) :
    ∃ host, script.host services world = .ok host := by
  simp only [host, set]
  exact ⟨_, rfl⟩

theorem execute_without_limits (world : σ) (invocation : Invocation)
    (unset : script.limits = none) :
    script.execute services world invocation = (.error .notInitialized, script, world) := by
  have refused : script.host services world = .error .notInitialized := by simp only [host, unset]
  cases invocation with
  | event =>
    simp only [execute, runEventGraph, refused]
    rfl
  | function => simp only [execute, call, refused]
  | interface => simp only [execute, callInterface, refused]

/-- No execution that is under way asks for a start. -/
theorem execute_refused_iff (script : Script) (world : σ) (invocation : Invocation) :
    (script.execute services world invocation).1 = .error .notInitialized ↔ script.limits = none := by
  constructor
  · intro refused
    cases set : script.limits with
    | none => rfl
    | some =>
      obtain ⟨host, hosted⟩ := host_limits services world set
      obtain ⟨whole, _, failed⟩ | misses := execute_failure hosted refused
      · obtain ⟨calls, part, _, raises⟩ := failure_raised failed
        cases raises with
        | limit _ _ limit => cases limit
        | own _ _ own => cases own
      · cases misses with
        | event _ _ _ own => cases own
  · intro unset
    rw [execute_without_limits services world invocation unset]

/-- How a script stands by its starts: none succeeded so far, the last one did and nothing has ended it, or one did and it was
stopped or started in vain since. -/
inductive Status where
  | fresh
  | running (entity : Nat) (limits : Limits)
  | ended (limits : Limits)

namespace Status

def owner? : Status → Option Nat
  | .running entity _ => some entity
  | .fresh | .ended _ => none

def limits? : Status → Option Limits
  | .fresh => none
  | .running _ limits | .ended limits => some limits

def stopped : Status → Status
  | .fresh => .fresh
  | .running _ limits | .ended limits => .ended limits

end Status

def Use.status (state : Script × Status) : Use → Status
  | .start world index entity limits =>
    match (world.attach index entity limits state.1).1 with
    | .ok () => .running entity limits
    | .error _ => state.2.stopped
  | .stop _ => state.2.stopped
  | .edit _ | .execute _ _ _ => state.2

def Use.step (state : Script × Status) (use : Use) : Script × Status := (use.apply state.1, use.status state)

def Stands (state : Script × Status) : Prop := state.1.runtime = (state.2.owner?, state.2.limits?)

theorem stopped_stands {script : Script} {status : Status} (limits : script.limits = status.limits?) {after : Script}
    (runtime : after.runtime = (none, script.limits)) : Stands (after, status.stopped) := by
  unfold Stands
  rw [runtime, limits]
  cases status <;> rfl

theorem use_stands {state : Script × Status} (use : Use) (stands : Stands state) : Stands (use.step state) := by
  have limits : state.1.limits = state.2.limits? := congrArg Prod.snd stands
  cases use with
  | start world index entity limit =>
    unfold Use.step Use.status
    obtain ⟨started, runtime⟩ | ⟨⟨cause, failed⟩, runtime⟩ := attach_runtime index entity limit state.1 world
    · simp only [started]
      exact runtime
    · simp only [failed]
      exact stopped_stands limits runtime
  | stop => exact stopped_stands limits rfl
  | edit change => exact (change_runtime state.1 change).trans stands
  | execute services world invocation => exact (execute_runtime services state.1 world invocation).trans stands

theorem history_stands (history : List Use) (state : Script × Status) (stands : Stands state) :
    Stands (history.foldl Use.step state) := by
  induction history generalizing state with
  | nil => exact stands
  | cons use rest ih => exact ih (use.step state) (use_stands use stands)

theorem initial_stands {script : Script} (initial : script.Initial) : Stands (script, .fresh) := by
  cases initial with
  | empty name => rfl
  | loaded text script loaded =>
    unfold load loadWith at loaded
    split at loaded
    · next stored read =>
        cases loaded
        obtain ⟨document, _, read⟩ := Option.bind_eq_some_iff.mp read
        unfold ofDocument? at read
        simp only [bind, Option.bind_eq_some_iff, pure, Option.some.injEq] at read
        obtain ⟨_, _, _, _, _, _, _, _, _, _, _, _, _, _, rfl⟩ := read
        rfl
    · cases loaded

/-- Whatever was done with a script, it is initialized if its last start has succeeded and not been ended. But it is asked in
vain, and then nothing changes, only if no start ever succeeded: a script that has ended still runs. So the two agree in all
states but those. -/
theorem runs_once_started (script : Script) (initial : script.Initial) (history : List Use) :
    let state := history.foldl Use.step (script, .fresh)
    (state.1.isInitialized = true ↔ ∃ entity limits, state.2 = .running entity limits) ∧
      ∀ {σ : Type} (services : Services σ) (world : σ) (invocation : Invocation),
        ((state.1.execute services world invocation).1 = .error .notInitialized ↔ state.2 = .fresh) ∧
        (state.2 = .fresh → state.1.execute services world invocation = (.error .notInitialized, state.1, world)) ∧
        (((state.1.execute services world invocation).1 = .error .notInitialized ↔ state.1.isInitialized = false) ↔
          ∀ limits, state.2 ≠ .ended limits) := by
  intro state
  have stands : Stands state := history_stands history (script, .fresh) (initial_stands initial)
  have owner : state.1.owner = state.2.owner? := congrArg Prod.fst stands
  have limits : state.1.limits = state.2.limits? := congrArg Prod.snd stands
  have fresh : state.1.limits = none ↔ state.2 = .fresh := by
    rw [limits]
    cases state.2 <;> simp [Status.limits?]
  have initialized : state.1.isInitialized = state.2.owner?.isSome := by
    rw [isInitialized, owner, limits]
    cases state.2 <;> rfl
  refine ⟨?_, fun services world invocation => ⟨?_, fun unstarted => ?_, ?_⟩⟩
  · rw [initialized]
    cases state.2 <;> simp [Status.owner?]
  · rw [execute_refused_iff, fresh]
  · exact execute_without_limits services world invocation (fresh.mpr unstarted)
  · rw [execute_refused_iff, fresh, initialized]
    cases state.2 <;> simp [Status.owner?]

def passing : Function := ⟨⟨1⟩, "Pass", ⟨(Edit.connectExec 0 0 1 0 (Body.fresh [] []).graph).2, [], []⟩⟩

def plaza : World Unit := ⟨[⟨⟨⟨9⟩, "Actor", [], []⟩, []⟩], [], ()⟩

/-- The second start fails for want of an event. -/
theorem restarted_in_vain_still_runs :
    let history : List Use := [.edit (.addFunction passing), .start plaza 0 0 .default,
      .edit (.addEventGraph (.fresh ⟨2⟩ "rung" none [])), .start plaza 0 0 .default]
    let state := history.foldl Use.step (Script.empty "Idler", .fresh)
    let called := state.1.execute (World.services Catalog.empty) plaza (.function ⟨1⟩ [])
    (Script.empty "Idler").Initial ∧ state.2 = .ended .default ∧ state.1.isInitialized = false ∧
      called.1 ≠ .error .notInitialized := by
  intro history state called
  have ended : state.2 = .ended .default := rfl
  obtain ⟨running, asked⟩ := runs_once_started (Script.empty "Idler") (.empty "Idler") history
  obtain ⟨refused, _, _⟩ := asked (World.services Catalog.empty) plaza (.function ⟨1⟩ [])
  refine ⟨.empty "Idler", ended, ?_, fun failed => ?_⟩
  · refine Bool.eq_false_iff.mpr fun initialized => ?_
    obtain ⟨entity, limits, same⟩ := running.mp initialized
    cases ended.symm.trans same
  · cases ended.symm.trans (refused.mp failed)

/-- A script that was stopped is not initialized, and its function can be called. -/
theorem stopped_script_runs :
    let history : List Use := [.edit (.addFunction passing), .start plaza 0 0 .default, .stop plaza]
    let script := history.foldl Use.apply (Script.empty "Idler")
    script.isInitialized = false ∧ script.functionIds = [⟨1⟩] ∧
      (script.execute (World.services Catalog.empty) plaza (.function ⟨1⟩ [])).1 = .ok [] :=
  ⟨rfl, rfl, rfl⟩

end Script

end Patchbay
