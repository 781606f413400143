import Patchbay.Proofs.Integrity
import Patchbay.Proofs.Signatures

set_option autoImplicit false

namespace Patchbay

variable {σ : Type}

theorem resolve_inputs_parameters (nodes : List Node) (index : Nat) (pins : List InputPin) :
    (resolveInputs nodes index pins).1.map InputPin.parameter = pins.map InputPin.parameter := by
  induction pins with
  | nil => rfl
  | cons pin rest ih =>
    unfold resolveInputs
    split
    · simp [ih, InputPin.parameter]
    · split <;> simp [ih, InputPin.parameter]

theorem compile_sites (graph : Graph) : graph.compile.2.sites = graph.sites := by
  refine compile_view Node.site (fun _ _ => rfl) (fun nodes index node => ?_) graph
  refine congrArg (Prod.mk node.kind) (Node.call_congr node _ rfl (congrArg (Signature.mk · _) ?_))
  exact resolve_inputs_parameters nodes index node.inputs

namespace Script

def signatures (script : Script) : List (Guid × Signature) :=
  script.functions.map fun function => (function.guid, function.body.signature)

def CallsMatch (script : Script) : Prop := ∀ graph ∈ script.graphs, ∀ call ∈ graph.calls, call ∈ script.signatures

instance (script : Script) : Decidable script.CallsMatch :=
  inferInstanceAs (Decidable (∀ graph ∈ script.graphs, ∀ call ∈ graph.calls, call ∈ script.signatures))

structure Orderly (script : Script) : Prop where
  distinct : script.functionIds.Nodup
  callable : ∀ function ∈ script.functions, function.body.graph.Callable

theorem signature_ids (script : Script) : script.signatures.map (·.1) = script.functionIds := by
  rw [signatures, List.map_map]
  rfl

theorem signature_unique (script : Script) (distinct : script.functionIds.Nodup) {first second : Guid × Signature}
    (left : first ∈ script.signatures) (right : second ∈ script.signatures) (same : first.1 = second.1) : first = second := by
  rw [← signature_ids] at distinct
  exact List.inj_on_of_nodup_map distinct left right same

section Views

variable (script : Script) (change : Graph → Graph)

theorem map_graphs_signatures : (script.mapGraphs change).signatures = script.signatures := by
  simp [signatures, mapGraphs, Function.comp_def, Function.mapGraph, Body.mapGraph, Body.signature]

theorem map_graphs_orderly (callable : ∀ graph, graph.Callable → (change graph).Callable) (orderly : script.Orderly) :
    (script.mapGraphs change).Orderly := by
  refine ⟨map_graphs_ids change script ▸ orderly.distinct, fun function inside => ?_⟩
  obtain ⟨old, there, rfl⟩ := List.mem_map.mp inside
  exact callable _ (orderly.callable old there)

variable (address : GraphAddress)

theorem modified_signatures : (script.modifyGraph address change).signatures = script.signatures := by
  cases address with
  | event index | interface index => rfl
  | function guid =>
    rw [modifyGraph]
    split
    · next index _ =>
        exact modify_layout (fun function : Function => (function.guid, function.body.signature)) index (·.mapGraph change)
          script.functions fun _ => rfl
    · rfl

theorem modified_orderly (callable : ∀ graph, graph.Callable → (change graph).Callable)
    (orderly : script.Orderly) : (script.modifyGraph address change).Orderly := by
  refine ⟨(modified_ids address change script).2 ▸ orderly.distinct, fun function inside => ?_⟩
  cases address with
  | event index | interface index => exact orderly.callable function inside
  | function guid =>
    rw [modifyGraph] at inside
    split at inside
    · next index _ =>
        rcases mem_modify index (·.mapGraph change) script.functions function inside with there | ⟨old, here, rfl⟩
        · exact orderly.callable function there
        · exact callable _ (orderly.callable old (List.mem_of_getElem? here))
    · exact orderly.callable function inside

theorem modified_match (calls : ∀ old ∈ script.graphs, ∀ call ∈ (change old).calls, call ∈ script.signatures) (matched : script.CallsMatch) :
    (script.modifyGraph address change).CallsMatch := by
  intro graph inside call member
  rw [modified_signatures]
  rcases modified_graphs change graph inside with there | ⟨old, there, rfl⟩
  · exact matched graph there call member
  · exact calls old there call member

end Views

variable {guid : Guid} {script after : Script} {index : Nat} {old new : Function}

theorem function_found :
    script.functionIndex? guid = some index → script.functions.find? (·.guid == guid) = script.functions[index]? := by
  intro first
  obtain ⟨inside, named, before⟩ := List.findIdx?_eq_some_iff_getElem.mp first
  rw [List.getElem?_eq_getElem inside]
  exact List.find?_eq_some_iff_getElem.mpr ⟨named, index, inside, rfl, fun earlier below => by simpa using before earlier below⟩

theorem function_missing (missing : script.functionIndex? guid = none) :
    script.functions.find? (·.guid == guid) = none := by
  refine List.find?_eq_none.mpr fun function inside named => ?_
  rw [List.findIdx?_eq_none_iff.mp missing function inside] at named
  cases named

variable (address : GraphAddress) (text : String) (offset : Position) (inputs outputs : Option (List Parameter))

theorem modified_congr (first second : Graph → Graph) (script : Script)
    (same : ∀ graph, script.graph? address = some graph → first graph = second graph) :
    script.modifyGraph address first = script.modifyGraph address second := by
  cases address with
  | event index =>
    refine congrArg (fun graphs => { script with eventGraphs := graphs }) (modify_at_congr _ index _ _ fun event found => ?_)
    rw [EventGraph.mapGraph, EventGraph.mapGraph, same event.graph (by rw [graph?, found]; rfl)]
  | interface index =>
    refine congrArg (fun functions => { script with interfaceFunctions := functions })
      (modify_at_congr _ index _ _ fun function found => ?_)
    simp only [InterfaceFunction.mapGraph, Body.mapGraph, same function.body.graph (by rw [graph?, found]; rfl)]
  | function guid =>
    cases first : script.functionIndex? guid with
    | none => simp only [modifyGraph, first]
    | some index =>
      simp only [modifyGraph, first]
      refine congrArg (fun functions => { script with functions := functions })
        (modify_at_congr _ index _ _ fun function found => ?_)
      have there : script.graph? (.function guid) = some function.body.graph := by
        rw [graph?, function_found first, found]
        rfl
      simp only [Function.mapGraph, Body.mapGraph, same function.body.graph there]

theorem modified_same (change : Graph → Graph) (script : Script)
    (same : ∀ graph, script.graph? address = some graph → change graph = graph) : script.modifyGraph address change = script := by
  rw [modified_congr address change id script same]
  have event : (fun event : EventGraph => event.mapGraph id) = id := rfl
  have provided : (fun function : InterfaceFunction => function.mapGraph id) = id := rfl
  have function : (fun function : Function => function.mapGraph id) = id := rfl
  cases address with
  | event => simp only [modifyGraph, event, List.modify_id]
  | interface => simp only [modifyGraph, provided, List.modify_id]
  | function guid =>
    simp only [modifyGraph, function, List.modify_id]
    split <;> rfl

theorem modified_listed {address : GraphAddress} (change : Graph → Graph) {graph : Graph}
    (found : script.graph? address = some graph) : change graph ∈ (script.modifyGraph address change).graphs := by
  have listed {α : Type} (items : List α) (view : α → Graph) (index : Nat) (mapped : (Graph → Graph) → α → α)
      (maps : ∀ item, view (mapped change item) = change (view item)) (there : (items[index]?).map view = some graph) :
      change graph ∈ (items.modify index (mapped change)).map view := by
    obtain ⟨item, here, rfl⟩ := Option.map_eq_some_iff.mp there
    rw [← maps]
    refine List.mem_map_of_mem (List.mem_of_getElem? (i := index) ?_)
    rw [List.getElem?_modify_eq, here]
    rfl
  simp only [graphs, List.mem_append]
  cases address with
  | event index => exact .inl (.inl (listed script.eventGraphs _ index EventGraph.mapGraph (fun _ => rfl) found))
  | interface index => exact .inl (.inr (listed script.interfaceFunctions _ index InterfaceFunction.mapGraph (fun _ => rfl) found))
  | function guid =>
    cases first : script.functionIndex? guid with
    | none =>
      rw [graph?, function_missing first] at found
      cases found
    | some index =>
      rw [graph?, function_found first] at found
      simp only [modifyGraph, first]
      exact .inr (listed script.functions _ index Function.mapGraph (fun _ => rfl) found)

theorem paste_edits (script : Script) :
    (Change.pasteNodes address text offset).apply script =
      script.modifyGraph address fun graph => (Edit.pasteNodes script.vars script.functionIds text offset graph).2 := by
  cases found : script.graph? address with
  | none =>
    rw [modified_same address _ script fun graph there => absurd (found.symm.trans there) (Option.some_ne_none graph).symm]
    simp only [Change.apply, pasteNodes, found]
    rfl
  | some graph =>
    have here (other : Graph) (there : script.graph? address = some other) : other = graph :=
      Option.some.inj (there.symm.trans found)
    cases edited : Edit.pasteNodes script.vars script.functionIds text offset graph with
    | mk answer next =>
      have committed : graph.pasteNodes script.vars script.functionIds text offset = answer.map (·, next) := by
        rw [Graph.pasteNodes, Edit.commit, edited]
        cases answer <;> rfl
      simp only [Change.apply, pasteNodes, found, committed]
      cases answer with
      | ok =>
        refine modified_congr address _ _ script fun other there => ?_
        rw [here other there, edited]
      | error cause =>
        refine (modified_same address _ script fun other there => ?_).symm
        rw [here other there]
        exact paste_nodes_atomic _ _ text offset graph cause (congrArg Prod.fst edited)

def current (text : String) (script : Script) : Bool :=
  (Graph.clippedCalls text).all fun call => !script.functionIds.contains call.1 || script.signatures.contains call

theorem current_iff (script : Script) : script.current text = true ↔
    ∀ call ∈ Graph.clippedCalls text, call.1 ∈ script.functionIds → call ∈ script.signatures := by
  simp only [current, List.all_eq_true, Bool.or_eq_true, Bool.not_eq_true', List.contains_eq_mem, decide_eq_true_eq,
    decide_eq_false_iff_not, imp_iff_not_or]

theorem paste_match (matched : script.CallsMatch) :
    ((Change.pasteNodes address text offset).apply script).CallsMatch ↔
      script.graph? address = none ∨ script.current text = true := by
  rw [paste_edits, current_iff]
  constructor
  · intro after
    cases found : script.graph? address with
    | none => exact .inl rfl
    | some graph =>
      refine .inr fun call clipped known => ?_
      have pasted := (graph.pasted_calls script.vars script.functionIds text offset call).mpr (.inr ⟨clipped, known⟩)
      have listed := modified_listed
        (fun graph => (Edit.pasteNodes script.vars script.functionIds text offset graph).2) found
      exact modified_signatures script _ address ▸ after _ listed call pasted
  · rintro (missing | fitting)
    · rwa [modified_same address _ script fun graph there => absurd (missing.symm.trans there) (Option.some_ne_none graph).symm]
    · refine modified_match script _ address (fun old listed call member => ?_) matched
      rcases (old.pasted_calls script.vars script.functionIds text offset call).mp member with was | ⟨clipped, known⟩
      · exact matched old listed call was
      · exact fitting call clipped known

theorem paste_orderly (orderly : script.Orderly) :
    ((Change.pasteNodes address text offset).apply script).Orderly := by
  rw [paste_edits]
  exact modified_orderly script _ address (fun graph => graph.pasted_callable _ _ text offset) orderly

theorem remove_function_orderly (guid : Guid) (orderly : script.Orderly) :
    ((Change.removeFunction guid).apply script).Orderly := by
  rcases remove_function_cases guid script with same | ⟨index, changed⟩
  · rwa [same]
  · rw [changed]
    refine map_graphs_orderly _ _ (fun graph => graph.convert_callable _ _ .live) ⟨?_, fun function inside => ?_⟩
    · rw [functionIds, ← List.eraseIdx_map]
      exact orderly.distinct.sublist (List.eraseIdx_sublist _ index)
    · exact orderly.callable function (List.mem_of_mem_eraseIdx inside)

theorem remove_function_match (guid : Guid) (distinct : script.functionIds.Nodup) (matched : script.CallsMatch) :
    ((Change.removeFunction guid).apply script).CallsMatch := by
  rcases remove_function_cases guid script with same | ⟨index, changed⟩
  · rwa [same]
  · rw [changed]
    intro graph inside call member
    rw [convertReferences, map_graphs_signatures]
    rw [convert_graphs] at inside
    obtain ⟨old, there, rfl⟩ := List.mem_map.mp inside
    obtain ⟨was, known⟩ := old.convert_calls member
    have listed : old ∈ script.graphs := by
      rcases List.mem_append.mp there with among | among
      · exact List.mem_append_left _ among
      · obtain ⟨function, left, rfl⟩ := List.mem_map.mp among
        exact List.mem_append_right _ (List.mem_map_of_mem (List.mem_of_mem_eraseIdx left))
    obtain ⟨function, left, named⟩ := List.mem_map.mp known
    have same := signature_unique script distinct (matched old listed call was)
      (List.mem_map_of_mem (List.mem_of_mem_eraseIdx left)) named.symm
    rw [same]
    exact List.mem_map_of_mem left

theorem function_index_ids (guid : Guid) (same : after.functionIds = script.functionIds) :
    after.functionIndex? guid = script.functionIndex? guid := by
  have found := congrArg (List.findIdx? (· == guid)) same
  simp only [functionIds, List.findIdx?_map] at found
  exact found

def reshape (guid : Guid) (inputs outputs : Option (List Parameter)) (script : Script) : Script :=
  (Change.rebuildFunction guid).apply (script.setParameters guid inputs outputs)

structure Reshaped (guid : Guid) (inputs outputs : Option (List Parameter)) (old new : Function) : Prop where
  named : old.guid = guid
  guid : new.guid = guid
  signature : new.body.signature = ⟨inputs.getD old.body.inputs, outputs.getD old.body.outputs⟩
  calls : Graph.CallsKept old.body.graph new.body.graph

def redeclared (inputs outputs : Option (List Parameter)) (function : Function) : Function :=
  { function with body := { function.body with
    inputs := inputs.getD function.body.inputs, outputs := outputs.getD function.body.outputs } }

theorem set_parameters_missing (missing : script.functionIndex? guid = none) : script.setParameters guid inputs outputs = script := by
  rw [setParameters, missing]

theorem set_parameters_found (found : script.functionIndex? guid = some index) : script.setParameters guid inputs outputs =
      { script with functions := script.functions.modify index (redeclared inputs outputs) } := by
  rw [setParameters, found]
  rfl

theorem set_parameters_index (guid : Guid) (inputs outputs : Option (List Parameter)) (script : Script) :
    (script.setParameters guid inputs outputs).functionIndex? guid = script.functionIndex? guid := by
  cases found : script.functionIndex? guid with
  | none => rwa [set_parameters_missing inputs outputs found]
  | some index =>
    rw [set_parameters_found inputs outputs found, ← found]
    exact function_index_ids guid
      (modify_layout Function.guid index (redeclared inputs outputs) script.functions fun _ => rfl)

theorem rebuilt_function (named : old.guid = guid)
    (callable : old.body.graph.Callable) :
    ∃ rebuilt new, (redeclared inputs outputs old).rebuild = .ok (rebuilt, new) ∧ rebuilt.inputs = new.body.inputs ∧
      rebuilt.outputs = new.body.outputs ∧ Reshaped guid inputs outputs old new := by
  let body := (redeclared inputs outputs old).body
  obtain ⟨answer, rebuilds⟩ := body.callable_rebuilds callable
  obtain ⟨entry, returned, framed, same⟩ := rebuild_cases rebuilds
  have whole : (redeclared inputs outputs old).rebuild =
      .ok (⟨old.guid, answer.2.2.inputs, answer.2.2.outputs, answer.1, answer.2.1⟩, { old with body := answer.2.2 }) := by
    rw [Function.rebuild, rebuilds]
    rfl
  refine ⟨_, _, whole, rfl, rfl, named, named, ?_, ?_⟩
  · rw [same]
    rfl
  · rw [same]
    exact body.reshaped_kept framed

theorem reshape_cases (guid : Guid) (inputs outputs : Option (List Parameter)) (orderly : script.Orderly) :
    script.reshape guid inputs outputs = script ∧ guid ∉ script.functionIds ∨
      ∃ index old new, script.functions[index]? = some old ∧ Reshaped guid inputs outputs old new ∧
        script.reshape guid inputs outputs = { script with functions := script.functions.set index new }.mapGraphs
          fun graph => (graph.syncCalls guid new.body.inputs new.body.outputs).1 := by
  cases first : script.functionIndex? guid with
  | none =>
    refine .inl ⟨?_, fun listed => ?_⟩
    · simp only [reshape, setParameters, first, Change.apply, rebuildFunction]
      rfl
    · obtain ⟨function, inside, named⟩ := List.mem_map.mp listed
      have other := List.findIdx?_eq_none_iff.mp first function inside
      simp [named] at other
  | some index =>
    obtain ⟨inside, named, _⟩ := List.findIdx?_eq_some_iff_getElem.mp first
    have there := List.getElem?_eq_getElem inside
    obtain ⟨rebuilt, new, rebuilds, sameInputs, sameOutputs, reshaped⟩ := rebuilt_function inputs outputs
      (beq_iff_eq.mp named) (orderly.callable _ (List.mem_of_getElem? there))
    refine .inr ⟨index, _, new, there, reshaped, ?_⟩
    have still := script.set_parameters_index guid inputs outputs
    rw [set_parameters_found inputs outputs first, first] at still
    have changed : (script.functions.modify index (redeclared inputs outputs))[index]? =
        some (redeclared inputs outputs script.functions[index]) := by
      rw [List.getElem?_modify_eq, there]
      rfl
    have replaced : (script.functions.modify index (redeclared inputs outputs)).set index new =
        script.functions.set index new := by
      simp [List.modify_eq_set_getElem?, there]
    rw [reshape, set_parameters_found inputs outputs first, ← replaced, ← sameInputs, ← sameOutputs]
    simp only [Change.apply, rebuildFunction, still, changed, rebuilds]
    rfl

theorem replaced_ids (there : script.functions[index]? = some old)
    (same : new.guid = old.guid) : { script with functions := script.functions.set index new }.functionIds =
    script.functionIds := by
  obtain ⟨inside, here⟩ := List.getElem?_eq_some_iff.mp there
  rw [functionIds, functionIds, List.map_set, same, ← here, ← List.getElem_map Function.guid, List.set_getElem_self]
  rwa [List.length_map]

theorem reshape_orderly (guid : Guid) (inputs outputs : Option (List Parameter)) (orderly : script.Orderly) :
    (script.reshape guid inputs outputs).Orderly := by
  rcases reshape_cases guid inputs outputs orderly with ⟨same, _⟩ | ⟨index, old, new, there, reshaped, changed⟩
  · rwa [same]
  · rw [changed]
    refine map_graphs_orderly _ _ (fun graph => graph.sync_calls_callable guid _ _) ⟨?_, fun function inside => ?_⟩
    · rw [replaced_ids there (reshaped.guid.trans reshaped.named.symm)]
      exact orderly.distinct
    · rcases List.mem_or_eq_of_mem_set inside with was | rfl
      · exact orderly.callable function was
      · exact reshaped.calls.callable (orderly.callable old (List.mem_of_getElem? there))

theorem replaced_signatures (new : Function) (there : script.functions[index]? = some old) :
    let after := { script with functions := script.functions.set index new }
    (new.guid, new.body.signature) ∈ after.signatures ∧
      ∀ call ∈ script.signatures, call.1 ≠ old.guid → call ∈ after.signatures := by
  obtain ⟨inside, _⟩ := List.getElem?_eq_some_iff.mp there
  refine ⟨List.mem_map_of_mem (List.mem_set inside new), fun call listed other => ?_⟩
  obtain ⟨function, was, rfl⟩ := List.mem_map.mp listed
  obtain ⟨place, here⟩ := List.mem_iff_getElem?.mp was
  have apart : index ≠ place := by
    rintro rfl
    cases there.symm.trans here
    exact other rfl
  exact List.mem_map_of_mem (List.mem_of_getElem? ((List.getElem?_set_ne apart).trans here))

theorem reshaped_calls {inputs outputs : Option (List Parameter)} (there : script.functions[index]? = some old)
    (reshaped : Reshaped guid inputs outputs old new) :
    let after := { script with functions := script.functions.set index new }.mapGraphs
      fun graph => (graph.syncCalls guid new.body.inputs new.body.outputs).1
    ∀ graph ∈ after.graphs, ∀ call ∈ graph.calls,
      call = (new.guid, new.body.signature) ∨ call.1 ≠ guid ∧ ∃ before ∈ script.graphs, call ∈ before.calls := by
  intro after graph inside call member
  rw [graphs_map] at inside
  obtain ⟨source, listed, rfl⟩ := List.mem_map.mp inside
  rcases source.sync_calls_signed member with ⟨named, signed⟩ | ⟨other, was⟩
  · exact .inl (Prod.ext (named.trans reshaped.guid.symm) signed)
  · refine .inr ⟨other, ?_⟩
    rcases List.mem_append.mp listed with among | among
    · exact ⟨source, List.mem_append_left _ among, was⟩
    · obtain ⟨function, set, rfl⟩ := List.mem_map.mp among
      rcases List.mem_or_eq_of_mem_set set with kept | rfl
      · exact ⟨_, List.mem_append_right _ (List.mem_map_of_mem kept), was⟩
      · exact ⟨_, List.mem_append_right _ (List.mem_map_of_mem (List.mem_of_getElem? there)), reshaped.calls.calls was⟩

theorem reshape_mends (orderly : script.Orderly)
    (known : guid ∈ script.functionIds) : ∀ graph ∈ (script.reshape guid inputs outputs).graphs, ∀ call ∈ graph.calls,
      call.1 = guid → call ∈ (script.reshape guid inputs outputs).signatures := by
  rcases reshape_cases guid inputs outputs orderly with ⟨_, absent⟩ | ⟨index, old, new, there, reshaped, changed⟩
  · exact absurd known absent
  · rw [changed]
    intro graph inside call member named
    rw [map_graphs_signatures]
    rcases reshaped_calls there reshaped graph inside call member with rfl | ⟨other, _⟩
    · exact (replaced_signatures new there).1
    · exact absurd named other

theorem reshape_match (guid : Guid) (inputs outputs : Option (List Parameter)) (orderly : script.Orderly)
    (matched : script.CallsMatch) : (script.reshape guid inputs outputs).CallsMatch := by
  rcases reshape_cases guid inputs outputs orderly with ⟨same, _⟩ | ⟨index, old, new, there, reshaped, changed⟩
  · rwa [same]
  · rw [changed]
    intro graph inside call member
    rw [map_graphs_signatures]
    obtain ⟨fresh, others⟩ := replaced_signatures new there
    rcases reshaped_calls there reshaped graph inside call member with
      rfl | ⟨other, before, listed, was⟩
    · exact fresh
    · exact others call (matched before listed call was) (reshaped.named ▸ other)

/-- Neither depends on more than the signatures of the functions and the calls of all graphs. -/
theorem match_of_parts
    (events : after.eventGraphs.map (·.graph.sites) = script.eventGraphs.map (·.graph.sites))
    (interfaces : after.interfaceFunctions.map (·.body.graph.sites) = script.interfaceFunctions.map (·.body.graph.sites))
    (functions : after.functions.map (fun function => (function.guid, function.body.signature, function.body.graph.sites)) =
      script.functions.map fun function => (function.guid, function.body.signature, function.body.graph.sites)) :
    (script.Orderly → after.Orderly) ∧ (script.CallsMatch → after.CallsMatch) := by
  have ids : after.functionIds = script.functionIds := by
    have guids := congrArg (List.map Prod.fst) functions
    rw [List.map_map, List.map_map] at guids
    exact guids
  have signatures : after.signatures = script.signatures := by
    have pairs := congrArg (List.map fun view => (view.1, view.2.1)) functions
    rw [List.map_map, List.map_map] at pairs
    exact pairs
  have bodies := congrArg (List.map (·.2.2)) functions
  simp only [List.map_map, Function.comp_def] at bodies
  have sites : after.graphs.map (·.sites) = script.graphs.map (·.sites) := by
    simp only [graphs, List.map_append, List.map_map, Function.comp_def, events, interfaces, bodies]
  refine ⟨fun orderly => ⟨ids ▸ orderly.distinct, fun function inside => ?_⟩, fun matched graph inside call member => ?_⟩
  · have listed : function.body.graph.sites ∈ after.functions.map (·.body.graph.sites) := List.mem_map_of_mem inside
    rw [bodies] at listed
    obtain ⟨old, there, same⟩ := List.mem_map.mp listed
    exact (Graph.same_sites_kept same.symm).callable (orderly.callable old there)
  · have listed : graph.sites ∈ after.graphs.map (·.sites) := List.mem_map_of_mem inside
    rw [sites] at listed
    obtain ⟨old, there, same⟩ := List.mem_map.mp listed
    rw [signatures]
    exact matched old there call ((Graph.same_sites_kept same.symm).calls member)

theorem compile_all_match (script : Script) :
    (script.Orderly → script.compileAll.2.Orderly) ∧ (script.CallsMatch → script.compileAll.2.CallsMatch) := by
  obtain ⟨_, _, _, same, events, interfaces, functions⟩ := compile_all_parts (·.graph.sites) (·.body.graph.sites)
    (fun function => (function.guid, function.body.signature, function.body.graph.sites))
    (fun event => compile_sites event.graph) (fun function => compile_sites function.body.graph)
    (fun function => congrArg (function.guid, function.body.signature, ·) (compile_sites function.body.graph)) script
  rw [same]
  exact match_of_parts events interfaces functions

end Script

structure Clip where
  text : String
  origin : Script

structure Desk where
  script : Script
  clips : List Clip

inductive Move where
  | reshape (guid : Guid) (inputs outputs : Option (List Parameter))
  | removeFunction (guid : Guid)
  | addCall (address : GraphAddress) (guid : Guid)
  | removeNode (address : GraphAddress) (index : Nat)
  | connect (address : GraphAddress) (source output target input : Nat)
  | disconnect (address : GraphAddress) (target input : Nat)
  | connectExec (address : GraphAddress) (source output target input : Nat)
  | disconnectExec (address : GraphAddress) (source output : Nat)
  | copy (address : GraphAddress) (selection : List Nat)
  | paste (address : GraphAddress) (clip : Nat) (offset : Position)
  | compile

def Function.call (function : Function) : Node :=
  Node.callFunction function.guid function.name function.body.inputs function.body.outputs

namespace Desk

def edit {α : Type} (address : GraphAddress) (edit : Edit α) (desk : Desk) : Desk :=
  { desk with script := desk.script.modifyGraph address fun graph => (edit graph).2 }

def after (desk : Desk) : Move → Desk
  | .reshape guid inputs outputs => { desk with script := desk.script.reshape guid inputs outputs }
  | .removeFunction guid => { desk with script := (Script.Change.removeFunction guid).apply desk.script }
  | .addCall address guid =>
    match desk.script.functions.find? (·.guid == guid) with
    | none => desk
    | some function => { desk with script := desk.script.modifyGraph address (·.addNode function.call) }
  | .removeNode address index => desk.edit address (Edit.removeNode index)
  | .connect address source output target input => desk.edit address (Edit.connect source output target input)
  | .disconnect address target input => desk.edit address (Edit.disconnect target input)
  | .connectExec address source output target input => desk.edit address (Edit.connectExec source output target input)
  | .disconnectExec address source output => desk.edit address (Edit.disconnectExec source output)
  | .copy address selection =>
    match desk.script.copyNodes address selection with
    | .error _ => desk
    | .ok text => { desk with clips := desk.clips ++ [⟨text, desk.script⟩] }
  | .paste address clip offset =>
    match desk.clips[clip]? with
    | none => desk
    | some clip => { desk with script := (Script.Change.pasteNodes address clip.text offset).apply desk.script }
  | .compile => { desk with script := desk.script.compileAll.2 }

/-- The move pastes a call whose signature is no longer that of its function. -/
def outdated (desk : Desk) : Move → Bool
  | .paste address clip _ =>
    (desk.script.graph? address).isSome && (desk.clips[clip]?).any fun clip => !desk.script.current clip.text
  | _ => false

def neverOutdated (desk : Desk) : List Move → Bool
  | [] => true
  | move :: rest => !desk.outdated move && (desk.after move).neverOutdated rest

variable {α : Type} {clip : Clip}

variable (desk : Desk) (address : GraphAddress)

theorem edit_orderly (edit : Edit α) (kept : ∀ graph, Graph.CallsKept graph (edit graph).2)
    (desk : Desk) (orderly : desk.script.Orderly) : (desk.edit address edit).script.Orderly :=
  Script.modified_orderly desk.script _ address (fun graph => (kept graph).callable) orderly

theorem edit_match (edit : Edit α) (kept : ∀ graph, Graph.CallsKept graph (edit graph).2)
    (desk : Desk) (matched : desk.script.CallsMatch) : (desk.edit address edit).script.CallsMatch :=
  Script.modified_match desk.script _ address (fun old listed call member => matched old listed call ((kept old).calls member))
    matched

theorem after_orderly (orderly : desk.script.Orderly) (move : Move) : (desk.after move).script.Orderly := by
  cases move with
  | reshape guid inputs outputs => exact Script.reshape_orderly guid inputs outputs orderly
  | removeFunction guid => exact Script.remove_function_orderly guid orderly
  | addCall address guid =>
    rw [after]
    split
    · exact orderly
    · next function _ =>
        refine Script.modified_orderly desk.script _ address (fun graph callable => ?_) orderly
        obtain ⟨rest, kinds⟩ := callable
        exact ⟨rest ++ [function.call.kind], by simp [Graph.addNode, Graph.uncompile, ← kinds]⟩
  | removeNode address index => exact desk.edit_orderly address _ (Graph.remove_node_kept index) orderly
  | connect address source output target input =>
    exact desk.edit_orderly address _ (Graph.connect_kept source output target input) orderly
  | disconnect address target input => exact desk.edit_orderly address _ (Graph.disconnect_kept target input) orderly
  | connectExec address source output target input =>
    exact desk.edit_orderly address _ (Graph.connect_exec_kept source output target input) orderly
  | disconnectExec address source output =>
    exact desk.edit_orderly address _ (Graph.set_target_kept source output none) orderly
  | copy =>
    rw [after]
    split <;> exact orderly
  | paste address clip offset =>
    rw [after]
    split
    · exact orderly
    · exact Script.paste_orderly address _ offset orderly
  | compile => exact (Script.compile_all_match desk.script).1 orderly

theorem add_call_match {function : Function} (desk : Desk) (listed : function ∈ desk.script.functions)
    (matched : desk.script.CallsMatch) : (desk.script.modifyGraph address (·.addNode function.call)).CallsMatch := by
  refine Script.modified_match desk.script _ address (fun old inside call member => ?_) matched
  obtain ⟨node, there, calls⟩ := List.mem_filterMap.mp member
  rcases List.mem_append.mp there with was | new
  · exact matched old inside call (old.call_listed was call calls)
  · rw [List.mem_singleton.mp new, Function.call, Node.made_call] at calls
    rw [← Option.some.inj calls]
    exact List.mem_map_of_mem listed

theorem after_match (orderly : desk.script.Orderly) (matched : desk.script.CallsMatch) (move : Move) :
    (desk.after move).script.CallsMatch ↔ desk.outdated move = false := by
  cases move with
  | reshape guid inputs outputs => exact iff_of_true (Script.reshape_match guid inputs outputs orderly matched) rfl
  | removeFunction guid => exact iff_of_true (Script.remove_function_match guid orderly.distinct matched) rfl
  | addCall address guid =>
    refine iff_of_true ?_ rfl
    rw [after]
    split
    · exact matched
    · next function found => exact desk.add_call_match address (List.mem_of_find?_eq_some found) matched
  | removeNode address index => exact iff_of_true (desk.edit_match address _ (Graph.remove_node_kept index) matched) rfl
  | connect address source output target input =>
    exact iff_of_true (desk.edit_match address _ (Graph.connect_kept source output target input) matched) rfl
  | disconnect address target input =>
    exact iff_of_true (desk.edit_match address _ (Graph.disconnect_kept target input) matched) rfl
  | connectExec address source output target input =>
    exact iff_of_true (desk.edit_match address _ (Graph.connect_exec_kept source output target input) matched) rfl
  | disconnectExec address source output =>
    exact iff_of_true (desk.edit_match address _ (Graph.set_target_kept source output none) matched) rfl
  | copy =>
    refine iff_of_true ?_ rfl
    rw [after]
    split <;> exact matched
  | paste address index offset =>
    rw [after, outdated]
    cases desk.clips[index]? with
    | none => exact iff_of_true matched (Bool.and_false _)
    | some clip =>
      dsimp only
      rw [Script.paste_match address clip.text offset matched, Option.any_some]
      cases desk.script.graph? address <;> simp
  | compile => exact iff_of_true ((Script.compile_all_match desk.script).2 matched) rfl

theorem history_orderly (history : List Move) (desk : Desk) (orderly : desk.script.Orderly) :
    (history.foldl after desk).script.Orderly := by
  induction history generalizing desk with
  | nil => exact orderly
  | cons move rest ih => exact ih _ (desk.after_orderly orderly move)

theorem history_match (history : List Move) (desk : Desk) (orderly : desk.script.Orderly) (matched : desk.script.CallsMatch)
    (current : desk.neverOutdated history = true) : (history.foldl after desk).script.CallsMatch := by
  induction history generalizing desk with
  | nil => exact matched
  | cons move rest ih =>
    obtain ⟨first, later⟩ := Bool.and_eq_true_iff.mp current
    have kept := (desk.after_match orderly matched move).mpr ((Bool.not_eq_true' _).mp first)
    exact ih _ (desk.after_orderly orderly move) kept later

structure Copied (history : List Move) (desk : Desk) (clip : Clip) : Prop where
  earlier : ∃ first rest, history = first ++ rest ∧ clip.origin = (first.foldl after desk).script
  copied : ∃ address selection, clip.origin.copyNodes address selection = .ok clip.text

theorem after_clips {move : Move} (inside : clip ∈ (desk.after move).clips) :
    clip ∈ desk.clips ∨ clip.origin = desk.script ∧
      ∃ address selection, clip.origin.copyNodes address selection = .ok clip.text := by
  cases move with
  | copy address selection =>
    rw [after] at inside
    split at inside
    · exact .inl inside
    · next text made =>
        rcases List.mem_append.mp inside with was | new
        · exact .inl was
        · rw [List.mem_singleton.mp new]
          exact .inr ⟨rfl, address, selection, made⟩
  | addCall | paste =>
    rw [after] at inside
    split at inside <;> exact .inl inside
  | _ => exact .inl inside

theorem history_clips {history : List Move} (desk : Desk) (inside : clip ∈ (history.foldl after desk).clips) :
    clip ∈ desk.clips ∨ Copied history desk clip := by
  induction history generalizing desk with
  | nil => exact .inl inside
  | cons move rest ih =>
    rcases ih (desk.after move) inside with there | ⟨⟨first, others, parts, origin⟩, copied⟩
    · rcases desk.after_clips there with was | ⟨origin, copied⟩
      · exact .inl was
      · exact .inr ⟨⟨[], move :: rest, rfl, origin⟩, copied⟩
    · exact .inr ⟨⟨move :: first, others, congrArg (move :: ·) parts, origin⟩, copied⟩

end Desk

theorem Clip.calls_signed (clip : Clip) {address : GraphAddress} {selection : List Nat}
    (copied : clip.origin.copyNodes address selection = .ok clip.text) (matched : clip.origin.CallsMatch) :
    ∀ call ∈ Graph.clippedCalls clip.text, call ∈ clip.origin.signatures := by
  intro call inside
  rw [Script.copyNodes] at copied
  split at copied
  · cases copied
  · next graph found =>
      exact matched graph (Script.graph_listed address clip.origin found) call (graph.copied_calls copied inside)

end Patchbay
