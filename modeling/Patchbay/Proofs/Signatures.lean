import Patchbay.Proofs.Fixtures

set_option autoImplicit false

namespace Patchbay

/-- Names and types of what goes into a call and of what comes out of it. -/
structure Signature where
  inputs : List Parameter
  outputs : List Parameter
deriving DecidableEq

def Body.signature (body : Body) : Signature := ⟨body.inputs, body.outputs⟩

def InputPin.parameter (pin : InputPin) : Parameter := ⟨pin.name, pin.type⟩

def OutputPin.parameter (pin : OutputPin) : Parameter := ⟨pin.name, pin.type⟩

namespace Node

def signature (node : Node) : Signature := ⟨node.inputs.map (·.parameter), node.outputs.map (·.parameter)⟩

/-- The function that a node calls, with the signature that the node has for it. Other nodes have none. -/
def call? (node : Node) : Option (Guid × Signature) :=
  match node.kind with
  | .callFunction guid => some (guid, node.signature)
  | _ => none

def site (node : Node) : NodeKind × Option (Guid × Signature) := (node.kind, node.call?)

variable (node : Node)

theorem call_of_kind {guid : Guid} (kind : node.kind = .callFunction guid) :
    node.call? = some (guid, node.signature) := by
  rw [call?, kind]

theorem call_known {call : Guid × Signature} (calls : node.call? = some call) :
    node.kind = .callFunction call.1 ∧ node.signature = call.2 := by
  unfold call? at calls
  split at calls
  · next guid kind =>
      cases calls
      exact ⟨kind, rfl⟩
  · cases calls

theorem call_other (other : ∀ guid, node.kind ≠ .callFunction guid) : node.call? = none := by
  cases calls : node.call? with
  | none => rfl
  | some call => exact absurd (node.call_known calls).1 (other call.1)

theorem call_congr (node other : Node) (kind : other.kind = node.kind) (signature : other.signature = node.signature) :
    other.call? = node.call? := by
  simp only [call?, kind, signature]

theorem made_call (guid : Guid) (name : String) (inputs outputs : List Parameter) :
    (Node.callFunction guid name inputs outputs).call? = some (guid, ⟨inputs, outputs⟩) := by
  have pins : (parameterInputs inputs).map InputPin.parameter = inputs := by
    rw [parameterInputs, List.map_map]
    exact List.map_id inputs
  have results : (parameterOutputs outputs).map OutputPin.parameter = outputs := by
    rw [parameterOutputs, List.map_map]
    exact List.map_id outputs
  exact congrArg (fun signature => some (guid, signature)) (congrArg₂ Signature.mk pins results)

theorem renumber_call (rename : Nat → Option Nat) (node : Node) : (node.renumber rename).call? = node.call? := by
  refine call_congr node _ rfl (congrArg (Signature.mk · _) ?_)
  rw [renumber, List.map_map]
  rfl

theorem rewire_call (rename : Nat → Option Nat) (node : Node) : (node.rewire rename).call? = node.call? := by
  refine Eq.trans (call_congr (node.renumber rename) (node.rewire rename) rfl ?_) (node.renumber_call rename)
  refine congrArg (Signature.mk · _) ?_
  rw [rewire, List.map_map]
  rfl

theorem prune_call (nodes : List Node) (node : Node) : (node.prune nodes).call? = node.call? := by
  refine call_congr node _ rfl (congrArg (Signature.mk · _) ?_)
  rw [prune, List.map_map]
  refine List.map_congr_left fun pin _ => ?_
  simp only [Function.comp, InputPin.prune]
  split <;> rfl

theorem with_reference_call {reference : Reference} (converted : Reference)
    (named : node.kind.reference? = some reference) :
    { node with kind := node.kind.withReference converted }.call? = node.call? := by
  have plain (other : Node) (reference : Reference) (named : other.kind.reference? = some reference) : other.call? = none := by
    refine call_other other fun guid kind => ?_
    rw [kind] at named
    cases named
  rw [plain node reference named, plain _ converted]
  exact (with_reference node.kind converted).trans (by rw [named]; rfl)

variable {locals globals : List Variable} {form : ReferenceForm}

theorem convert_variable_call (node : Node) {other : Node}
    (made : node.convertVariable? locals globals form = some other) : other.call? = node.call? := by
  unfold convertVariable? at made
  split at made
  · cases made
    rfl
  · next reference named =>
      obtain ⟨converted, _, rfl⟩ := Option.map_eq_some_iff.mp made
      exact node.with_reference_call converted named

theorem convert_reference_call {functions : List Guid} (node : Node) {other : Node}
    (made : node.convertReference? locals globals functions form = some other) : other.call? = node.call? := by
  unfold convertReference? at made
  split at made
  · next reference named =>
      obtain ⟨converted, _, rfl⟩ := Option.map_eq_some_iff.mp made
      exact node.with_reference_call converted named
  · split at made
    · split at made <;> cases made
      rfl
    · cases made
      rfl

end Node

theorem align_all_inputs (parameters : List Parameter) (pins : List InputPin) (index : Nat) :
    ((InputPin.alignAll index parameters pins).map (·.1)).map InputPin.parameter = parameters := by
  induction parameters generalizing pins index with
  | nil => rfl
  | cons parameter rest ih =>
    cases pins with
    | nil => exact congrArg (parameter :: ·) (ih [] (index + 1))
    | cons pin pins =>
      refine congrArg₂ List.cons ?_ (ih pins (index + 1))
      by_cases same : pin.type = parameter.type
      · rw [InputPin.align, if_pos same]
        exact congrArg (Parameter.mk parameter.name) same
      · rw [InputPin.align, if_neg same]
        rfl

theorem align_all_outputs (parameters : List Parameter) (pins : List OutputPin) (index : Nat) :
    ((OutputPin.alignAll index parameters pins).map (·.1)).map OutputPin.parameter = parameters := by
  induction parameters generalizing pins index with
  | nil => rfl
  | cons parameter rest ih =>
    cases pins with
    | nil => exact congrArg (parameter :: ·) (ih [] (index + 1))
    | cons pin pins => exact congrArg (parameter :: ·) (ih pins (index + 1))

theorem sync_signature (inputs outputs : List Parameter) (node : Node) :
    ((node.syncInputs inputs).1.syncOutputs outputs).1.signature = ⟨inputs, outputs⟩ :=
  congrArg₂ Signature.mk (align_all_inputs inputs node.inputs 0) (align_all_outputs outputs node.outputs 0)

theorem call_bones (node : Node) : node.bones.call? = node.call? := by
  refine node.call_congr node.bones rfl (congrArg (Signature.mk · _) ?_)
  exact List.map_map

namespace Graph

def calls (graph : Graph) : List (Guid × Signature) := graph.nodes.filterMap Node.call?

def Callable (graph : Graph) : Prop := [NodeKind.functionEntry, .functionReturn] <+: graph.nodes.map (·.kind)

instance (graph : Graph) : Decidable graph.Callable := inferInstanceAs (Decidable (_ <+: _))

variable (graph : Graph)

theorem callable_iff : graph.Callable ↔ graph.BeginsWith [.functionEntry, .functionReturn] :=
  (begins_iff _ (by decide) graph).symm

theorem call_listed {node : Node} (inside : node ∈ graph.nodes) (call : Guid × Signature)
    (calls : node.call? = some call) : call ∈ graph.calls :=
  List.mem_filterMap.mpr ⟨node, inside, calls⟩

/-- Afterwards there are no calls that were not there before, and entry and return are in place. -/
structure CallsKept (before after : Graph) : Prop where
  calls : after.calls ⊆ before.calls
  callable : before.Callable → after.Callable

theorem calls_kept_trans {first second third : Graph} (left : CallsKept first second) (right : CallsKept second third) :
    CallsKept first third :=
  ⟨List.Subset.trans right.calls left.calls, fun callable => right.callable (left.callable callable)⟩

def sites (graph : Graph) : List (NodeKind × Option (Guid × Signature)) := graph.nodes.map (·.site)

theorem calls_of_sites : graph.calls = graph.sites.filterMap (·.2) := by
  rw [sites, List.filterMap_map]
  rfl

theorem kinds_of_sites : graph.nodes.map (·.kind) = graph.sites.map (·.1) := by
  rw [sites, List.map_map]
  rfl

variable {before after : Graph}

theorem same_sites_kept (same : after.sites = before.sites) : CallsKept before after := by
  refine ⟨fun call inside => ?_, fun callable => ?_⟩
  · rwa [calls_of_sites, ← same, ← calls_of_sites]
  · rwa [Callable, kinds_of_sites, same, ← kinds_of_sites]

theorem modify_site (index : Nat) (node : Node) {changed : Node} {graph : Graph} (found : graph.nodes[index]? = some node)
    (same : changed.site = node.site) : CallsKept graph (graph.modifyNode index fun _ => changed) :=
  same_sites_kept (modify_view_found Node.site (fun _ => changed) found same)

theorem uncompile_kept (kept : CallsKept before after) : CallsKept before after.uncompile :=
  ⟨kept.calls, kept.callable⟩

end Graph

theorem connection_changed_site (input : Nat) (type : Option PinType) (node : Node) {changed : Node}
    (same : changed.site = node.site) : (changed.connectionChanged input type).1.site = node.site := by
  rw [← same]
  by_cases value : changed.kind = .switch ∧ input = switchValuePin
  · rw [Node.connectionChanged, if_pos value]
    have kind (type : PinType) : (changed.retypeSwitch type).1.kind = .switch := by
      rw [← value.1]
      unfold Node.retypeSwitch
      split
      · rfl
      · split <;> rfl
    have plain (node : Node) (switch : node.kind = .switch) : node.site = (.switch, none) := by
      rw [Node.site, switch, node.call_other (by simp [switch])]
    rw [plain _ (kind _), plain changed value.1]
  · rw [Node.connectionChanged, if_neg value]

theorem site_aloof : Aloof Node.site where
  pruned nodes node := congrArg (Prod.mk node.kind) (node.prune_call nodes)
  linked node input change type kept := by
    refine connection_changed_site input type node ?_
    refine congrArg (Prod.mk node.kind) (Node.call_congr node _ rfl (congrArg (Signature.mk · _) ?_))
    refine modify_layout InputPin.parameter input change node.inputs fun pin => ?_
    exact congrArg₂ Parameter.mk (kept pin).1 (kept pin).2
  aimed _ _ _ := rfl

namespace Graph

theorem prune_sites (graph : Graph) : graph.prune.1.sites = graph.sites := site_aloof.prune graph

theorem connect_kept (source output target input : Nat) (graph : Graph) :
    CallsKept graph (Edit.connect source output target input graph).2 :=
  same_sites_kept (site_aloof.connect graph source output target input)

theorem disconnect_kept (target input : Nat) (graph : Graph) : CallsKept graph (Edit.disconnect target input graph).2 :=
  same_sites_kept (site_aloof.disconnect graph target input)

theorem set_target_kept (source output : Nat) (target : Option ExecTarget) (graph : Graph) :
    CallsKept graph (Edit.setTarget source output target graph).2 :=
  same_sites_kept (site_aloof.set_target graph source output target)

theorem connect_exec_kept (source output target input : Nat) (graph : Graph) :
    CallsKept graph (Edit.connectExec source output target input graph).2 :=
  same_sites_kept (site_aloof.connect_exec graph source output target input)

theorem erase_calls (index : Nat) (graph : Graph) : (graph.eraseNode index).calls ⊆ graph.calls := by
  intro call inside
  obtain ⟨node, there, calls⟩ := List.mem_filterMap.mp inside
  obtain ⟨old, was, rfl⟩ := List.mem_map.mp there
  exact graph.call_listed (List.mem_of_mem_eraseIdx was) call ((old.renumber_call _).symm.trans calls)

theorem remove_node_kept (index : Nat) (graph : Graph) : CallsKept graph (Edit.removeNode index graph).2 := by
  refine ⟨?_, fun callable => ?_⟩
  · apply after_keeps (fun after => after.calls ⊆ graph.calls) (List.Subset.refl _)
    intro node _
    by_cases deletable : node.isDeletable = true
    · rw [if_pos deletable]
      exact graph.erase_calls index
    · rw [if_neg deletable]
      exact List.Subset.refl _
  · exact (callable_iff _).mpr (remove_node_begins _ index (graph.callable_iff.mp callable))

variable {globals : List Variable} {call : Guid × Signature} {function : Guid}

theorem convert_calls {functions : List Guid} {form : ReferenceForm} (graph : Graph)
    (inside : call ∈ (graph.convertReferences globals functions form).1.calls) :
    call ∈ graph.calls ∧ call.1 ∈ functions := by
  obtain ⟨node, there, calls⟩ := List.mem_filterMap.mp inside
  refine graph.convert_keeps globals functions form
    (fun node => ∀ call, node.call? = some call → call ∈ graph.calls ∧ call.1 ∈ functions)
    (fun _ node kept call calls => kept call ((node.renumber_call _).symm.trans calls)) ?_ node there call calls
  intro node inside other made call calls
  have same := node.convert_reference_call made
  refine ⟨graph.call_listed inside call (same.symm.trans calls), ?_⟩
  simpa using (node.converted graph.locals globals functions made).function call.1 (other.call_known calls).1

theorem convert_callable (globals : List Variable) (functions : List Guid) (form : ReferenceForm) (graph : Graph)
    (callable : graph.Callable) : (graph.convertReferences globals functions form).1.Callable :=
  (callable_iff _).mpr (convert_begins _ globals functions form (graph.callable_iff.mp callable))

theorem sync_node_call (inputs outputs : List Parameter) {node : Node} (isCall : node.kind = .callFunction function) :
    ((node.syncInputs inputs).1.syncOutputs outputs).1.call? = some (function, ⟨inputs, outputs⟩) := by
  rw [← sync_signature inputs outputs node]
  exact Node.call_of_kind _ isCall

theorem sync_calls_signed {inputs outputs : List Parameter} (graph : Graph)
    (inside : call ∈ (graph.syncCalls function inputs outputs).1.calls) :
    call.1 = function ∧ call.2 = ⟨inputs, outputs⟩ ∨ call.1 ≠ function ∧ call ∈ graph.calls := by
  by_cases none : (graph.nodes.filter fun node => node.kind == .callFunction function).length = 0
  · rw [syncCalls, if_pos none] at inside
    refine .inr ⟨fun same => ?_, inside⟩
    obtain ⟨node, there, calls⟩ := List.mem_filterMap.mp inside
    have isCall := (node.call_known calls).1
    exact List.filter_eq_nil_iff.mp (List.length_eq_zero_iff.mp none) node there (beq_iff_eq.mpr (same ▸ isCall))
  · rw [syncCalls, if_neg none] at inside
    have pruned := (same_sites_kept (prune_sites { graph with nodes := _ })).calls inside
    obtain ⟨node, there, calls⟩ := List.mem_filterMap.mp pruned
    obtain ⟨old, was, rfl⟩ := List.mem_map.mp there
    by_cases isCall : old.kind = .callFunction function
    · rw [if_pos (beq_iff_eq.mpr isCall)] at calls
      cases (sync_node_call inputs outputs isCall).symm.trans calls
      exact .inl ⟨rfl, rfl⟩
    · rw [if_neg (mt beq_iff_eq.mp isCall)] at calls
      refine .inr ⟨fun same => isCall ?_, graph.call_listed was call calls⟩
      rw [(old.call_known calls).1, same]

theorem sync_calls_callable (function : Guid) (inputs outputs : List Parameter) (graph : Graph) (callable : graph.Callable) :
    (graph.syncCalls function inputs outputs).1.Callable :=
  (callable_iff _).mpr (begins_congr _ (sync_calls_fixtures function inputs outputs graph)
    (graph.callable_iff.mp callable))

theorem adopt_sites (kept : List (Nat × Node)) (offset : Position) (graph : Graph) :
    (graph.adoptNodes kept offset).sites = graph.sites ++ kept.map (·.2.site) := by
  rw [adoptNodes, prune_sites, sites, add_all_nodes, List.map_append, List.map_map]
  refine congrArg _ (List.map_congr_left fun entry _ => ?_)
  exact congrArg (Prod.mk entry.2.kind) (entry.2.rewire_call _)

def clippedCalls (text : String) : List (Guid × Signature) := ((clipboardNodes? Document.parse? text).getD []).filterMap Node.call?

theorem kept_calls (globals : List Variable) (functions : List Guid) (locals : List Variable) (nodes : List Node)
    (call : Guid × Signature) :
    (∃ entry ∈ keepResolved (adoptNode? globals functions locals) ((List.range nodes.length).zip nodes),
      entry.2.call? = some call) ↔ call ∈ nodes.filterMap Node.call? ∧ call.1 ∈ functions := by
  have numbered : ((List.range nodes.length).zip nodes).map Prod.snd = nodes := List.map_snd_zip (by simp)
  constructor
  · rintro ⟨entry, kept, calls⟩
    obtain ⟨pair, inside, made⟩ := List.mem_filterMap.mp kept
    obtain ⟨other, adopted, rfl⟩ := Option.map_eq_some_iff.mp made
    have listed : pair.2 ∈ nodes := numbered ▸ List.mem_map_of_mem inside
    rw [Node.adopted_converts] at adopted
    have same := pair.2.convert_reference_call adopted
    refine ⟨List.mem_filterMap.mpr ⟨pair.2, listed, same.symm.trans calls⟩, ?_⟩
    simpa using (pair.2.converted locals globals functions adopted).function call.1 (other.call_known calls).1
  · rintro ⟨inside, known⟩
    obtain ⟨node, listed, calls⟩ := List.mem_filterMap.mp inside
    obtain ⟨pair, there, rfl⟩ := List.mem_map.mp (numbered.symm ▸ listed)
    refine ⟨pair, List.mem_filterMap.mpr ⟨pair, there, Option.map_eq_some_iff.mpr ⟨pair.2, ?_, rfl⟩⟩, calls⟩
    simp only [adoptNode?, (pair.2.call_known calls).1, List.contains_iff_mem.mpr known, if_true]

theorem pasted_calls (globals : List Variable) (functions : List Guid) (text : String) (offset : Position) (graph : Graph)
    (call : Guid × Signature) : call ∈ (Edit.pasteNodes globals functions text offset graph).2.calls ↔
      call ∈ graph.calls ∨ call ∈ clippedCalls text ∧ call.1 ∈ functions := by
  unfold Edit.pasteNodes Edit.pasteNodesWith
  cases read : clipboardNodes? Document.parse? text with
  | none => simp [clippedCalls, read]
  | some =>
    rw [clippedCalls, read, Option.getD_some, ← kept_calls globals functions graph.locals, calls_of_sites, adopt_sites,
      List.filterMap_append, ← calls_of_sites, List.mem_append, List.filterMap_map, List.mem_filterMap]
    rfl

theorem pasted_callable (globals : List Variable) (functions : List Guid) (text : String) (offset : Position) (graph : Graph)
    (callable : graph.Callable) : (Edit.pasteNodes globals functions text offset graph).2.Callable :=
  (callable_iff _).mpr (paste_begins _ globals functions text offset (graph.callable_iff.mp callable))

theorem copied_calls {selection : List Nat} (graph : Graph) {text : String}
    (copied : graph.copyNodes selection globals = .ok text) : clippedCalls text ⊆ graph.calls := by
  intro call inside
  rw [clippedCalls] at inside
  cases read : clipboardNodes? Document.parse? text with
  | none =>
    rw [read] at inside
    cases inside
  | some nodes =>
    rw [read, Option.getD_some] at inside
    obtain ⟨value, there, calls⟩ := List.mem_filterMap.mp inside
    have same := clipboard_view Node.call? call_bones copied read
    have listed : value.call? ∈ nodes.map Node.call? := List.mem_map_of_mem there
    rw [same, calls] at listed
    obtain ⟨node, written, calls⟩ := List.mem_map.mp listed
    obtain ⟨entry, kept, rfl⟩ := List.mem_map.mp written
    obtain ⟨pair, selected, made⟩ := List.mem_filterMap.mp kept
    obtain ⟨other, converted, rfl⟩ := Option.map_eq_some_iff.mp made
    refine graph.call_listed (List.mem_of_getElem? (selectable_origin selection graph pair selected)) call ?_
    rw [← calls, Node.rewire_call]
    exact (pair.2.convert_variable_call converted).symm

end Graph

namespace Body

theorem callable_checked (body : Body) (callable : body.graph.Callable) : body.checkStructure = .ok () := by
  obtain ⟨rest, kinds⟩ := callable
  have expected (index : Nat) (kind : NodeKind) (here : ([.functionEntry, .functionReturn] ++ rest)[index]? = some kind) :
      expectKind index kind body.graph = .ok () := by
    rw [kinds, List.getElem?_map] at here
    obtain ⟨node, found, same⟩ := Option.map_eq_some_iff.mp here
    simp only [expectKind, found, same, if_true]
  rw [checkStructure, expected entryNode .functionEntry rfl]
  exact expected returnNode .functionReturn rfl

theorem callable_rebuilds (body : Body) (callable : body.graph.Callable) : ∃ answer, body.rebuild = .ok answer := by
  rw [rebuild, body.callable_checked callable]
  exact ⟨_, rfl⟩

theorem reshaped_kept {entry returned : Node} (body : Body) (framed : body.Framed entry returned) :
    Graph.CallsKept body.graph (body.reshaped entry returned).prune.1 := by
  have plain (node changed : Node) (kind : changed.kind = node.kind) (other : ∀ guid, node.kind ≠ .callFunction guid) :
      changed.site = node.site := by
    rw [Node.site, Node.site, node.call_other other, changed.call_other (by rwa [kind]), kind]
  refine Graph.calls_kept_trans ?_ (Graph.same_sites_kept (Graph.prune_sites _))
  refine Graph.uncompile_kept (Graph.calls_kept_trans (Graph.uncompile_kept
    (Graph.modify_site entryNode entry framed.entered ?_)) (Graph.modify_site returnNode returned ?_ ?_))
  · exact plain entry _ rfl (by simp [framed.isEntry])
  · exact return_stays _ body.graph.nodes returned framed.left
  · exact plain returned _ rfl (by simp [framed.isReturn])

end Body

end Patchbay
