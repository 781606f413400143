import Patchbay.Node.Make
import Patchbay.Proofs.CompiledFlag
import Patchbay.Proofs.WellFormed

set_option autoImplicit false

namespace Patchbay

variable {graph : Graph} {target input index : Nat} {node : Node} {body : Body}

theorem connection_checked {source output : Nat} {type : PinType}
    (checked : graph.checkConnection source output target input = .ok (type, node)) :
    source ≠ target ∧ graph.nodes[target]? = some node ∧ ∃ pin, node.inputs[input]? = some pin ∧ pin.literalOnly = false ∧
      ∃ feeding outputPin, graph.nodes[source]? = some feeding ∧ feeding.outputs[output]? = some outputPin ∧
        outputPin.type = type ∧ pin.type.assignable type = true := by
  unfold Graph.checkConnection at checked
  split at checked
  · cases checked
  · next apart =>
      obtain ⟨feeding, sourceFound, checked⟩ := bind_ok _ checked
      obtain ⟨outputPin, outputFound, checked⟩ := bind_ok _ checked
      obtain ⟨reading, targetFound, checked⟩ := bind_ok _ checked
      obtain ⟨pin, inputFound, checked⟩ := bind_ok _ checked
      split at checked
      · cases checked
      · next open' =>
          split at checked
          · cases checked
          · next fits =>
              cases checked
              exact ⟨apart, node_found targetFound, pin, pin_found inputFound,
                by simpa using open', feeding, outputPin, node_found sourceFound,
                pin_found outputFound, rfl, by simpa using fits⟩

theorem resource_formed (node : Node) (index input : Nat) (pin : InputPin) (change : InputPin → InputPin)
    (found : node.inputs[input]? = some pin) (types : ∀ pin, (change pin).type = pin.type)
    (flags : ∀ pin, (change pin).literalOnly = pin.literalOnly)
    (setting : pin.literalOnly = true → (change pin).source = none)
    (others : ∀ source, (change pin).source = some source → source.node ≠ index) (formed : node.WellFormedAt index) :
    { node with inputs := node.inputs.modify input change }.WellFormedAt index := by
  refine ⟨?_, ?_, formed.casts, ?_⟩
  · intro other inside source connected
    obtain there | ⟨old, here, rfl⟩ := mem_modify input change node.inputs other inside
    · exact formed.others other there source connected
    · obtain rfl : pin = old := Option.some.inj (found.symm.trans here)
      exact others source connected
  · intro other inside isSetting
    obtain there | ⟨old, here, rfl⟩ := mem_modify input change node.inputs other inside
    · exact formed.settings other there isSetting
    · obtain rfl : pin = old := Option.some.inj (found.symm.trans here)
      exact setting ((flags pin).symm.trans isSetting)
  · intro isSwitch
    obtain ⟨value, first, typed⟩ := formed.switches isSwitch
    obtain ⟨new, there, alike⟩ := get_of_map_eq InputPin.type (modify_layout InputPin.type input change node.inputs types) first
    exact ⟨new, there, fun pin inside case has => (typed pin inside case has).trans alike.symm⟩

theorem retype_formed (type : PinType) (isSwitch : node.kind = .switch)
    (formed : node.WellFormedAt index) : (node.retypeSwitch type).1.WellFormedAt index := by
  unfold Node.retypeSwitch
  split
  · exact formed
  · next pin rest inputs =>
      split
      · exact formed
      · have others := formed.others
        have settings := formed.settings
        rw [inputs, List.forall_mem_cons] at others settings
        refine ⟨List.forall_mem_cons.mpr others, List.forall_mem_cons.mpr settings, ?_, fun _ => ?_⟩
        · intro target isCast
          simp only [isSwitch, NodeKind.castTarget?] at isCast
          cases isCast
        · refine ⟨_, rfl, fun out inside case has => ?_⟩
          obtain ⟨old, _, rfl⟩ := List.mem_map.mp inside
          obtain ⟨_, _, rfl⟩ := Option.map_eq_some_iff.mp has
          rfl

theorem connection_changed_formed (input : Nat) (source : Option PinType) (node : Node) (index : Nat)
    (formed : node.WellFormedAt index) : (node.connectionChanged input source).1.WellFormedAt index := by
  unfold Node.connectionChanged
  split
  · next changes => exact retype_formed _ changes.1 formed
  · exact formed

theorem connection_changed_quiet (input : Nat) (source : Option PinType) (node : Node)
    (quiet : (node.connectionChanged input source).2.any (·.reshapes) = false) :
    (node.connectionChanged input source).1 = node := by
  unfold Node.connectionChanged at quiet ⊢
  split
  · next changes =>
      rw [if_pos changes] at quiet
      unfold Node.retypeSwitch at quiet ⊢
      split
      · rfl
      · next pin rest inputs =>
          rw [inputs] at quiet
          dsimp only at quiet
          split
          · rfl
          · next other =>
              rw [if_neg other] at quiet
              cases quiet
  · rfl

theorem replace_well_formed (graph : Graph) (index : Nat) (node : Node) (change : Node × List NodeAction)
    (found : graph.nodes[index]? = some node) (formed : change.1.WellFormedAt index)
    (quiet : change.2.any (·.reshapes) = false →
      change.1.outputs = node.outputs ∧ change.1.execIn = node.execIn ∧ change.1.LinkedIn graph.nodes)
    (before : graph.WellFormed) : (graph.replaceNode index change).WellFormed := by
  refine settle_well_formed change.2 (tidy_modify index node found formed before.tidy) fun calm => ?_
  obtain ⟨outputs, pins, linked⟩ := quiet calm
  exact modify_well_formed graph index node change.1 found (by rw [outputs]) (by rw [pins]) formed linked before

theorem connect_well_formed (source output target input : Nat) (before : graph.WellFormed) :
    (Edit.connect source output target input graph).2.WellFormed := by
  apply after_keeps Graph.WellFormed before
  intro ⟨type, node⟩ checked
  obtain ⟨apart, found, pin, pinFound, free, feeding, outputPin, sourceFound, outputFound, rfl, assignable⟩ :=
    connection_checked checked
  have formed := before.tidy target node found
  have linked := before.linked node (List.mem_of_getElem? found)
  have connected := resource_formed node target input pin (fun pin => { pin with source := some ⟨source, output⟩ }) pinFound
    (fun _ => rfl) (fun _ => rfl) (fun setting => by rw [free] at setting; cases setting)
    (fun other same => by cases same; exact apart) formed
  apply uncompile_well_formed
  refine replace_well_formed graph target node _ found (connection_changed_formed input _ _ target connected) ?_ before
  intro quiet
  rw [connection_changed_quiet input _ _ quiet]
  refine ⟨rfl, rfl, fun other inside feeds same => ?_, linked.targets⟩
  obtain there | ⟨old, here, rfl⟩ := mem_modify input _ node.inputs other inside
  · exact linked.sources other there feeds same
  · obtain rfl : pin = old := Option.some.inj (pinFound.symm.trans here)
    cases same
    exact ⟨feeding, outputPin, sourceFound, outputFound, assignable⟩

theorem disconnect_well_formed (target input : Nat) (before : graph.WellFormed) :
    (Edit.disconnect target input graph).2.WellFormed := by
  apply after_keeps Graph.WellFormed before
  intro ⟨node, pin⟩ there
  obtain ⟨found, pinFound⟩ := pin_at_found there
  dsimp only
  split
  · exact before
  · have linked := before.linked node (List.mem_of_getElem? found)
    have cut := resource_formed node target input pin InputPin.detach pinFound (fun _ => rfl) (fun _ => rfl) (fun _ => rfl)
      (fun _ same => by cases same) (before.tidy target node found)
    apply uncompile_well_formed
    refine replace_well_formed graph target node _ found (connection_changed_formed input _ _ target cut) ?_ before
    intro quiet
    rw [connection_changed_quiet input _ _ quiet]
    refine ⟨rfl, rfl, linked_pins graph.nodes node _ (fun other inside => ?_)
      (fun other inside => .inr ⟨other, inside, rfl⟩) linked⟩
    obtain there | ⟨old, _, rfl⟩ := mem_modify input _ node.inputs other inside
    · exact .inr ⟨other, there, rfl, rfl⟩
    · exact .inl rfl

theorem set_target_well_formed (source output : Nat) (target : Option ExecTarget)
    (admits : ∀ place, target = some place → Admits graph.nodes place) (before : graph.WellFormed) :
    (Edit.setTarget source output target graph).2.WellFormed := by
  apply after_keeps Graph.WellFormed before
  intro ⟨node, pin⟩ there
  obtain ⟨found, _⟩ := pin_at_found there
  have linked := before.linked node (List.mem_of_getElem? found)
  apply uncompile_well_formed
  refine modify_well_formed graph source node _ found rfl rfl ?_ ⟨linked.sources, ?_⟩ before
  · refine well_formed_outline node _ source ?_ (before.tidy source node found)
    simp only [Node.outline, Outline.mk.injEq, true_and]
    exact modify_layout ExecPin.caseType output _ node.execOut fun _ => rfl
  · intro other inside place leads
    obtain there | ⟨old, _, rfl⟩ := mem_modify output _ node.execOut other inside
    · exact linked.targets other there place leads
    · exact admits place leads

theorem entrance_checked (checked : graph.checkEntrance target input = .ok ()) :
    Admits graph.nodes ⟨target, input⟩ := by
  unfold Graph.checkEntrance at checked
  obtain ⟨node, found, checked⟩ := bind_ok _ checked
  split at checked
  · cases checked
  · split at checked
    · cases checked
    · next inside => exact ⟨node, node_found found, Nat.lt_of_not_le inside⟩

theorem connect_exec_well_formed (source output target input : Nat) (before : graph.WellFormed) :
    (Edit.connectExec source output target input graph).2.WellFormed := by
  apply after_keeps Graph.WellFormed before
  intro _ checked
  refine set_target_well_formed source output _ (fun place same => ?_) before
  cases same
  exact entrance_checked checked

theorem remove_node_well_formed (index : Nat) (before : graph.WellFormed) :
    (Edit.removeNode index graph).2.WellFormed := by
  apply after_keeps Graph.WellFormed before
  intro node _
  split
  · exact erase_well_formed index before
  · exact before

variable (kind : NodeKind) (name : String) (inputs : List InputPin) (outputs : List OutputPin) (parameters : List Parameter)

theorem retarget_formed {target : PinType} (isCast : kind.castTarget? = some target)
    (wasCast : node.kind.castTarget?.isSome = true) (formed : node.WellFormedAt index) :
    ({ node with kind := kind }.retarget target).1.WellFormedAt index ∧
      ({ node with kind := kind }.retarget target).2.any (·.reshapes) = true := by
  obtain ⟨old, before⟩ := Option.isSome_iff_exists.mp wasCast
  obtain ⟨first, found, _⟩ := formed.casts old before
  cases outputs : node.outputs with
  | nil => simp [outputs] at found
  | cons =>
    simp only [Node.retarget]
    refine ⟨⟨formed.others, formed.settings, fun type same => ?_, fun isSwitch => ?_⟩, rfl⟩
    · refine ⟨_, rfl, ?_⟩
      exact Option.some.inj (isCast.symm.trans same)
    · subst isSwitch
      cases isCast

theorem literal_changed_formed (input : Nat) (node : Node) (index : Nat) (formed : node.WellFormedAt index) :
    (node.literalChanged input).1.WellFormedAt index ∧
      ((node.literalChanged input).2.any (·.reshapes) = true ∨ (node.literalChanged input).1 = node) := by
  unfold Node.literalChanged
  split
  · split
    · next kind _ =>
        split
        · exact ⟨formed, .inr rfl⟩
        · obtain ⟨new, reshapes⟩ := retarget_formed (.cast _) rfl (by rw [kind]; rfl) formed
          exact ⟨new, .inl reshapes⟩
    · next kind _ =>
        split
        · exact ⟨formed, .inr rfl⟩
        · obtain ⟨new, reshapes⟩ := retarget_formed (.implicitCast _) rfl (by rw [kind]; rfl) formed
          exact ⟨new, .inl reshapes⟩
    · exact ⟨formed, .inr rfl⟩
  · exact ⟨formed, .inr rfl⟩

theorem set_literal_well_formed (index input : Nat) (literal : Value) (before : graph.WellFormed) :
    (Edit.setLiteral index input literal graph).2.WellFormed := by
  apply after_keeps Graph.WellFormed before
  intro ⟨node, pin⟩ there
  obtain ⟨found, _⟩ := pin_at_found there
  have outline : { node with inputs := node.inputs.modify input fun pin => { pin with literal := literal } }.outline =
      node.outline := by
    simp only [Node.outline, Outline.mk.injEq, true_and, and_true]
    exact modify_layout InputPin.outline input _ node.inputs fun _ => rfl
  obtain ⟨formed, changes⟩ := literal_changed_formed input _ index
    (well_formed_outline node _ index outline (before.tidy index node found))
  have linked := before.linked node (List.mem_of_getElem? found)
  have ready := replace_well_formed graph index node _ found formed (fun quiet => ?_) before
  · dsimp only
    split
    · exact ready
    · exact uncompile_well_formed _ ready
  · obtain reshapes | same := changes
    · rw [reshapes] at quiet
      cases quiet
    · rw [same]
      refine ⟨rfl, rfl, linked_pins graph.nodes node _ (fun other inside => ?_)
        (fun other inside => .inr ⟨other, inside, rfl⟩) linked⟩
      obtain there | ⟨old, here, rfl⟩ := mem_modify input _ node.inputs other inside
      · exact .inr ⟨other, there, rfl, rfl⟩
      · exact .inr ⟨old, List.mem_of_getElem? here, rfl, rfl⟩

theorem modify_node_found (graph : Graph) (index : Nat) (node : Node) (change : Node → Node)
    (found : graph.nodes[index]? = some node) : graph.modifyNode index change = graph.modifyNode index fun _ => change node := by
  refine congrArg (fun nodes => { graph with nodes := nodes }) (modify_at_congr graph.nodes index _ _ fun other there => ?_)
  rw [Option.some.inj (there.symm.trans found)]

theorem set_case_well_formed (index output : Nat) (value : Value) (before : graph.WellFormed) :
    (Edit.setCase index output value graph).2.WellFormed := by
  apply after_keeps Graph.WellFormed before
  intro ⟨node, pin⟩ there
  obtain ⟨found, pinFound⟩ := pin_at_found there
  have linked := before.linked node (List.mem_of_getElem? found)
  dsimp only
  split
  · exact before
  · next case had =>
      rw [modify_node_found graph index node _ found]
      refine modify_well_formed graph index node _ found rfl rfl ?_ (linked_pins graph.nodes node _
        (fun other inside => .inr ⟨other, inside, rfl, rfl⟩) (fun other inside => ?_) linked) before
      · refine well_formed_outline node _ index ?_ (before.tidy index node found)
        simp only [Node.outline, Outline.mk.injEq, true_and]
        refine modify_layout_at _ output _ node.execOut fun other there => ?_
        cases pinFound.symm.trans there
        simp [ExecPin.caseType, had]
      · obtain there | ⟨old, _, rfl⟩ := mem_modify output _ node.execOut other inside
        · exact .inr ⟨other, there, rfl⟩
        · exact .inr ⟨pin, List.mem_of_getElem? pinFound, rfl⟩

theorem grow_node_well_formed (grow : Node → Node × List NodeAction) (index : Nat)
    (outputs : ∀ node, (grow node).1.outputs = node.outputs) (pins : ∀ node, (grow node).1.execIn = node.execIn)
    (formed : ∀ node, node.WellFormedAt index → (grow node).1.WellFormedAt index)
    (linked : ∀ node, node.LinkedIn graph.nodes → (grow node).1.LinkedIn graph.nodes) (before : graph.WellFormed) :
    (Edit.growNode grow index graph).2.WellFormed := by
  apply after_keeps Graph.WellFormed before
  intro node there
  have found := node_found there
  have ready := modify_well_formed graph index node (grow node).1 found (by rw [outputs]) (by rw [pins])
    (formed node (before.tidy index node found)) (linked node (before.linked node (List.mem_of_getElem? found))) before
  dsimp only
  split
  · exact ready
  · exact uncompile_well_formed _ ready

theorem add_input_well_formed (index : Nat) (before : graph.WellFormed) :
    (Edit.addInput index graph).2.WellFormed := by
  refine grow_node_well_formed Node.addInput index ?_ ?_ ?_ ?_ before <;> intro node
  · unfold Node.addInput
    split <;> rfl
  · unfold Node.addInput
    split <;> rfl
  · intro formed
    unfold Node.addInput
    split
    · next kind =>
        refine ⟨?_, ?_, fun target isCast => ?_, fun isSwitch => ?_⟩
        · exact List.forall_mem_append.mpr ⟨formed.others, by simp [Node.itemPin, InputPin.fresh]⟩
        · exact List.forall_mem_append.mpr ⟨formed.settings, by simp [Node.itemPin, InputPin.fresh]⟩
        · simp [kind, NodeKind.castTarget?] at isCast
        · simp [kind] at isSwitch
    · exact formed
  · intro linked
    refine linked_pins graph.nodes node _ (fun pin inside => ?_) (fun pin inside => .inr ⟨pin, ?_, rfl⟩) linked
    · unfold Node.addInput at inside
      split at inside
      · obtain there | here := List.mem_append.mp inside
        · exact .inr ⟨pin, there, rfl, rfl⟩
        · exact .inl (by simp [List.mem_singleton.mp here, Node.itemPin, InputPin.fresh])
      · exact .inr ⟨pin, inside, rfl, rfl⟩
    · unfold Node.addInput at inside
      split at inside <;> exact inside

theorem add_output_formed (node : Node) (index : Nat) (formed : node.WellFormedAt index) :
    node.addOutput.1.WellFormedAt index := by
  unfold Node.addOutput
  split
  · next kind =>
      refine ⟨formed.others, formed.settings, formed.casts, fun isSwitch => ?_⟩
      simp [kind] at isSwitch
  · refine ⟨formed.others, formed.settings, formed.casts, fun isSwitch => ?_⟩
    obtain ⟨value, first, typed⟩ := formed.switches isSwitch
    refine ⟨value, first, List.forall_mem_append.mpr ⟨typed, fun pin here case has => ?_⟩⟩
    rw [List.mem_singleton.mp here] at has
    cases has
    simp only [Node.switchType, first, Option.map_some, Option.getD_some]
  · exact formed

theorem add_output_well_formed (index : Nat) (before : graph.WellFormed) :
    (Edit.addOutput index graph).2.WellFormed := by
  refine grow_node_well_formed Node.addOutput index ?_ ?_ (add_output_formed · index) ?_ before <;> intro node
  · unfold Node.addOutput
    split <;> rfl
  · unfold Node.addOutput
    split <;> rfl
  · intro linked
    refine linked_pins graph.nodes node _ (fun pin inside => .inr ⟨pin, ?_, rfl, rfl⟩) (fun pin inside => ?_) linked
    · unfold Node.addOutput at inside
      split at inside <;> exact inside
    · unfold Node.addOutput at inside
      split at inside
      · obtain there | here := List.mem_append.mp inside
        · exact .inr ⟨pin, there, rfl⟩
        · exact .inl (by rw [List.mem_singleton.mp here]; rfl)
      · obtain there | here := List.mem_append.mp inside
        · exact .inr ⟨pin, there, rfl⟩
        · exact .inl (by rw [List.mem_singleton.mp here]; rfl)
      · exact .inr ⟨pin, inside, rfl⟩

theorem align_all_sources (pins : List InputPin) (index : Nat) :
    ∀ pin ∈ (InputPin.alignAll index parameters pins).map (·.1),
      pin.source = none ∨ ∃ old ∈ pins, old.source = pin.source ∧ old.literalOnly = pin.literalOnly := by
  induction parameters generalizing pins index with
  | nil => simp [InputPin.alignAll]
  | cons parameter rest ih =>
    cases pins with
    | nil => exact List.forall_mem_cons.mpr ⟨.inl rfl, ih [] (index + 1)⟩
    | cons pin pins =>
      refine List.forall_mem_cons.mpr ⟨.inr ⟨pin, List.mem_cons_self, ?_⟩, fun other inside => ?_⟩
      · unfold InputPin.align
        dsimp only
        split <;> exact ⟨rfl, rfl⟩
      · obtain none | ⟨old, there, same⟩ := ih pins (index + 1) other inside
        · exact .inl none
        · exact .inr ⟨old, List.mem_cons_of_mem pin there, same⟩

theorem sync_outputs_formed (plain : node.kind.castTarget? = none)
    (other : node.kind ≠ .switch) (formed : node.WellFormedAt index) : (node.syncOutputs parameters).1.WellFormedAt index := by
  refine ⟨formed.others, formed.settings, fun target isCast => ?_, fun isSwitch => absurd isSwitch other⟩
  cases plain.symm.trans isCast

theorem sync_inputs_formed (plain : node.kind.castTarget? = none)
    (other : node.kind ≠ .switch) (formed : node.WellFormedAt index) : (node.syncInputs parameters).1.WellFormedAt index := by
  have pins := align_all_sources parameters node.inputs 0
  refine ⟨fun pin inside source connected => ?_, fun pin inside setting => ?_, fun target isCast => ?_,
    fun isSwitch => absurd isSwitch other⟩
  · obtain none | ⟨old, there, same, _⟩ := pins pin inside
    · rw [none] at connected
      cases connected
    · exact formed.others old there source (same.trans connected)
  · obtain none | ⟨old, there, same, flag⟩ := pins pin inside
    · exact none
    · exact same.symm.trans (formed.settings old there (flag.trans setting))
  · cases plain.symm.trans isCast

theorem sync_formed {function : Guid} (inputs outputs : List Parameter)
    (call : node.kind = .callFunction function) (formed : node.WellFormedAt index) :
    ((node.syncInputs inputs).1.syncOutputs outputs).1.WellFormedAt index := by
  have plain : node.kind.castTarget? = none := by rw [call]; rfl
  have other : node.kind ≠ .switch := by simp [call]
  exact sync_outputs_formed outputs plain other (sync_inputs_formed inputs plain other formed)

theorem sync_calls_well_formed (function : Guid) (inputs outputs : List Parameter)
    (before : graph.WellFormed) : (graph.syncCalls function inputs outputs).1.WellFormed := by
  unfold Graph.syncCalls
  dsimp only
  split
  · exact before
  · apply uncompile_well_formed
    refine prune_well_formed fun index node found => ?_
    dsimp only at found
    rw [List.getElem?_map] at found
    obtain ⟨old, there, rfl⟩ := Option.map_eq_some_iff.mp found
    split
    · next call => exact sync_formed inputs outputs (beq_iff_eq.mp call) (before.tidy index old there)
    · exact before.tidy index old there

theorem kind_expected {kind : NodeKind} (checked : expectKind index kind graph = .ok ()) :
    ∃ node, graph.nodes[index]? = some node ∧ node.kind = kind := by
  unfold expectKind at checked
  split at checked
  · cases checked
  · next node found =>
      by_cases same : node.kind = kind
      · exact ⟨node, found, same⟩
      · rw [if_neg same] at checked
        cases checked

def Body.reshaped (entry returned : Node) (body : Body) : Graph :=
  let graph := (body.graph.modifyNode entryNode fun _ => (entry.syncOutputs body.inputs).1).uncompile
  (graph.modifyNode returnNode fun _ => (returned.syncInputs body.outputs).1).uncompile

structure Body.Framed (entry returned : Node) (body : Body) : Prop where
  entered : body.graph.nodes[entryNode]? = some entry
  isEntry : entry.kind = .functionEntry
  left : body.graph.nodes[returnNode]? = some returned
  isReturn : returned.kind = .functionReturn

theorem return_stays (change : Node → Node) (nodes : List Node) (returned : Node) (left : nodes[returnNode]? = some returned) :
    (nodes.modify entryNode change)[returnNode]? = some returned :=
  (List.getElem?_modify_ne change nodes (by decide)).trans left

theorem rebuild_cases {answer : List NodeAction × List NodeAction × Body} (rebuilt : body.rebuild = .ok answer) :
    ∃ entry returned, body.Framed entry returned ∧
      answer.2.2 = { body with graph := (body.reshaped entry returned).prune.1 } := by
  unfold Body.rebuild at rebuilt
  obtain ⟨_, checked, rebuilt⟩ := bind_ok _ rebuilt
  obtain ⟨_, first, second⟩ := bind_ok _ checked
  obtain ⟨entry, entered, isEntry⟩ := kind_expected first
  obtain ⟨returned, left, isReturn⟩ := kind_expected second
  refine ⟨entry, returned, ⟨entered, isEntry, left, isReturn⟩, ?_⟩
  have still := return_stays (fun _ => (entry.syncOutputs body.inputs).1) body.graph.nodes returned left
  simp only [Graph.reshapeNode, entered, Graph.modifyNode, Graph.uncompile, still] at rebuilt
  cases rebuilt
  rfl

theorem rebuild_well_formed {entry returned : Node} (framed : body.Framed entry returned)
    (before : body.graph.WellFormed) : (body.reshaped entry returned).prune.1.WellFormed := by
  refine prune_well_formed (tidy_modify returnNode returned ?_ ?_ (tidy_modify entryNode entry framed.entered ?_ before.tidy))
  · exact return_stays _ body.graph.nodes returned framed.left
  · exact sync_inputs_formed body.outputs (by rw [framed.isReturn]; rfl) (by simp [framed.isReturn])
      (before.tidy returnNode returned framed.left)
  · exact sync_outputs_formed body.inputs (by rw [framed.isEntry]; rfl) (by simp [framed.isEntry])
      (before.tidy entryNode entry framed.entered)

theorem convert_reference_kind (locals globals : List Variable) (functions : List Guid) (form : ReferenceForm)
    (node : Node) : ∃ kind, (node.convertReference? locals globals functions form).getD node = { node with kind := kind } ∧
      kind.castTarget? = node.kind.castTarget? ∧ (kind == .switch) = (node.kind == .switch) := by
  unfold Node.convertReference?
  cases same : node.kind <;> dsimp only [NodeKind.reference?]
  case getVariable reference | setVariable reference =>
    cases reference.convert? locals globals form with
    | none => exact ⟨node.kind, rfl, by rw [same], by rw [same]⟩
    | some => exact ⟨_, rfl, rfl, rfl⟩
  case callFunction function =>
    refine ⟨node.kind, ?_, by rw [same], by rw [same]⟩
    split <;> rfl
  all_goals exact ⟨node.kind, rfl, by rw [same], by rw [same]⟩

theorem convert_references_well_formed (globals : List Variable) (functions : List Guid) (form : ReferenceForm)
    (before : graph.WellFormed) : (graph.convertReferences globals functions form).1.WellFormed := by
  unfold Graph.convertReferences
  dsimp only
  apply erase_all_well_formed
  have parts := convert_reference_kind graph.locals globals functions form
  refine ⟨fun index node found => ?_, fun node inside => ?_⟩
  · dsimp only at found
    rw [List.getElem?_map] at found
    obtain ⟨old, there, rfl⟩ := Option.map_eq_some_iff.mp found
    obtain ⟨kind, same, target, switch⟩ := parts old
    rw [same]
    refine well_formed_outline old _ index ?_ (before.tidy index old there)
    simp only [Node.outline, target, switch]
  · obtain ⟨old, there, rfl⟩ := List.mem_map.mp inside
    refine linked_offered (offers_map graph.nodes _ (fun node => ?_) fun node => ?_) _ ?_
    · obtain ⟨kind, same, _⟩ := parts node
      rw [same]
    · obtain ⟨kind, same, _⟩ := parts node
      rw [same]
    · obtain ⟨kind, same, _⟩ := parts old
      rw [same]
      exact ⟨(before.linked old there).sources, (before.linked old there).targets⟩

structure Node.Loose (node : Node) : Prop where
  inputs : ∀ pin ∈ node.inputs, pin.source = none
  outs : ∀ pin ∈ node.execOut, pin.target = none ∧ pin.case = none

theorem exec_pins_loose (names : List String) : ∀ pin ∈ Node.execPins names, pin.target = none ∧ pin.case = none := by
  simp [Node.execPins, ExecPin.fresh]

theorem parameter_inputs_free : ∀ pin ∈ Node.parameterInputs parameters, pin.source = none := by
  simp [Node.parameterInputs, InputPin.fresh]

variable {kind name inputs outputs}

theorem active_loose {outs : List String} (free : ∀ pin ∈ inputs, pin.source = none) :
    (Node.active kind name outs inputs outputs).Loose := ⟨free, exec_pins_loose outs⟩

theorem passive_loose (free : ∀ pin ∈ inputs, pin.source = none) : (Node.passive kind name inputs outputs).Loose :=
  ⟨free, by simp [Node.passive, Node.bare]⟩

theorem loop_loose (free : ∀ pin ∈ inputs, pin.source = none) : (Node.loop kind name inputs outputs).Loose :=
  ⟨free, exec_pins_loose ["Loop", "Done"]⟩

theorem cast_inputs_free (target : PinType) : ∀ pin ∈ Node.castInputs target, pin.source = none := by
  simp [Node.castInputs, InputPin.fresh, InputPin.setting]

inductive Factory where
  | branch
  | sequence (count : Nat)
  | forLoop
  | forEach (element : PinType)
  | whileLoop
  | switch (type : PinType)
  | cast (target : PinType)
  | implicitCast (target : PinType)
  | getVariable (entry : Variable)
  | setVariable (entry : Variable)
  | getMember (member : String) (type : PinType)
  | setMember (member : String) (type : PinType)
  | selfReference
  | getComponent (component : Guid) (typeId : String)
  | makeArray (count : Nat)
  | callNative (info : FunctionInfo)
  | callFunction (guid : Guid) (name : String) (inputs outputs : List Parameter)
  | functionEntry (inputs : List Parameter)
  | functionReturn (outputs : List Parameter)
  | receiveEvent (event : String) (component : Option Guid) (parameters : List Parameter)

def Factory.build : Factory → Node
  | branch => Node.branch
  | sequence count => Node.sequence count
  | forLoop => Node.forLoop
  | forEach element => Node.forEach element
  | whileLoop => Node.whileLoop
  | switch type => Node.switch type
  | cast target => Node.cast target
  | implicitCast target => Node.implicitCast target
  | getVariable entry => Node.getVariable entry
  | setVariable entry => Node.setVariable entry
  | getMember member type => Node.getMember member type
  | setMember member type => Node.setMember member type
  | selfReference => Node.selfReference
  | getComponent component typeId => Node.getComponent component typeId
  | makeArray count => Node.makeArray count
  | callNative info => Node.callNative info
  | callFunction guid name inputs outputs => Node.callFunction guid name inputs outputs
  | functionEntry inputs => Node.functionEntry inputs
  | functionReturn outputs => Node.functionReturn outputs
  | receiveEvent event component parameters => Node.receiveEvent event component parameters

namespace Factory

theorem build_loose (factory : Factory) : factory.build.Loose := by
  cases factory with
  | branch | switch type => exact active_loose (by simp [InputPin.fresh])
  | sequence => exact ⟨by simp [build, Node.sequence, Node.active],
      by simp [build, Node.sequence, Node.thenPin, ExecPin.fresh]⟩
  | forLoop | forEach element | whileLoop => exact loop_loose (by simp [InputPin.fresh])
  | cast target => exact active_loose (cast_inputs_free target)
  | implicitCast target => exact passive_loose (cast_inputs_free target)
  | getVariable entry | getMember member type | selfReference | getComponent component typeId =>
    exact passive_loose (by simp [InputPin.fresh])
  | setVariable entry | setMember member type => exact active_loose (by simp [InputPin.fresh])
  | makeArray => exact passive_loose (by simp [Node.itemPin, InputPin.fresh])
  | callNative info =>
    simp only [build, Node.callNative]
    split
    · exact passive_loose (parameter_inputs_free info.inputs)
    · exact active_loose (parameter_inputs_free info.inputs)
  | callFunction guid name inputs => exact active_loose (parameter_inputs_free inputs)
  | functionEntry inputs | receiveEvent event component inputs =>
    exact ⟨by simp [build, Node.functionEntry, Node.receiveEvent, Node.bare], exec_pins_loose ["Execute"]⟩
  | functionReturn outputs =>
    exact ⟨parameter_inputs_free outputs, by simp [build, Node.functionReturn, Node.bare]⟩

theorem build_call_kind (info : FunctionInfo) : (callNative info).build.kind = .callNative info.key info.isPure := by
  simp only [build, Node.callNative]
  split <;> rfl

theorem build_formed (factory : Factory) (index : Nat) : factory.build.WellFormedAt index := by
  have loose := factory.build_loose
  refine ⟨fun pin inside source connected => ?_, fun pin inside _ => loose.inputs pin inside, fun target isCast => ?_,
    fun isSwitch => ?_⟩
  · rw [loose.inputs pin inside] at connected
    cases connected
  · cases factory with
    | cast type | implicitCast type =>
      cases isCast
      exact ⟨_, rfl, rfl⟩
    | callNative info =>
      rw [build_call_kind] at isCast
      cases isCast
    | _ => cases isCast
  · cases factory with
    | switch type =>
      refine ⟨_, rfl, fun pin inside case has => ?_⟩
      rw [(loose.outs pin inside).2] at has
      cases has
    | callNative info =>
      rw [build_call_kind] at isSwitch
      cases isSwitch
    | _ => cases isSwitch

end Factory

variable {graph : Graph} {α : Type}

theorem add_node_well_formed (factory : Factory) (x y : Float32) (before : graph.WellFormed) :
    (graph.addNode (factory.build.placedAt x y)).WellFormed := by
  have loose := factory.build_loose
  apply uncompile_well_formed
  refine ⟨tidy_append _ before.tidy fun place node found => ?_, fun node inside => ?_⟩
  · obtain rfl := List.mem_singleton.mp (List.mem_of_getElem? found)
    exact well_formed_outline factory.build _ _ rfl (factory.build_formed _)
  · refine linked_offered (offers_append graph.nodes _) node ?_
    obtain there | here := List.mem_append.mp inside
    · exact before.linked node there
    · rw [List.mem_singleton.mp here]
      refine ⟨fun pin inside source connected => ?_, fun pin inside target connected => ?_⟩
      · rw [loose.inputs pin inside] at connected
        cases connected
      · rw [(loose.outs pin inside).1] at connected
        cases connected

def Edit.Atomic {α : Type} (edit : Edit α) : Prop := ∀ graph cause, (edit graph).1 = .error cause → (edit graph).2 = graph

theorem after_atomic {β : Type} {look : Graph → Except ScriptError α} {edit : α → Edit β}
    (atomic : ∀ found, (edit found).Atomic) : (Edit.after look edit).Atomic := by
  intro graph cause refused
  unfold Edit.after at refused ⊢
  split at refused
  · rfl
  · next found _ => exact atomic found graph cause refused

theorem always_atomic {answer : Graph → α} {change : Graph → Graph} :
    Edit.Atomic fun graph => (.ok (answer graph), change graph) := by
  intro graph cause refused
  cases refused

theorem remove_node_atomic (index : Nat) : (Edit.removeNode index).Atomic := by
  refine after_atomic fun node graph cause refused => ?_
  split at refused
  · cases refused
  · next kept => rw [if_neg kept]

theorem disconnect_atomic (target input : Nat) : (Edit.disconnect target input).Atomic := by
  refine after_atomic fun found graph cause refused => ?_
  dsimp only at refused ⊢
  split at refused <;> cases refused

theorem set_target_atomic (source output : Nat) (target : Option ExecTarget) : (Edit.setTarget source output target).Atomic :=
  after_atomic fun _ => always_atomic

theorem set_case_atomic (index output : Nat) (value : Value) : (Edit.setCase index output value).Atomic := by
  refine after_atomic fun found graph cause refused => ?_
  dsimp only at refused ⊢
  split at refused
  · rfl
  · cases refused

theorem paste_nodes_atomic (globals : List Variable) (functions : List Guid) (text : String) (offset : Position) :
    (Edit.pasteNodes globals functions text offset).Atomic := by
  intro graph cause refused
  unfold Edit.pasteNodes Edit.pasteNodesWith at refused ⊢
  split at refused
  · rfl
  · cases refused

/-- An edit of a graph that is being built. What is pasted was copied from a graph that is well formed. -/
inductive Revision where
  | addNode (factory : Factory) (x y : Float32)
  | removeNode (index : Nat)
  | connect (source output target input : Nat)
  | disconnect (target input : Nat)
  | connectExec (source output target input : Nat)
  | disconnectExec (source output : Nat)
  | setLiteral (index input : Nat) (literal : Value)
  | setCase (index output : Nat) (value : Value)
  | addInput (index : Nat)
  | addOutput (index : Nat)
  | prune
  | syncCalls (function : Guid) (inputs outputs : List Parameter)
  | convertReferences (globals : List Variable) (functions : List Guid) (form : ReferenceForm)
  | pasteNodes (origin : Graph) (formed : origin.WellFormed) (selection : List Nat) (originGlobals : List Variable)
      (text : String) (copied : origin.copyNodes selection originGlobals = .ok text) (globals : List Variable)
      (functions : List Guid) (offset : Position)

def Edit.quiet {α : Type} (edit : Edit α) : Edit Unit := fun graph => ((edit graph).1.map fun _ => (), (edit graph).2)

def Revision.edit : Revision → Edit Unit
  | addNode factory x y => fun graph => (.ok (), graph.addNode (factory.build.placedAt x y))
  | removeNode index => (Edit.removeNode index).quiet
  | connect source output target input => (Edit.connect source output target input).quiet
  | disconnect target input => (Edit.disconnect target input).quiet
  | connectExec source output target input => Edit.connectExec source output target input
  | disconnectExec source output => Edit.disconnectExec source output
  | setLiteral index input literal => (Edit.setLiteral index input literal).quiet
  | setCase index output value => Edit.setCase index output value
  | addInput index => (Edit.addInput index).quiet
  | addOutput index => (Edit.addOutput index).quiet
  | prune => fun graph => (.ok (), graph.prune.1)
  | syncCalls function inputs outputs => fun graph => (.ok (), (graph.syncCalls function inputs outputs).1)
  | convertReferences globals functions form => fun graph => (.ok (), (graph.convertReferences globals functions form).1)
  | pasteNodes _ _ _ _ text _ globals functions offset => (Edit.pasteNodes globals functions text offset).quiet

theorem quiet_atomic {edit : Edit α} (atomic : edit.Atomic) : edit.quiet.Atomic := by
  intro graph cause refused
  unfold Edit.quiet at refused ⊢
  cases answer : (edit graph).1 with
  | ok =>
    rw [answer] at refused
    cases refused
  | error reason => exact atomic graph reason answer

theorem revision_atomic (revision : Revision) : revision.edit.Atomic := by
  cases revision with
  | addNode => exact always_atomic
  | removeNode index => exact quiet_atomic (remove_node_atomic index)
  | connect => exact quiet_atomic (after_atomic fun _ => always_atomic)
  | disconnect target input => exact quiet_atomic (disconnect_atomic target input)
  | connectExec source output => exact after_atomic fun _ => set_target_atomic source output _
  | disconnectExec source output => exact set_target_atomic source output none
  | setLiteral => exact quiet_atomic (after_atomic fun _ => always_atomic)
  | setCase index output value => exact set_case_atomic index output value
  | addInput => exact quiet_atomic (after_atomic fun _ => always_atomic)
  | addOutput => exact quiet_atomic (after_atomic fun _ => always_atomic)
  | prune => exact always_atomic
  | syncCalls => exact always_atomic
  | convertReferences => exact always_atomic
  | pasteNodes origin formed selection originGlobals text copied globals functions offset =>
    exact quiet_atomic (paste_nodes_atomic globals functions text offset)

theorem revision_well_formed (revision : Revision) (before : graph.WellFormed) :
    (revision.edit graph).2.WellFormed := by
  cases revision with
  | addNode factory x y => exact add_node_well_formed factory x y before
  | removeNode index => exact remove_node_well_formed index before
  | connect source output target input => exact connect_well_formed source output target input before
  | disconnect target input => exact disconnect_well_formed target input before
  | connectExec source output target input => exact connect_exec_well_formed source output target input before
  | disconnectExec source output => exact set_target_well_formed source output none (fun _ same => by cases same) before
  | setLiteral index input literal => exact set_literal_well_formed index input literal before
  | setCase index output value => exact set_case_well_formed index output value before
  | addInput index => exact add_input_well_formed index before
  | addOutput index => exact add_output_well_formed index before
  | prune => exact prune_well_formed before.tidy
  | syncCalls function inputs outputs => exact sync_calls_well_formed function inputs outputs before
  | convertReferences globals functions form => exact convert_references_well_formed globals functions form before
  | pasteNodes origin formed selection originGlobals text copied globals functions offset =>
    exact paste_well_formed globals functions offset formed copied before

def revise (revisions : List Revision) (graph : Graph) : Graph :=
  revisions.foldl (fun graph revision => (revision.edit graph).2) graph

theorem revise_well_formed (revisions : List Revision) (graph : Graph) (before : graph.WellFormed) :
    (revise revisions graph).WellFormed := by
  induction revisions generalizing graph with
  | nil => exact before
  | cons revision rest ih => exact ih _ (revision_well_formed revision before)

theorem revisions_well_formed_and_atomic (revisions : List Revision) :
    (revise revisions Graph.empty).WellFormed ∧
      (∀ node ∈ (revise revisions Graph.empty).nodes, ∀ pin ∈ node.execOut, ∀ target, pin.target = some target →
        ∃ entered, (revise revisions Graph.empty).nodes[target.node]? = some entered ∧ entered.isImplicit = false) ∧
      ∀ (revision : Revision) (graph : Graph) (cause : ScriptError),
        (revision.edit graph).1 = .error cause → (revision.edit graph).2 = graph := by
  have formed := revise_well_formed revisions Graph.empty empty_well_formed
  refine ⟨formed, fun node inside pin isPin target leads => ?_, revision_atomic⟩
  exact entered_not_implicit ((formed.linked node inside).targets pin isPin target leads)

/-- An entry feeds a switch, which takes over its type, and leads on to it; a case is added. -/
def switchRevisions : List Revision :=
  [.addNode (.functionEntry [⟨"Choice", .int⟩]) (Float32.ofBits 0) (Float32.ofBits 0),
    .addNode (.switch .any) (Float32.ofBits 0) (Float32.ofBits 0), .connect 0 0 1 0, .addOutput 1, .connectExec 0 0 1 0]

theorem switch_copied : ∃ text, (revise switchRevisions Graph.empty).copyNodes [1] [] = .ok text := ⟨_, rfl⟩

/-- The switch is copied and pasted beside itself, and an edit by which it would read itself is refused. -/
theorem switch_revisions_well_formed_and_atomic :
    let graph := revise switchRevisions Graph.empty
    graph.nodes.map Node.outline =
        [⟨none, false, [], [.int], [none]⟩, ⟨none, true, [(.int, some ⟨0, 0⟩, false)], [], [none, some .int]⟩] ∧
      (∃ entered, graph.nodes[1]? = some entered ∧ entered.isImplicit = false) ∧
      (((Revision.connect 1 0 1 0).edit graph).1 = .error (.invalidConnection (.feedsItself 1)) ∧
        ((Revision.connect 1 0 1 0).edit graph).2 = graph) ∧
      ∃ text copied, (revise (switchRevisions ++ [.pasteNodes graph
        (revise_well_formed switchRevisions Graph.empty empty_well_formed) [1] [] text copied [] [] Node.origin])
        Graph.empty).WellFormed := by
  obtain ⟨text, copied⟩ := switch_copied
  obtain ⟨_, explicit, atomic⟩ := revisions_well_formed_and_atomic switchRevisions
  exact ⟨rfl, explicit _ List.mem_cons_self _ List.mem_cons_self ⟨1, 0⟩ rfl, ⟨rfl, atomic _ _ _ rfl⟩, text, copied,
    (revisions_well_formed_and_atomic _).1⟩

end Patchbay
