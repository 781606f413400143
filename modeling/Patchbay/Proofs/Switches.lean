import Patchbay.Proofs.Editing

set_option autoImplicit false

namespace Patchbay

def outputType? (nodes : List Node) (source : PinSource) : Option PinType :=
  (nodes[source.node]?).bind fun node => (node.outputs[source.parameter]?).map (·.type)

def SwitchFed (nodes : List Node) (pin : InputPin) (source : PinSource) : Prop :=
  ∃ node ∈ nodes, node.kind = .switch ∧ node.inputs[switchValuePin]? = some pin ∧ pin.source = some source

def SwitchesFollow (nodes : List Node) : Prop :=
  ∀ node ∈ nodes, node.kind = .switch → ∀ pin ∈ node.inputs[switchValuePin]?, ∀ source ∈ pin.source,
    outputType? nodes source = some pin.type

def SourcesKept (before after : List Node) : Prop :=
  ∀ node ∈ after, node.kind = .switch → ∀ pin ∈ node.inputs[switchValuePin]?, ∀ source ∈ pin.source,
    outputType? after source = outputType? before source

instance (nodes : List Node) : Decidable (SwitchesFollow nodes) :=
  inferInstanceAs (Decidable (∀ node ∈ nodes, _))

instance (before after : List Node) : Decidable (SourcesKept before after) :=
  inferInstanceAs (Decidable (∀ node ∈ after, _))

theorem each_fed (nodes : List Node) (P : InputPin → PinSource → Prop) :
    (∀ node ∈ nodes, node.kind = .switch → ∀ pin ∈ node.inputs[switchValuePin]?, ∀ source ∈ pin.source, P pin source) ↔
      ∀ pin source, SwitchFed nodes pin source → P pin source := by
  constructor
  · rintro each pin source ⟨node, inside, isSwitch, value, connected⟩
    exact each node inside isSwitch pin value source connected
  · intro fed node inside isSwitch pin value source connected
    exact fed pin source ⟨node, inside, isSwitch, value, connected⟩

theorem switches_follow_fed (nodes : List Node) : SwitchesFollow nodes ↔
    ∀ pin source, SwitchFed nodes pin source → outputType? nodes source = some pin.type :=
  each_fed nodes fun pin source => outputType? nodes source = some pin.type

theorem sources_kept_fed (before after : List Node) : SourcesKept before after ↔
    ∀ pin source, SwitchFed after pin source → outputType? after source = outputType? before source :=
  each_fed after fun _ source => outputType? after source = outputType? before source

def SwitchesStay (before after : List Node) : Prop :=
  ∀ pin source, SwitchFed after pin source → ∃ old, SwitchFed before old source ∧ old.type = pin.type

/-- A switch that is connected afterwards has the type of its source, or it was connected before, had the type it has now, and
the output that feeds it has the type it had. -/
def SwitchesSteady (before after : List Node) : Prop :=
  ∀ pin source, SwitchFed after pin source → outputType? after source = some pin.type ∨
    ∃ old oldSource, SwitchFed before old oldSource ∧ old.type = pin.type ∧
      ∀ type, outputType? before oldSource = some type → outputType? after source = some type

theorem stay_refl (nodes : List Node) : SwitchesStay nodes nodes := fun pin _ fed => ⟨pin, fed, rfl⟩

theorem steady_refl (nodes : List Node) : SwitchesSteady nodes nodes :=
  fun pin source fed => .inr ⟨pin, source, fed, rfl, fun _ => id⟩

theorem stay_trans (first second third : List Node) (left : SwitchesStay first second) (right : SwitchesStay second third) :
    SwitchesStay first third := by
  intro pin source fed
  obtain ⟨middle, was, same⟩ := right pin source fed
  obtain ⟨old, before, alike⟩ := left middle source was
  exact ⟨old, before, alike.trans same⟩

theorem steady_trans {first second third : List Node} (left : SwitchesSteady first second)
    (right : SwitchesSteady second third) : SwitchesSteady first third := by
  intro pin source fed
  rcases right pin source fed with typed | ⟨middle, between, was, same, later⟩
  · exact .inl typed
  · rcases left middle between was with typed | ⟨old, oldSource, before, alike, sooner⟩
    · exact .inl (same ▸ later _ typed)
    · exact .inr ⟨old, oldSource, before, alike.trans same, fun type had => later type (sooner type had)⟩

variable {before after : List Node}

theorem stay_steady (stay : SwitchesStay before after)
    (outputs : ∀ source, outputType? after source = outputType? before source) : SwitchesSteady before after := by
  intro pin source fed
  obtain ⟨old, was, same⟩ := stay pin source fed
  exact .inr ⟨old, source, was, same, fun type had => (outputs source).trans had⟩

theorem steady_follow (steady : SwitchesSteady before after) (follow : SwitchesFollow before) :
    SwitchesFollow after := by
  rw [switches_follow_fed] at follow ⊢
  intro pin source fed
  rcases steady pin source fed with typed | ⟨old, oldSource, was, same, kept⟩
  · exact typed
  · exact same ▸ kept _ (follow old oldSource was)

/-- Where the switches stay, nothing but another type of a source makes one of them disagree with it. -/
theorem stay_follow (stay : SwitchesStay before after) (follow : SwitchesFollow before) :
    SwitchesFollow after ↔ SourcesKept before after := by
  rw [switches_follow_fed] at follow ⊢
  rw [sources_kept_fed]
  have was (pin : InputPin) (source : PinSource) (fed : SwitchFed after pin source) :
      outputType? before source = some pin.type := by
    obtain ⟨old, had, same⟩ := stay pin source fed
    rw [follow old source had, same]
  constructor
  · intro agree pin source fed
    rw [agree pin source fed, was pin source fed]
  · intro kept pin source fed
    rw [kept pin source fed, was pin source fed]

section Pieces

theorem output_type_map (nodes : List Node) (change : Node → Node)
    (outputs : ∀ node, (change node).outputs = node.outputs) (source : PinSource) :
    outputType? (nodes.map change) source = outputType? nodes source := by
  unfold outputType?
  rw [List.getElem?_map]
  cases nodes[source.node]? with
  | none => rfl
  | some node => simp only [Option.map_some, Option.bind_some, outputs]

variable {nodes : List Node} {index : Nat} {node changed : Node}

theorem output_type_modify (found : nodes[index]? = some node)
    (outputs : changed.outputs = node.outputs) (source : PinSource) :
    outputType? (nodes.modify index fun _ => changed) source = outputType? nodes source := by
  unfold outputType?
  rw [modify_at source.node changed found]
  by_cases here : index = source.node
  · rw [if_pos here, ← here, found, Option.bind_some, Option.bind_some, outputs]
  · rw [if_neg here]

def ValueKept (node changed : Node) : Prop :=
  ∀ pin source, changed.kind = .switch → changed.inputs[switchValuePin]? = some pin → pin.source = some source →
    node.kind = .switch ∧ ∃ old, node.inputs[switchValuePin]? = some old ∧ old.source = some source ∧ old.type = pin.type

theorem value_kept_refl (node changed : Node) (kind : changed.kind = node.kind) (inputs : changed.inputs = node.inputs) :
    ValueKept node changed := by
  intro pin source isSwitch value connected
  exact ⟨kind.symm.trans isSwitch, pin, inputs ▸ value, connected, rfl⟩

theorem value_kept_other (node changed : Node) (other : changed.kind ≠ .switch) : ValueKept node changed := by
  intro pin source isSwitch
  exact absurd isSwitch other

theorem map_stay (nodes : List Node) (change : Node → Node) (each : ∀ node ∈ nodes, ValueKept node (change node)) :
    SwitchesStay nodes (nodes.map change) := by
  rintro pin source ⟨node, inside, isSwitch, value, connected⟩
  obtain ⟨old, there, rfl⟩ := List.mem_map.mp inside
  obtain ⟨wasSwitch, oldPin, oldValue, oldConnected, same⟩ := each old there pin source isSwitch value connected
  exact ⟨oldPin, ⟨old, there, wasSwitch, oldValue, oldConnected⟩, same⟩

theorem modify_stay (nodes : List Node) (index : Nat) (node changed : Node) (found : nodes[index]? = some node)
    (kept : ValueKept node changed) : SwitchesStay nodes (nodes.modify index fun _ => changed) := by
  rintro pin source ⟨other, inside, isSwitch, value, connected⟩
  rcases mem_modify index _ nodes other inside with there | ⟨_, _, rfl⟩
  · exact ⟨pin, ⟨other, there, isSwitch, value, connected⟩, rfl⟩
  · obtain ⟨wasSwitch, old, oldValue, oldConnected, same⟩ := kept pin source isSwitch value connected
    exact ⟨old, ⟨node, List.mem_of_getElem? found, wasSwitch, oldValue, oldConnected⟩, same⟩

variable (graph : Graph)

theorem prune_stay : SwitchesStay graph.nodes graph.prune.1.nodes := by
  rw [prune_nodes]
  refine map_stay graph.nodes _ fun node _ pin source isSwitch value connected => ⟨isSwitch, ?_⟩
  rw [Node.prune, List.getElem?_map] at value
  obtain ⟨old, oldValue, rfl⟩ := Option.map_eq_some_iff.mp value
  by_cases fits : old.fits graph.nodes = true
  · rw [InputPin.prune, if_pos fits] at connected ⊢
    exact ⟨old, oldValue, connected, rfl⟩
  · rw [InputPin.prune, if_neg fits] at connected
    cases connected

theorem prune_outputs (source : PinSource) :
    outputType? graph.prune.1.nodes source = outputType? graph.nodes source := by
  rw [prune_nodes]
  exact output_type_map graph.nodes (Node.prune graph.nodes) (fun _ => rfl) source

theorem settle_stay (actions : List NodeAction) (graph : Graph) : SwitchesStay graph.nodes (graph.settle actions).nodes := by
  unfold Graph.settle
  split
  · exact prune_stay graph
  · exact stay_refl graph.nodes

theorem settle_steady (actions : List NodeAction) (graph : Graph) : SwitchesSteady graph.nodes (graph.settle actions).nodes := by
  refine stay_steady (settle_stay actions graph) fun source => ?_
  unfold Graph.settle
  split
  · exact prune_outputs graph source
  · rfl

theorem erase_steady (removed : Nat) : SwitchesSteady graph.nodes (graph.eraseNode removed).nodes := by
  rintro pin source ⟨node, inside, isSwitch, value, connected⟩
  obtain ⟨old, there, rfl⟩ := List.mem_map.mp inside
  rw [Node.renumber, List.getElem?_map] at value
  obtain ⟨oldPin, oldValue, rfl⟩ := Option.map_eq_some_iff.mp value
  obtain ⟨oldSource, was, shifted, parameter⟩ := source_renumbered _ connected
  refine .inr ⟨oldPin, oldSource, ⟨old, List.mem_of_mem_eraseIdx there, isSwitch, oldValue, was⟩, rfl, fun type had => ?_⟩
  have moved := shift_at graph.nodes shifted
  rw [← had, outputType?, outputType?, parameter]
  simp only [Graph.eraseNode, Graph.uncompile, List.getElem?_map, moved]
  cases graph.nodes[oldSource.node]? <;> rfl

theorem erase_all_steady (indices : List Nat) (graph : Graph) :
    SwitchesSteady graph.nodes (indices.foldl (fun graph index => graph.eraseNode index) graph).nodes := by
  induction indices generalizing graph with
  | nil => exact steady_refl graph.nodes
  | cons index rest ih => exact steady_trans (erase_steady graph index) (ih (graph.eraseNode index))

theorem modify_steady (found : nodes[index]? = some node)
    (kept : ValueKept node changed) (outputs : changed.outputs = node.outputs) :
    SwitchesSteady nodes (nodes.modify index fun _ => changed) :=
  stay_steady (modify_stay nodes index node changed found kept) (output_type_modify found outputs)

end Pieces

theorem add_node_steady (factory : Factory) (x y : Float32) (graph : Graph) :
    SwitchesSteady graph.nodes (graph.addNode (factory.build.placedAt x y)).nodes := by
  rintro pin source ⟨node, inside, isSwitch, value, connected⟩
  rcases List.mem_append.mp inside with there | here
  · refine .inr ⟨pin, source, ⟨node, there, isSwitch, value, connected⟩, rfl, fun type had => ?_⟩
    obtain ⟨feeding, found, typed⟩ := Option.bind_eq_some_iff.mp had
    have bound := (List.getElem?_eq_some_iff.mp found).1
    rw [outputType?, Graph.addNode, Graph.uncompile, List.getElem?_append_left bound, found, Option.bind_some, typed]
  · rw [List.mem_singleton.mp here] at value
    rw [factory.build_loose.inputs pin (List.mem_of_getElem? value)] at connected
    cases connected

theorem retyped_value {type : PinType} {node : Node} {pin : InputPin}
    (value : (node.retypeSwitch type).1.inputs[switchValuePin]? = some pin) :
    pin.type = type ∧ ∃ old, node.inputs[switchValuePin]? = some old ∧ old.source = pin.source := by
  unfold Node.retypeSwitch at value
  cases inputs : node.inputs with
  | nil => simp [inputs] at value
  | cons first rest =>
    simp only [inputs] at value
    by_cases same : first.type = type
    · rw [if_pos same, inputs] at value
      cases value
      exact ⟨same, pin, rfl, rfl⟩
    · rw [if_neg same] at value
      cases value
      exact ⟨rfl, first, rfl, rfl⟩

theorem retype_outputs (type : PinType) (node : Node) : (node.retypeSwitch type).1.outputs = node.outputs := by
  unfold Node.retypeSwitch
  split
  · rfl
  · split <;> rfl

theorem connection_changed_outputs (input : Nat) (source : Option PinType) (node : Node) :
    (node.connectionChanged input source).1.outputs = node.outputs := by
  unfold Node.connectionChanged
  split
  · exact retype_outputs _ node
  · rfl

theorem retyped_steady {nodes : List Node} {index : Nat} {node connected : Node} (type : PinType)
    (found : nodes[index]? = some node) (same : connected.outputs = node.outputs)
    (fed : ∀ old source, connected.inputs[switchValuePin]? = some old → old.source = some source →
      outputType? nodes source = some type) :
    SwitchesSteady nodes (nodes.modify index fun _ => (connected.retypeSwitch type).1) := by
  have outputs := output_type_modify found ((retype_outputs type connected).trans same)
  rintro pin source ⟨switch, inside, isSwitch, value, attached⟩
  rcases mem_modify index _ nodes switch inside with there | ⟨_, _, rfl⟩
  · exact .inr ⟨pin, source, ⟨switch, there, isSwitch, value, attached⟩, rfl, fun type had => (outputs source).trans had⟩
  · obtain ⟨typed, old, oldValue, sameSource⟩ := retyped_value value
    exact .inl (((outputs source).trans (fed old source oldValue (sameSource.trans attached))).trans (congrArg some typed.symm))

theorem other_value_kept (node : Node) (input : Nat) (change : InputPin → InputPin)
    (other : ¬ (node.kind = .switch ∧ input = switchValuePin)) :
    ValueKept node { node with inputs := node.inputs.modify input change } := by
  intro pin source isSwitch value connected
  have elsewhere : input ≠ switchValuePin := fun same => other ⟨isSwitch, same⟩
  exact ⟨isSwitch, pin, (List.getElem?_modify_ne change _ elsewhere).symm.trans value, connected, rfl⟩

theorem after_steady {α β : Type} {look : Graph → Except ScriptError α} {edit : α → Edit β} {graph : Graph}
    (kept : ∀ found, look graph = .ok found → SwitchesSteady graph.nodes (edit found graph).2.nodes) :
    SwitchesSteady graph.nodes (Edit.after look edit graph).2.nodes :=
  after_keeps (fun next => SwitchesSteady graph.nodes next.nodes) (steady_refl graph.nodes) kept

theorem connect_steady (source output target input : Nat) (graph : Graph) :
    SwitchesSteady graph.nodes (Edit.connect source output target input graph).2.nodes := by
  apply after_steady
  intro ⟨type, node⟩ checked
  obtain ⟨apart, found, pin, pinFound, _, feeding, outputPin, sourceFound, outputFound, typed, _⟩ :=
    connection_checked checked
  refine steady_trans ?_ (settle_steady _ (graph.modifyNode target _))
  by_cases value : node.kind = .switch ∧ input = switchValuePin
  · rw [Node.connectionChanged, if_pos (by exact value)]
    refine retyped_steady type found rfl fun old place oldValue was => ?_
    rw [value.2] at oldValue pinFound
    have first := (List.getElem?_modify_eq _ _ _).symm.trans oldValue
    rw [pinFound] at first
    cases first
    cases was
    rw [outputType?, sourceFound, Option.bind_some, outputFound, Option.map_some, typed]
  · rw [Node.connectionChanged, if_neg (by exact value)]
    exact modify_steady found (other_value_kept node input _ value) rfl

theorem disconnect_steady (target input : Nat) (graph : Graph) :
    SwitchesSteady graph.nodes (Edit.disconnect target input graph).2.nodes := by
  apply after_steady
  intro ⟨node, pin⟩ there
  obtain ⟨found, pinFound⟩ := pin_at_found there
  dsimp only
  split
  · exact steady_refl graph.nodes
  · refine steady_trans ?_ (settle_steady _ (graph.modifyNode target _))
    refine modify_steady found ?_ (connection_changed_outputs input _ _)
    by_cases value : node.kind = .switch ∧ input = switchValuePin
    · -- The value is cut off, so that nothing is left to follow.
      rw [Node.connectionChanged, if_pos (by exact value)]
      intro other source _ isValue connected
      obtain ⟨_, old, oldValue, sameSource⟩ := retyped_value isValue
      rw [value.2, List.getElem?_modify_eq] at oldValue
      obtain ⟨_, _, rfl⟩ := Option.map_eq_some_iff.mp oldValue
      cases sameSource.trans connected
    · rw [Node.connectionChanged, if_neg (by exact value)]
      exact other_value_kept node input _ value

theorem set_target_steady (source output : Nat) (target : Option ExecTarget) (graph : Graph) :
    SwitchesSteady graph.nodes (Edit.setTarget source output target graph).2.nodes := by
  apply after_steady
  intro ⟨node, pin⟩ there
  obtain ⟨found, _⟩ := pin_at_found there
  exact modify_steady found (value_kept_refl node _ rfl rfl) rfl

theorem connect_exec_steady (source output target input : Nat) (graph : Graph) :
    SwitchesSteady graph.nodes (Edit.connectExec source output target input graph).2.nodes := by
  apply after_steady
  intro _ _
  exact set_target_steady source output _ graph

theorem set_case_steady (index output : Nat) (value : Value) (graph : Graph) :
    SwitchesSteady graph.nodes (Edit.setCase index output value graph).2.nodes := by
  apply after_steady
  intro ⟨node, pin⟩ there
  obtain ⟨found, _⟩ := pin_at_found there
  dsimp only
  split
  · exact steady_refl graph.nodes
  · rw [modify_node_found graph index node _ found]
    exact modify_steady found (value_kept_refl node _ rfl rfl) rfl

theorem grow_node_steady (grow : Node → Node × List NodeAction) (index : Nat) (graph : Graph)
    (kept : ∀ node, ValueKept node (grow node).1) (outputs : ∀ node, (grow node).1.outputs = node.outputs) :
    SwitchesSteady graph.nodes (Edit.growNode grow index graph).2.nodes := by
  apply after_steady
  intro node there
  have found := node_found there
  have steady := modify_steady found (kept node) (outputs node)
  dsimp only
  split
  · exact steady
  · exact steady

theorem add_input_kept (node : Node) : ValueKept node node.addInput.1 ∧ node.addInput.1.outputs = node.outputs := by
  unfold Node.addInput
  split
  · next kind => exact ⟨value_kept_other node _ (by simp [kind]), rfl⟩
  · exact ⟨value_kept_refl node node rfl rfl, rfl⟩

theorem add_output_kept (node : Node) : ValueKept node node.addOutput.1 ∧ node.addOutput.1.outputs = node.outputs := by
  unfold Node.addOutput
  split <;> exact ⟨value_kept_refl node _ rfl rfl, rfl⟩

theorem remove_node_steady (index : Nat) (graph : Graph) :
    SwitchesSteady graph.nodes (Edit.removeNode index graph).2.nodes := by
  apply after_steady
  intro node _
  split
  · exact erase_steady graph index
  · exact steady_refl graph.nodes

theorem convert_references_steady (globals : List Variable) (functions : List Guid) (form : ReferenceForm) (graph : Graph) :
    SwitchesSteady graph.nodes (graph.convertReferences globals functions form).1.nodes := by
  have parts := convert_reference_kind graph.locals globals functions form
  refine steady_trans (stay_steady (map_stay graph.nodes _ fun node _ => ?_) (output_type_map graph.nodes _ fun node => ?_))
    (erase_all_steady _ _)
  · obtain ⟨kind, same, _, switch⟩ := parts node
    rw [same]
    intro pin source isSwitch value connected
    dsimp only at isSwitch
    rw [isSwitch, beq_self_eq_true] at switch
    exact ⟨beq_iff_eq.mp switch.symm, pin, value, connected, rfl⟩
  · obtain ⟨kind, same, _⟩ := parts node
    rw [same]

theorem literal_changed_kept (input : Nat) (node : Node) : ValueKept node (node.literalChanged input).1 := by
  have retargeted (kind : NodeKind) (target : PinType) (other : kind ≠ .switch) :
      ValueKept node ({ node with kind := kind }.retarget target).1 := by
    refine value_kept_other node _ ?_
    unfold Node.retarget
    split <;> exact other
  unfold Node.literalChanged
  split
  · split
    · split
      · exact value_kept_refl node node rfl rfl
      · exact retargeted _ _ (by simp)
    · split
      · exact value_kept_refl node node rfl rfl
      · exact retargeted _ _ (by simp)
    · exact value_kept_refl node node rfl rfl
  · exact value_kept_refl node node rfl rfl

theorem value_kept_trans {first second third : Node} (left : ValueKept first second) (right : ValueKept second third) :
    ValueKept first third := by
  intro pin source isSwitch value connected
  obtain ⟨wasSwitch, middle, middleValue, middleSource, same⟩ := right pin source isSwitch value connected
  obtain ⟨atFirst, old, oldValue, oldSource, alike⟩ := left middle source wasSwitch middleValue middleSource
  exact ⟨atFirst, old, oldValue, oldSource, alike.trans same⟩

theorem modified_value_kept (node : Node) (input : Nat) (change : InputPin → InputPin)
    (sources : ∀ pin, (change pin).source = pin.source) (types : ∀ pin, (change pin).type = pin.type) :
    ValueKept node { node with inputs := node.inputs.modify input change } := by
  intro pin source isSwitch value connected
  by_cases here : input = switchValuePin
  · dsimp only at value
    rw [here, List.getElem?_modify_eq] at value
    obtain ⟨old, oldValue, rfl⟩ := Option.map_eq_some_iff.mp value
    exact ⟨isSwitch, old, oldValue, (sources old).symm.trans connected, (types old).symm⟩
  · exact other_value_kept node input change (fun value => here value.2) pin source isSwitch value connected

theorem set_literal_stay (index input : Nat) (literal : Value) (graph : Graph) :
    SwitchesStay graph.nodes (Edit.setLiteral index input literal graph).2.nodes := by
  apply after_keeps (fun next => SwitchesStay graph.nodes next.nodes) (stay_refl graph.nodes)
  intro ⟨node, pin⟩ there
  obtain ⟨found, _⟩ := pin_at_found there
  have kept := modified_value_kept node input (fun pin => { pin with literal := literal }) (fun _ => rfl) fun _ => rfl
  have changed := modify_stay graph.nodes index node _ found (value_kept_trans kept (literal_changed_kept input _))
  dsimp only
  split <;> exact stay_trans _ _ _ changed (settle_stay _ (graph.modifyNode index _))

theorem sync_calls_stay (function : Guid) (inputs outputs : List Parameter) (graph : Graph) :
    SwitchesStay graph.nodes (graph.syncCalls function inputs outputs).1.nodes := by
  unfold Graph.syncCalls
  dsimp only
  split
  · exact stay_refl graph.nodes
  · refine stay_trans _ _ _ (map_stay graph.nodes _ fun node _ => ?_) (prune_stay { graph with nodes := _ })
    split
    · next call =>
        refine value_kept_other node _ fun isSwitch => ?_
        cases (beq_iff_eq.mp call).symm.trans isSwitch
    · exact value_kept_refl node node rfl rfl

theorem rebuild_stay {entry returned : Node} {body : Body} (framed : body.Framed entry returned) :
    SwitchesStay body.graph.nodes (body.reshaped entry returned).prune.1.nodes := by
  have entered := modify_stay body.graph.nodes entryNode entry (entry.syncOutputs body.inputs).1 framed.entered
    (value_kept_other entry _ (by simp [Node.syncOutputs, framed.isEntry]))
  have still := return_stays (fun _ => (entry.syncOutputs body.inputs).1) body.graph.nodes returned framed.left
  have left := modify_stay _ returnNode returned (returned.syncInputs body.outputs).1
    still (value_kept_other returned _ (by simp [Node.syncInputs, framed.isReturn]))
  exact stay_trans _ _ _ (stay_trans _ _ _ entered left) (prune_stay (body.reshaped entry returned))

def Revision.pastes : Revision → Bool
  | pasteNodes _ _ _ _ _ _ _ _ _ => true
  | _ => false

/-- An edit of a graph that is not pasted together. The graph may be that of a function, which is rebuilt for other
parameters. -/
inductive Shaping where
  | revision (change : Revision) (own : change.pastes = false)
  | rebuild (inputs outputs : List Parameter)

namespace Shaping

def edit : Shaping → Edit Unit
  | revision change _ => change.edit
  | rebuild inputs outputs => fun graph =>
    match Body.rebuild ⟨graph, inputs, outputs⟩ with
    | .error cause => (.error cause, graph)
    | .ok (_, _, body) => (.ok (), body.graph)

/-- The edit gives an output another type, and a switch that it feeds stays connected to it. -/
def retypes (graph : Graph) : Shaping → Bool
  | revision (.setLiteral index input literal) _ =>
    !decide (SourcesKept graph.nodes (Edit.setLiteral index input literal graph).2.nodes)
  | revision (.syncCalls function inputs outputs) _ =>
    !decide (SourcesKept graph.nodes (graph.syncCalls function inputs outputs).1.nodes)
  | rebuild inputs outputs => !decide (SourcesKept graph.nodes (edit (rebuild inputs outputs) graph).2.nodes)
  | _ => false

theorem rebuild_edit_cases (inputs outputs : List Parameter) (graph : Graph) :
    ((rebuild inputs outputs).edit graph).2 = graph ∨ ∃ entry returned, Body.Framed entry returned ⟨graph, inputs, outputs⟩ ∧
      ((rebuild inputs outputs).edit graph).2 = (Body.reshaped entry returned ⟨graph, inputs, outputs⟩).prune.1 := by
  dsimp only [edit]
  cases rebuilt : Body.rebuild ⟨graph, inputs, outputs⟩ with
  | error => exact .inl rfl
  | ok =>
    obtain ⟨entry, returned, framed, same⟩ := rebuild_cases rebuilt
    exact .inr ⟨entry, returned, framed, congrArg Body.graph same⟩

theorem edit_well_formed (step : Shaping) {graph : Graph} (before : graph.WellFormed) : (step.edit graph).2.WellFormed := by
  cases step with
  | revision change own => exact revision_well_formed change before
  | rebuild inputs outputs =>
    rcases rebuild_edit_cases inputs outputs graph with same | ⟨entry, returned, framed, same⟩
    · rw [same]
      exact before
    · rw [same]
      exact rebuild_well_formed framed before

theorem edit_follows (step : Shaping) {graph : Graph} (follow : SwitchesFollow graph.nodes) :
    SwitchesFollow (step.edit graph).2.nodes ↔ step.retypes graph = false := by
  have calm (next : Graph) (steady : SwitchesSteady graph.nodes next.nodes) : SwitchesFollow next.nodes ↔ false = false :=
    ⟨fun _ => rfl, fun _ => steady_follow steady follow⟩
  have wary (next : Graph) (stay : SwitchesStay graph.nodes next.nodes) :
      SwitchesFollow next.nodes ↔ (!decide (SourcesKept graph.nodes next.nodes)) = false := by
    rw [stay_follow stay follow, Bool.not_eq_false', decide_eq_true_iff]
  cases step with
  | rebuild inputs outputs =>
    refine wary _ ?_
    rcases rebuild_edit_cases inputs outputs graph with same | ⟨entry, returned, framed, same⟩
    · rw [same]
      exact stay_refl graph.nodes
    · rw [same]
      exact rebuild_stay framed
  | revision change own =>
    cases change with
    | addNode factory x y => exact calm _ (add_node_steady factory x y graph)
    | removeNode index => exact calm _ (remove_node_steady index graph)
    | connect source output target input => exact calm _ (connect_steady source output target input graph)
    | disconnect target input => exact calm _ (disconnect_steady target input graph)
    | connectExec source output target input => exact calm _ (connect_exec_steady source output target input graph)
    | disconnectExec source output => exact calm _ (set_target_steady source output none graph)
    | setLiteral index input literal => exact wary _ (set_literal_stay index input literal graph)
    | setCase index output value => exact calm _ (set_case_steady index output value graph)
    | addInput index => exact calm _ (grow_node_steady Node.addInput index graph (fun node => (add_input_kept node).1)
        fun node => (add_input_kept node).2)
    | addOutput index => exact calm _ (grow_node_steady Node.addOutput index graph (fun node => (add_output_kept node).1)
        fun node => (add_output_kept node).2)
    | prune => exact calm _ (stay_steady (prune_stay graph) (prune_outputs graph))
    | syncCalls function inputs outputs => exact wary _ (sync_calls_stay function inputs outputs graph)
    | convertReferences globals functions form => exact calm _ (convert_references_steady globals functions form graph)
    | pasteNodes => cases own

end Shaping

def shape (history : List Shaping) (graph : Graph) : Graph :=
  history.foldl (fun graph step => (step.edit graph).2) graph

def retypesAlong : List Shaping → Graph → Bool
  | [], _ => false
  | step :: rest, graph => step.retypes graph || retypesAlong rest (step.edit graph).2

theorem shape_well_formed (history : List Shaping) (graph : Graph) (before : graph.WellFormed) :
    (shape history graph).WellFormed := by
  induction history generalizing graph with
  | nil => exact before
  | cons step rest ih => exact ih _ (step.edit_well_formed before)

theorem shape_follows (history : List Shaping) (graph : Graph) (follow : SwitchesFollow graph.nodes)
    (calm : retypesAlong history graph = false) : SwitchesFollow (shape history graph).nodes := by
  induction history generalizing graph with
  | nil => exact follow
  | cons step rest ih =>
    obtain ⟨first, later⟩ := Bool.or_eq_false_iff.mp calm
    exact ih _ ((step.edit_follows follow).mpr first) later

/-- A switch has the type of its cases, and it takes what the output that feeds it gives. It has the type of that output as
long as no edit gives the output another type that the switch still takes. -/
theorem connected_switches_typed (history : List Shaping) :
    let graph := shape history Graph.empty
    (∀ node ∈ graph.nodes, node.kind = .switch → ∃ pin, node.inputs[switchValuePin]? = some pin ∧
      (∀ out ∈ node.execOut, ∀ case, out.case = some case → case.type = pin.type) ∧
      ∀ source, pin.source = some source → ∃ type, outputType? graph.nodes source = some type ∧
        pin.type.assignable type = true) ∧
    (retypesAlong history Graph.empty = false → SwitchesFollow graph.nodes) ∧
    (SwitchesFollow graph.nodes → ∀ step : Shaping,
      SwitchesFollow (step.edit graph).2.nodes ↔ step.retypes graph = false) := by
  intro graph
  have formed : graph.WellFormed := shape_well_formed history Graph.empty empty_well_formed
  refine ⟨fun node inside isSwitch => ?_, ?_, fun follow step => step.edit_follows follow⟩
  · obtain ⟨index, found⟩ := List.mem_iff_getElem?.mp inside
    obtain ⟨pin, value, typed⟩ := (formed.tidy index node found).switches isSwitch
    refine ⟨pin, value, typed, fun source connected => ?_⟩
    obtain ⟨feeding, output, there, given, assignable⟩ :=
      (formed.linked node inside).sources pin (List.mem_of_getElem? value) source connected
    exact ⟨output.type, by rw [outputType?, there, Option.bind_some, given, Option.map_some], assignable⟩
  · exact shape_follows history Graph.empty (fun node inside => absurd inside List.not_mem_nil)

def castSwitch (target : PinType) : List Shaping :=
  [.revision (.addNode (.cast target) (Float32.ofBits 0) (Float32.ofBits 0)) rfl,
    .revision (.addNode (.switch .any) (Float32.ofBits 0) (Float32.ofBits 0)) rfl, .revision (.addOutput 1) rfl,
    .revision (.connect 0 0 1 0) rfl]

/-- The switch takes the type of the cast. A cast to text is cut off from it, and a cast to anything is not. -/
theorem cast_switch_typed :
    let graph := shape (castSwitch .int) Graph.empty
    let toText : Shaping := .revision (.setLiteral 0 castTypePin (.string "String")) rfl
    let toAny : Shaping := .revision (.setLiteral 0 castTypePin (.string "Any")) rfl
    graph.nodes.map Node.outline = [⟨some .int, false, [(.any, none, false), (.string, none, true)], [.int], [none, none]⟩,
        ⟨none, true, [(.int, some ⟨0, 0⟩, false)], [], [none, some .int]⟩] ∧
      SwitchesFollow graph.nodes ∧ SwitchesFollow (toText.edit graph).2.nodes ∧ ¬ SwitchesFollow (toAny.edit graph).2.nodes := by
  intro graph toText toAny
  obtain ⟨_, follow, step⟩ := connected_switches_typed (castSwitch .int)
  have follows := follow (by decide +kernel)
  refine ⟨rfl, follows, (step follows toText).mpr (by decide +kernel), fun apart => ?_⟩
  exact absurd ((step follows toAny).mp apart) (by decide +kernel)

/-- The switch and its case still have the type that the cast had. -/
theorem retargeted_cast_leaves_switch :
    let graph := shape (castSwitch .int ++ [.revision (.setLiteral 0 castTypePin (.string "Any")) rfl]) Graph.empty
    outputType? graph.nodes ⟨0, 0⟩ = some .any ∧
      (graph.nodes[1]?).map (fun node => (node.inputs.map fun pin => (pin.type, pin.source), node.execOut.map ExecPin.caseType)) =
        some ([(.int, some ⟨0, 0⟩)], [none, some .int]) ∧ ¬ SwitchesFollow graph.nodes := by
  refine ⟨?_, ?_, ?_⟩ <;> decide +kernel

end Patchbay
