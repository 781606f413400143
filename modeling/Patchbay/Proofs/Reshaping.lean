import Patchbay.Proofs.Signatures
import Patchbay.Proofs.Transplant

set_option autoImplicit false

namespace Patchbay

/-- The parameters that the pins of a node are to have. Where none are given, the pins stay as they are. -/
structure Shape where
  inputs : Option (List Parameter)
  outputs : Option (List Parameter)

/-- A pin, and the one that was in its place. Its literal is another one only with another type. -/
def InputPin.Succeeds (pin : InputPin) : Option InputPin → Prop
  | none => pin = .fresh pin.name pin.type
  | some was => pin.literalOnly = was.literalOnly ∧
      pin.literal = if pin.type = was.type then was.literal else pin.type.defaultValue

def ExecPin.label (pin : ExecPin) : String × Option SwitchCase := (pin.name, pin.case)

/-- A node whose pins were brought into shape. Where its connections go is not said here. -/
structure Node.Resynced (shape : Shape) (old new : Node) : Prop where
  rest : { new with inputs := old.inputs, outputs := old.outputs, execOut := old.execOut } = old
  inputs : new.inputs.map (·.parameter) = shape.inputs.getD (old.inputs.map (·.parameter))
  outputs : new.outputs.map (·.parameter) = shape.outputs.getD (old.outputs.map (·.parameter))
  literals : ∀ (place : Nat) (pin : InputPin), new.inputs[place]? = some pin → pin.Succeeds old.inputs[place]?
  execOut : new.execOut.map (·.label) = old.execOut.map (·.label)

def Node.take (shape : Shape) (node : Node) : Node :=
  { node with
    inputs := (shape.inputs.map fun parameters => (InputPin.alignAll 0 parameters node.inputs).map (·.1)).getD node.inputs
    outputs := (shape.outputs.map fun parameters => (OutputPin.alignAll 0 parameters node.outputs).map (·.1)).getD node.outputs }

namespace Graph

def Wired (index place : Nat) (source : PinSource) (graph : Graph) : Prop :=
  ∃ node pin, graph.nodes[index]? = some node ∧ node.inputs[place]? = some pin ∧ pin.source = some source

/-- Both of these pins exist, and the input accepts what the output gives. -/
def Fits (index place : Nat) (source : PinSource) (graph : Graph) : Prop :=
  ∃ taker input giver output, graph.nodes[index]? = some taker ∧ taker.signature.inputs[place]? = some input ∧
    graph.nodes[source.node]? = some giver ∧ giver.signature.outputs[source.parameter]? = some output ∧
    input.type.assignable output.type = true

instance (index place : Nat) (source : PinSource) (graph : Graph) : Decidable (graph.Wired index place source) :=
  decidable_of_iff ((graph.nodes[index]?.bind (·.inputs[place]?)).bind (·.source) = some source) (by
    simp only [Wired, Option.bind_eq_some_iff]
    grind)

instance (index place : Nat) (source : PinSource) (graph : Graph) : Decidable (graph.Fits index place source) :=
  decidable_of_iff (∃ input ∈ graph.nodes[index]?.bind (·.signature.inputs[place]?),
      ∃ output ∈ graph.nodes[source.node]?.bind (·.signature.outputs[source.parameter]?),
        input.type.assignable output.type = true) (by
    simp only [Fits, Option.mem_def, Option.bind_eq_some_iff]
    grind)

def Leads (index place : Nat) (target : ExecTarget) (graph : Graph) : Prop :=
  ∃ node pin, graph.nodes[index]? = some node ∧ node.execOut[place]? = some pin ∧ pin.target = some target

def taking (shape : Nat → NodeKind → Shape) (graph : Graph) : Graph :=
  { graph with nodes := graph.nodes.mapIdx fun index node => node.take (shape index node.kind) }

end Graph

theorem align_all_at (parameters : List Parameter) (pins : List InputPin) (index place : Nat) :
    ((InputPin.alignAll index parameters pins).map (·.1))[place]? = parameters[place]?.map fun parameter =>
      ((pins[place]?).map fun pin => (pin.align 0 parameter).1).getD (.fresh parameter.name parameter.type) := by
  induction parameters generalizing pins index place with
  | nil => rfl
  | cons parameter rest ih =>
    cases pins with
    | nil =>
      cases place with
      | zero => rfl
      | succ place => exact (ih [] (index + 1) place).trans (by simp)
    | cons pin pins =>
      cases place with
      | zero =>
        by_cases same : pin.type = parameter.type <;> simp [InputPin.alignAll, InputPin.align, same]
      | succ place => exact (ih pins (index + 1) place).trans (by simp)

theorem align_succeeds (parameter : Parameter) (pin : InputPin) : (pin.align 0 parameter).1.Succeeds (some pin) := by
  by_cases same : pin.type = parameter.type
  · simp [InputPin.align, InputPin.Succeeds, same]
  · simp [InputPin.align, InputPin.Succeeds, same, Ne.symm same]

theorem align_source (parameter : Parameter) (pin : InputPin) : (pin.align 0 parameter).1.source = pin.source := by
  by_cases same : pin.type = parameter.type <;> simp [InputPin.align, same]

namespace Node

variable (shape : Shape) (node : Node)

theorem taken_input {place : Nat} {pin : InputPin} (found : (node.take shape).inputs[place]? = some pin) :
    pin.Succeeds node.inputs[place]? ∧ ∀ source, pin.source = some source ↔
      ∃ was, node.inputs[place]? = some was ∧ was.source = some source := by
  cases asked : shape.inputs with
  | none =>
    simp only [take, asked, Option.map_none, Option.getD_none] at found
    simp [found, InputPin.Succeeds]
  | some =>
    simp only [take, asked, Option.map_some, Option.getD_some, align_all_at] at found
    obtain ⟨parameter, _, rfl⟩ := Option.map_eq_some_iff.mp found
    cases node.inputs[place]? with
    | none => simp [InputPin.Succeeds, InputPin.fresh]
    | some was => simp [align_succeeds parameter was, align_source parameter was]

theorem take_signature : (node.take shape).signature =
    ⟨shape.inputs.getD node.signature.inputs, shape.outputs.getD node.signature.outputs⟩ := by
  refine congrArg₂ Signature.mk ?_ ?_
  · cases asked : shape.inputs with
    | none => simp [take, asked, signature]
    | some parameters => simpa [take, asked] using align_all_inputs parameters node.inputs 0
  · cases asked : shape.outputs with
    | none => simp [take, asked, signature]
    | some parameters => simpa [take, asked] using align_all_outputs parameters node.outputs 0

theorem take_resynced : node.Resynced shape (node.take shape) where
  rest := rfl
  inputs := congrArg Signature.inputs (take_signature shape node)
  outputs := congrArg Signature.outputs (take_signature shape node)
  literals _ _ found := (taken_input shape node found).1
  execOut := rfl

variable (nodes : List Node)

theorem prune_signature : (node.prune nodes).signature = node.signature := by
  refine congrArg₂ Signature.mk ?_ rfl
  rw [prune, List.map_map]
  refine List.map_congr_left fun pin _ => ?_
  rw [Function.comp_apply, InputPin.prune]
  split <;> rfl

theorem prune_labels : (node.prune nodes).execOut.map (·.label) = node.execOut.map (·.label) := by
  rw [prune, List.map_map]
  refine List.map_congr_left fun pin _ => ?_
  rw [Function.comp_apply, ExecPin.prune]
  split <;> rfl

end Node

variable {was : Option InputPin}

theorem pruned_succeeds (nodes : List Node) {pin : InputPin} (succeeds : pin.Succeeds was) :
    (pin.prune nodes).Succeeds was := by
  rw [InputPin.prune]
  split
  · exact succeeds
  · next unfit =>
      cases was with
      | some was => exact succeeds
      | none =>
        have free : pin.source = none := congrArg InputPin.source succeeds
        simp [InputPin.fits, free] at unfit

theorem succeeds_pruned (nodes : List Node) (pin : InputPin)
    (succeeds : pin.Succeeds (was.map (·.prune nodes))) : pin.Succeeds was := by
  cases was with
  | none => exact succeeds
  | some was =>
    rw [Option.map_some, InputPin.prune] at succeeds
    split at succeeds <;> exact succeeds

namespace Node.Resynced

variable {shape : Shape} {old new : Node}

theorem pruned (resynced : old.Resynced shape new) (nodes : List Node) : old.Resynced shape (new.prune nodes) where
  rest := resynced.rest
  inputs := (congrArg Signature.inputs (new.prune_signature nodes)).trans resynced.inputs
  outputs := resynced.outputs
  literals place pin found := by
    rw [prune, List.getElem?_map] at found
    obtain ⟨other, there, rfl⟩ := Option.map_eq_some_iff.mp found
    exact pruned_succeeds nodes (resynced.literals place other there)
  execOut := (new.prune_labels nodes).trans resynced.execOut

theorem of_pruned {nodes : List Node} (resynced : (old.prune nodes).Resynced shape new) : old.Resynced shape new where
  rest := congrArg (fun node => { node with inputs := old.inputs, execOut := old.execOut }) resynced.rest
  inputs := resynced.inputs.trans (congrArg (shape.inputs.getD ·) (congrArg Signature.inputs (old.prune_signature nodes)))
  outputs := resynced.outputs
  literals place pin found := by
    refine succeeds_pruned nodes pin ?_
    rw [← List.getElem?_map]
    exact resynced.literals place pin found
  execOut := resynced.execOut.trans (old.prune_labels nodes)

end Node.Resynced

namespace Graph

variable (index place : Nat) (source : PinSource) (target : ExecTarget)

theorem fits_congr {a b : Graph} (same : b.nodes.map (·.signature) = a.nodes.map (·.signature))
    (fits : a.Fits index place source) : b.Fits index place source := by
  obtain ⟨taker, input, giver, output, taking, takes, giving, gives, assignable⟩ := fits
  obtain ⟨other, there, shape⟩ := get_of_map_eq _ same taking
  obtain ⟨another, found, form⟩ := get_of_map_eq _ same giving
  exact ⟨other, input, another, output, there, shape ▸ takes, found, form ▸ gives, assignable⟩

theorem fits_feeds {graph : Graph} {node : Node} {pin : InputPin} (found : graph.nodes[index]? = some node)
    (there : node.inputs[place]? = some pin) : graph.Fits index place source ↔ Feeds graph.nodes pin source := by
  have input : node.signature.inputs[place]? = some pin.parameter := by
    rw [Node.signature, List.getElem?_map, there, Option.map_some]
  constructor
  · rintro ⟨taker, _, giver, _, taking, takes, giving, gives, assignable⟩
    cases found.symm.trans taking
    cases input.symm.trans takes
    rw [Node.signature, List.getElem?_map] at gives
    obtain ⟨output, given, rfl⟩ := Option.map_eq_some_iff.mp gives
    exact ⟨giver, output, giving, given, assignable⟩
  · rintro ⟨giver, output, giving, given, assignable⟩
    refine ⟨node, pin.parameter, giver, output.parameter, found, input, giving, ?_, assignable⟩
    rw [Node.signature, List.getElem?_map, given, Option.map_some]

variable (graph : Graph)

theorem prune_signatures : graph.prune.1.nodes.map (·.signature) = graph.nodes.map (·.signature) := by
  rw [prune_nodes, List.map_map]
  exact List.map_congr_left fun node _ => node.prune_signature graph.nodes

theorem prune_fits : graph.prune.1.Fits index place source ↔ graph.Fits index place source :=
  ⟨fits_congr index place source graph.prune_signatures.symm, fits_congr index place source graph.prune_signatures⟩

theorem prune_found (node : Node) : graph.prune.1.nodes[index]? = some node ↔
    ∃ old, graph.nodes[index]? = some old ∧ old.prune graph.nodes = node := by
  rw [prune_nodes, List.getElem?_map]
  exact Option.map_eq_some_iff

theorem prune_wired : graph.prune.1.Wired index place source ↔
    graph.Wired index place source ∧ graph.Fits index place source := by
  constructor
  · rintro ⟨node, pin, found, there, connected⟩
    obtain ⟨old, stood, rfl⟩ := (prune_found index graph node).mp found
    rw [Node.prune, List.getElem?_map] at there
    obtain ⟨was, held, rfl⟩ := Option.map_eq_some_iff.mp there
    obtain ⟨connected, feeds⟩ := (input_pruned graph.nodes was source).mp connected
    exact ⟨⟨old, was, stood, held, connected⟩, (fits_feeds index place source stood held).mpr feeds⟩
  · rintro ⟨⟨node, pin, found, there, connected⟩, fits⟩
    have feeds := (fits_feeds index place source found there).mp fits
    refine ⟨_, pin.prune graph.nodes, (prune_found index graph _).mpr ⟨node, found, rfl⟩, ?_,
      (input_pruned _ _ _).mpr ⟨connected, feeds⟩⟩
    rw [Node.prune, List.getElem?_map, there, Option.map_some]

theorem admits_congr {a b : Graph} (same : b.nodes.map (·.execIn) = a.nodes.map (·.execIn)) :
    Admits b.nodes target ↔ Admits a.nodes target := by
  have one (a b : Graph) (same : b.nodes.map (·.execIn) = a.nodes.map (·.execIn)) (admits : Admits a.nodes target) :
      Admits b.nodes target := by
    obtain ⟨node, found, inside⟩ := admits
    obtain ⟨other, there, pins⟩ := get_of_map_eq _ same found
    exact ⟨other, there, pins ▸ inside⟩
  exact ⟨one b a same.symm, one a b same⟩

theorem prune_entered : graph.prune.1.nodes.map (·.execIn) = graph.nodes.map (·.execIn) := by
  rw [prune_nodes, List.map_map]
  rfl

theorem prune_leads : graph.prune.1.Leads index place target ↔
    graph.Leads index place target ∧ Admits graph.nodes target := by
  constructor
  · rintro ⟨node, pin, found, there, leads⟩
    obtain ⟨old, stood, rfl⟩ := (prune_found index graph node).mp found
    rw [Node.prune, List.getElem?_map] at there
    obtain ⟨was, held, rfl⟩ := Option.map_eq_some_iff.mp there
    obtain ⟨leads, admits⟩ := (exec_pruned graph.nodes was target).mp leads
    exact ⟨⟨old, was, stood, held, leads⟩, admits⟩
  · rintro ⟨⟨node, pin, found, there, leads⟩, admits⟩
    refine ⟨_, pin.prune graph.nodes, (prune_found index graph _).mpr ⟨node, found, rfl⟩, ?_,
      (exec_pruned _ _ _).mpr ⟨leads, admits⟩⟩
    rw [Node.prune, List.getElem?_map, there, Option.map_some]

variable (shape : Nat → NodeKind → Shape)

variable (graph : Graph)

theorem taking_found (node : Node) : (graph.taking shape).nodes[index]? = some node ↔
    ∃ old, graph.nodes[index]? = some old ∧ old.take (shape index old.kind) = node := by
  rw [taking, List.getElem?_mapIdx]
  exact Option.map_eq_some_iff

theorem taking_entered : (graph.taking shape).nodes.map (·.execIn) = graph.nodes.map (·.execIn) := by
  refine List.ext_getElem? fun place => ?_
  rw [taking, List.getElem?_map, List.getElem?_map, List.getElem?_mapIdx, Option.map_map]
  rfl

theorem taking_leads : (graph.taking shape).Leads index place target ↔ graph.Leads index place target := by
  constructor
  · rintro ⟨node, pin, found, there, leads⟩
    obtain ⟨old, was, rfl⟩ := (taking_found index shape graph node).mp found
    exact ⟨old, pin, was, there, leads⟩
  · rintro ⟨node, pin, found, there, leads⟩
    exact ⟨_, pin, (taking_found index shape graph _).mpr ⟨node, found, rfl⟩, there, leads⟩

theorem taking_wired :
    (graph.taking shape).Wired index place source ∧ (graph.taking shape).Fits index place source ↔
      graph.Wired index place source ∧ (graph.taking shape).Fits index place source := by
  refine and_congr_left ?_
  rintro ⟨taker, input, _, _, taking, takes, _⟩
  obtain ⟨old, was, rfl⟩ := (taking_found index shape graph taker).mp taking
  rw [Node.signature, List.getElem?_map] at takes
  obtain ⟨pin, there, _⟩ := Option.map_eq_some_iff.mp takes
  obtain ⟨_, sources⟩ := old.taken_input (shape index old.kind) there
  constructor
  · rintro ⟨node, other, found, here, connected⟩
    cases taking.symm.trans found
    cases there.symm.trans here
    obtain ⟨first, stood, connected⟩ := (sources source).mp connected
    exact ⟨old, first, was, stood, connected⟩
  · rintro ⟨node, other, found, here, connected⟩
    cases was.symm.trans found
    exact ⟨_, pin, taking, there, (sources source).mpr ⟨other, here, connected⟩⟩

/-- Where two shapes ask the same of both ends, a connection fits in both. -/
theorem taking_fits (other : Nat → NodeKind → Shape) (graph : Graph)
    (inputs : ∀ node, graph.nodes[index]? = some node → (other index node.kind).inputs = (shape index node.kind).inputs)
    (outputs : ∀ node, graph.nodes[source.node]? = some node →
      (other source.node node.kind).outputs = (shape source.node node.kind).outputs)
    (fits : (graph.taking shape).Fits index place source) : (graph.taking other).Fits index place source := by
  obtain ⟨taker, input, giver, output, taking, takes, giving, gives, assignable⟩ := fits
  obtain ⟨first, found, rfl⟩ := (taking_found index shape graph taker).mp taking
  obtain ⟨second, there, rfl⟩ := (taking_found source.node shape graph giver).mp giving
  refine ⟨_, input, _, output, (taking_found index other graph _).mpr ⟨first, found, rfl⟩, ?_,
    (taking_found source.node other graph _).mpr ⟨second, there, rfl⟩, ?_, assignable⟩
  · rw [Node.take_signature] at takes ⊢
    rwa [inputs first found]
  · rw [Node.take_signature] at gives ⊢
    rwa [outputs second there]

theorem taking_nothing (unasked : ∀ index node, graph.nodes[index]? = some node → shape index node.kind = ⟨none, none⟩) :
    graph.taking shape = graph := by
  have nodes : graph.nodes.mapIdx (fun index node => node.take (shape index node.kind)) = graph.nodes := by
    refine List.ext_getElem? fun index => ?_
    rw [List.getElem?_mapIdx]
    cases found : graph.nodes[index]? with
    | none => rfl
    | some node =>
      rw [Option.map_some, unasked index node found]
      rfl
  rw [taking, nodes]

/-- A graph whose nodes were brought into shape. Connections of control stay where their targets are there. -/
structure Resynced (before : Graph) (shape : Nat → NodeKind → Shape) (after : Graph) : Prop where
  rest : { after with nodes := before.nodes, size := before.size } = before
  uncompiled : after.size = none
  count : after.nodes.length = before.nodes.length
  nodes : ∀ (index : Nat) (old new : Node), before.nodes[index]? = some old → after.nodes[index]? = some new →
    old.Resynced (shape index old.kind) new
  leads : ∀ index place target, after.Leads index place target ↔ before.Leads index place target ∧ Admits after.nodes target

namespace Resynced

variable {before after : Graph} {shape : Nat → NodeKind → Shape}

theorem found (resynced : before.Resynced shape after) {index : Nat} {old : Node} (was : before.nodes[index]? = some old) :
    ∃ new, after.nodes[index]? = some new ∧ old.Resynced (shape index old.kind) new := by
  have inside : index < after.nodes.length := resynced.count ▸ (List.getElem?_eq_some_iff.mp was).1
  have there := List.getElem?_eq_getElem inside
  exact ⟨_, there, resynced.nodes index old _ was there⟩

theorem signatures (resynced : before.Resynced shape after) :
    after.nodes.map (·.signature) = (before.taking shape).nodes.map (·.signature) := by
  refine List.ext_getElem? fun index => ?_
  rw [taking, List.getElem?_map, List.getElem?_map, List.getElem?_mapIdx]
  cases was : before.nodes[index]? with
  | none =>
    have beyond : after.nodes.length ≤ index := resynced.count ▸ List.getElem?_eq_none_iff.mp was
    rw [List.getElem?_eq_none beyond]
    rfl
  | some old =>
    obtain ⟨new, there, node⟩ := resynced.found was
    rw [there, Option.map_some, Option.map_some, Option.map_some, Node.take_signature]
    exact congrArg some (congrArg₂ Signature.mk node.inputs node.outputs)

end Resynced

def reform (graph : Graph) : Graph := (graph.taking shape).prune.1.uncompile

variable (graph : Graph)

theorem reform_found (node : Node) : (graph.reform shape).nodes[index]? = some node ↔
    ∃ old, graph.nodes[index]? = some old ∧ (old.take (shape index old.kind)).prune (graph.taking shape).nodes = node := by
  constructor
  · intro found
    obtain ⟨taken, here, rfl⟩ := (prune_found index (graph.taking shape) node).mp found
    obtain ⟨old, was, rfl⟩ := (taking_found index shape graph taken).mp here
    exact ⟨old, was, rfl⟩
  · rintro ⟨old, was, rfl⟩
    exact (prune_found index (graph.taking shape) _).mpr ⟨_, (taking_found index shape graph _).mpr ⟨old, was, rfl⟩, rfl⟩

theorem prune_uncompiled :
    graph.prune.1.uncompile = { graph with nodes := graph.prune.1.nodes, size := none } := by
  simp only [prune, uncompile]
  split <;> rfl

theorem reform_entered : (graph.reform shape).nodes.map (·.execIn) = graph.nodes.map (·.execIn) :=
  (graph.taking shape).prune_entered.trans (taking_entered shape graph)

theorem reform_leads : (graph.reform shape).Leads index place target ↔
    graph.Leads index place target ∧ Admits (graph.reform shape).nodes target := by
  have admits := admits_congr target (graph.taking shape).prune_entered
  exact (prune_leads index place target _).trans (and_congr (taking_leads index place target shape graph) admits.symm)

theorem reform_fits :
    (graph.reform shape).Fits index place source ↔ (graph.taking shape).Fits index place source :=
  prune_fits index place source (graph.taking shape)

theorem reform_wires : (graph.reform shape).Wired index place source ↔
    graph.Wired index place source ∧ (graph.reform shape).Fits index place source := by
  rw [reform_fits, ← taking_wired]
  exact prune_wired index place source (graph.taking shape)

theorem reform_resynced : graph.Resynced shape (graph.reform shape) where
  rest := by
    rw [reform, prune_uncompiled]
    rfl
  uncompiled := rfl
  count := by rw [reform, uncompile, prune_nodes, List.length_map, taking, List.length_mapIdx]
  nodes index old new found there := by
    obtain ⟨same, again, rfl⟩ := (reform_found index shape graph new).mp there
    cases found.symm.trans again
    exact (old.take_resynced _).pruned _
  leads index place target := reform_leads index place target shape graph

/-- Where nothing is asked, nothing fails to fit and nothing is compiled, there is nothing to do. -/
theorem reform_nothing {graph : Graph} (linked : Linked graph.nodes) (uncompiled : graph.size = none)
    (unasked : ∀ index node, graph.nodes[index]? = some node → shape index node.kind = ⟨none, none⟩) :
    graph.reform shape = graph := by
  have nodes : graph.prune.1.nodes = graph.nodes := by
    rw [prune_nodes]
    exact (List.map_congr_left fun node inside => linked_pruned (linked node inside)).trans (List.map_id _)
  rw [reform, taking_nothing shape graph unasked, prune_uncompiled, nodes, ← uncompiled]

end Graph

end Patchbay
