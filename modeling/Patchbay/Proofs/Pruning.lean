import Patchbay.Proofs.Counting
import Patchbay.Proofs.Pasting

set_option autoImplicit false

namespace Patchbay

namespace Node

/-- A pin whose connection is not valid. The source of an input may be missing, or the input may not take what it gives; the
in-pin that an out-pin leads to may be missing. -/
inductive Invalid (nodes : List Node) (node : Node) : PinRef → Prop where
  | input (place : Nat) (pin : InputPin) (source : PinSource) (there : node.inputs[place]? = some pin)
      (connected : pin.source = some source) (unfed : ¬ Feeds nodes pin source) : Invalid nodes node (.input place)
  | execOut (place : Nat) (pin : ExecPin) (target : ExecTarget) (there : node.execOut[place]? = some pin)
      (connected : pin.target = some target) (refused : ¬ Admits nodes target) : Invalid nodes node (.execOut place)

/-- What is left of a node when some of its pins lose their connections and all else stays as it is. -/
structure Disconnected (cut : PinRef → Prop) (node left : Node) : Prop where
  rest : left = { node with inputs := left.inputs, execOut := left.execOut }
  inputCount : left.inputs.length = node.inputs.length
  inputCut : ∀ place pin, node.inputs[place]? = some pin → cut (.input place) →
    left.inputs[place]? = some { pin with source := none, slot := none }
  inputKept : ∀ place pin, node.inputs[place]? = some pin → ¬ cut (.input place) → left.inputs[place]? = some pin
  outCount : left.execOut.length = node.execOut.length
  outCut : ∀ place pin, node.execOut[place]? = some pin → cut (.execOut place) →
    left.execOut[place]? = some { pin with target := none }
  outKept : ∀ place pin, node.execOut[place]? = some pin → ¬ cut (.execOut place) → left.execOut[place]? = some pin

end Node

theorem unfed_iff (nodes : List Node) (pin : InputPin) :
    pin.fits nodes = false ↔ ∃ source, pin.source = some source ∧ ¬ Feeds nodes pin source := by
  rw [← Bool.not_eq_true]
  constructor
  · intro unfit
    by_contra fed
    refine unfit (fits_of_feeds nodes pin fun source connected => ?_)
    by_contra unfed
    exact fed ⟨source, connected, unfed⟩
  · rintro ⟨source, connected, unfed⟩ fits
    exact unfed (input_fits connected fits)

theorem refused_iff (nodes : List Node) (pin : ExecPin) :
    pin.fits nodes = false ↔ ∃ target, pin.target = some target ∧ ¬ Admits nodes target := by
  rw [← Bool.not_eq_true]
  constructor
  · intro unfit
    by_contra admitted
    refine unfit (fits_of_admits nodes pin fun target connected => ?_)
    by_contra refused
    exact admitted ⟨target, connected, refused⟩
  · rintro ⟨target, connected, refused⟩ fits
    exact refused (exec_fits connected fits)

namespace Node

variable (nodes : List Node) (node : Node)

theorem invalid_input {place : Nat} {pin : InputPin} (there : node.inputs[place]? = some pin) :
    node.Invalid nodes (.input place) ↔ pin.fits nodes = false := by
  rw [unfed_iff]
  constructor
  · rintro ⟨_, other, source, found, connected, unfed⟩
    cases there.symm.trans found
    exact ⟨source, connected, unfed⟩
  · rintro ⟨source, connected, unfed⟩
    exact .input place pin source there connected unfed

theorem invalid_out {place : Nat} {pin : ExecPin} (there : node.execOut[place]? = some pin) :
    node.Invalid nodes (.execOut place) ↔ pin.fits nodes = false := by
  rw [refused_iff]
  constructor
  · intro invalid
    cases invalid with
    | execOut _ other target found connected refused =>
      cases there.symm.trans found
      exact ⟨target, connected, refused⟩
  · rintro ⟨target, connected, refused⟩
    exact .execOut place pin target there connected refused

theorem prune_disconnects : node.Disconnected (node.Invalid nodes) (node.prune nodes) where
  rest := rfl
  inputCount := List.length_map _
  inputCut place pin there cut := by
    have unfit := (node.invalid_input nodes there).mp cut
    rw [prune, List.getElem?_map, there, Option.map_some, InputPin.prune, unfit]
    rfl
  inputKept place pin there kept := by
    rw [node.invalid_input nodes there, Bool.not_eq_false] at kept
    rw [prune, List.getElem?_map, there, Option.map_some, InputPin.prune, if_pos kept]
  outCount := List.length_map _
  outCut place pin there cut := by
    have unfit := (node.invalid_out nodes there).mp cut
    rw [prune, List.getElem?_map, there, Option.map_some, ExecPin.prune, unfit]
    rfl
  outKept place pin there kept := by
    rw [node.invalid_out nodes there, Bool.not_eq_false] at kept
    rw [prune, List.getElem?_map, there, Option.map_some, ExecPin.prune, if_pos kept]

theorem invalid_pins : {pin | node.Invalid nodes pin} =
    PinRef.input '' {place | ∃ pin, node.inputs[place]? = some pin ∧ (!pin.fits nodes) = true} ∪
      PinRef.execOut '' {place | ∃ pin, node.execOut[place]? = some pin ∧ (!pin.fits nodes) = true} := by
  ext pin
  constructor
  · intro invalid
    cases invalid with
    | input place pin source there connected unfed =>
      have unfit := (unfed_iff nodes pin).mpr ⟨source, connected, unfed⟩
      exact .inl ⟨place, ⟨pin, there, by rw [unfit]; rfl⟩, rfl⟩
    | execOut place pin target there connected refused =>
      have unfit := (refused_iff nodes pin).mpr ⟨target, connected, refused⟩
      exact .inr ⟨place, ⟨pin, there, by rw [unfit]; rfl⟩, rfl⟩
  · rintro (⟨place, ⟨pin, there, unfit⟩, rfl⟩ | ⟨place, ⟨pin, there, unfit⟩, rfl⟩)
    · exact (node.invalid_input nodes there).mpr (Bool.not_eq_true' _ ▸ unfit)
    · exact (node.invalid_out nodes there).mpr (Bool.not_eq_true' _ ▸ unfit)

theorem invalid_count : {pin | node.Invalid nodes pin}.encard = node.misfits nodes := by
  have apart : Disjoint (PinRef.input '' {place | ∃ pin, node.inputs[place]? = some pin ∧ (!pin.fits nodes) = true})
      (PinRef.execOut '' {place | ∃ pin, node.execOut[place]? = some pin ∧ (!pin.fits nodes) = true}) := by
    rw [Set.disjoint_left]
    rintro _ ⟨place, _, rfl⟩ ⟨other, _, same⟩
    cases same
  have inputs : Function.Injective PinRef.input := fun _ _ => PinRef.input.inj
  have outs : Function.Injective PinRef.execOut := fun _ _ => PinRef.execOut.inj
  rw [invalid_pins, Set.encard_union_eq apart, inputs.encard_image, outs.encard_image, encard_places, encard_places]
  rfl

theorem linked_valid (linked : node.LinkedIn nodes) (pin : PinRef) : ¬ node.Invalid nodes pin := by
  intro invalid
  cases invalid with
  | input place pin source there connected unfed =>
    exact unfed (linked.sources pin (List.mem_of_getElem? there) source connected)
  | execOut place pin target there connected refused =>
    exact refused (linked.targets pin (List.mem_of_getElem? there) target connected)

end Node

namespace Graph

def invalidPins (graph : Graph) : Set (Nat × PinRef) :=
  {spot | ∃ node, graph.nodes[spot.1]? = some node ∧ node.Invalid graph.nodes spot.2}

theorem invalid_pins_count (graph : Graph) : graph.invalidPins.encard = graph.misfits :=
  encard_members graph.nodes (fun node => {pin | node.Invalid graph.nodes pin}) _ fun node _ => node.invalid_count graph.nodes

theorem linked_prune {graph : Graph} (linked : Linked graph.nodes) : graph.prune = (graph, 0) := by
  have none : graph.invalidPins = ∅ := by
    rw [Set.eq_empty_iff_forall_notMem]
    rintro spot ⟨node, found, invalid⟩
    exact node.linked_valid graph.nodes (linked node (List.mem_of_getElem? found)) spot.2 invalid
  have count : graph.misfits = 0 := by
    have counted := graph.invalid_pins_count
    rw [none, Set.encard_empty] at counted
    exact_mod_cast counted.symm
  exact Prod.ext (prune_without_misfits count) count

theorem prune_rest (graph : Graph) :
    graph.prune.1 = { graph with nodes := graph.prune.1.nodes, size := if graph.prune.2 = 0 then graph.size else none } := by
  rw [prune]
  dsimp only
  split <;> rfl

/-- Pruning cuts the connections that are not valid and no others, and counts them. What is left compiles, and there is
nothing to prune in it. -/
theorem pruning_exact (graph : Graph) :
    graph.prune.1.nodes.length = graph.nodes.length ∧
    (∀ (index : Nat) (node : Node), graph.nodes[index]? = some node →
      ∃ left, graph.prune.1.nodes[index]? = some left ∧ node.Disconnected (node.Invalid graph.nodes) left) ∧
    graph.prune.1 = { graph with nodes := graph.prune.1.nodes, size := if graph.prune.2 = 0 then graph.size else none } ∧
    graph.invalidPins.encard = graph.prune.2 ∧
    graph.prune.1.prune = (graph.prune.1, 0) ∧
    graph.prune.1.compile.1 = .ok () := by
  have mended := prune_mends graph
  refine ⟨?_, fun index node found => ?_, graph.prune_rest, graph.invalid_pins_count, linked_prune mended, ?_⟩
  · rw [prune_nodes, List.length_map]
  · refine ⟨node.prune graph.nodes, ?_, node.prune_disconnects graph.nodes⟩
    rw [prune_nodes, List.getElem?_map, found, Option.map_some]
  · exact congrArg Prod.fst (linked_compiles mended)

/-- Five of the six connections are cut. The way from the setter to the branch behind it is left. -/
theorem forgery_pruned :
    let graph : Graph := { Graph.empty with nodes := forgery, size := some 9 }
    graph.invalidPins.encard = 5 ∧ graph.prune.2 = 5 ∧ graph.prune.1.size = none ∧
    graph.prune.1.nodes.map Node.ends =
      [([], [none]), ([none], [none, none]), ([none], [some ⟨4, 0⟩]), ([], []), ([none], [none, none])] ∧
    (∃ node left, graph.nodes[2]? = some node ∧ graph.prune.1.nodes[2]? = some left ∧
      node.Disconnected (node.Invalid graph.nodes) left) ∧
    graph.prune.1.prune = (graph.prune.1, 0) ∧ graph.prune.1.compile.1 = .ok () := by
  intro graph
  obtain ⟨_, cut, rest, counted, again, compiles⟩ := pruning_exact graph
  have count : graph.prune.2 = 5 := by decide +kernel
  obtain ⟨node, found⟩ : ∃ node, graph.nodes[2]? = some node := ⟨_, rfl⟩
  obtain ⟨left, there, disconnected⟩ := cut 2 node found
  rw [count] at counted
  refine ⟨counted, count, ?_, ?_, ⟨node, left, found, there, disconnected⟩, again, compiles⟩
  · rw [rest, count]
    rfl
  · decide +kernel

end Graph

end Patchbay
