import Patchbay.Graph.Compile
import Patchbay.Graph.Prune

set_option autoImplicit false

namespace Patchbay

/-- What a compilation looks at: where the outputs of a node stand and how many there are, the
source and the slot of every input, the number of in-pins, and where the out-pins lead. -/
structure NodeLayout where
  base : Nat
  width : Nat
  inputs : List (Option PinSource × Option Nat)
  entrances : Nat
  targets : List (Option ExecTarget)

def InputPin.layout (pin : InputPin) : Option PinSource × Option Nat := (pin.source, pin.slot)

def Node.layout (node : Node) : NodeLayout :=
  ⟨node.base, node.outputs.length, node.inputs.map (·.layout), node.execIn.length, node.execOut.map (·.target)⟩

def widths (layouts : List NodeLayout) : Nat := (layouts.map (·.width)).foldr (· + ·) 0

/-- The slot that belongs to a source, if that output exists. -/
def outputSlot? (layouts : List NodeLayout) (source : PinSource) : Option Nat :=
  match layouts[source.node]? with
  | none => none
  | some entry => if source.parameter < entry.width then some (entry.base + source.parameter) else none

def Enters (layouts : List NodeLayout) (target : ExecTarget) : Prop :=
  ∃ entry, layouts[target.node]? = some entry ∧ target.pin < entry.entrances

/-- The outputs of the nodes follow the variables in order and fill the stack, every connected input
has the slot of its source, and every out-pin leads to an in-pin that exists. -/
structure Placed (locals : Nat) (size : Option Nat) (layouts : List NodeLayout) : Prop where
  bases : ∀ index entry, layouts[index]? = some entry → entry.base = locals + widths (layouts.take index)
  slots : ∀ entry ∈ layouts, ∀ input ∈ entry.inputs,
    input.2 = input.1.bind (outputSlot? layouts) ∧ (input.1.isSome → input.2.isSome)
  targets : ∀ entry ∈ layouts, ∀ target, some target ∈ entry.targets → Enters layouts target
  size : size = some (locals + widths layouts)

def Graph.layouts (graph : Graph) : List NodeLayout := graph.nodes.map Node.layout

def Graph.LaidOut (graph : Graph) : Prop := Placed graph.locals.length graph.size graph.layouts

variable (nodes : List Node) (index : Nat)

theorem widths_take {a b : List NodeLayout} (same : a.map (·.width) = b.map (·.width)) :
    widths (a.take index) = widths (b.take index) := by
  simp only [widths, List.map_take, same]

theorem slot_of_layout (source : PinSource) :
    slotOf? nodes source = outputSlot? (nodes.map Node.layout) source := by
  simp only [slotOf?, outputSlot?, List.getElem?_map]
  cases nodes[source.node]? <;> rfl

theorem assign_bases_get (next index : Nat) (nodes : List Node) :
    (assignBases next nodes).1[index]? =
      (nodes[index]?).map fun node => { node with base := next + widths ((nodes.map Node.layout).take index) } := by
  induction nodes generalizing next index with
  | nil => simp [assignBases]
  | cons node rest ih =>
    cases index with
    | zero => rfl
    | succ index =>
      have step : widths (node.layout :: (rest.map Node.layout).take index) =
          node.outputs.length + widths ((rest.map Node.layout).take index) := rfl
      simp only [assignBases, List.getElem?_cons_succ, ih, List.map_cons, List.take_succ_cons, step, Nat.add_assoc]

theorem assign_bases_size (next : Nat) (nodes : List Node) :
    (assignBases next nodes).2 = next + widths (nodes.map Node.layout) := by
  induction nodes generalizing next with
  | nil => rfl
  | cons node rest ih =>
    have step : widths ((node :: rest).map Node.layout) = node.outputs.length + widths (rest.map Node.layout) := rfl
    simp only [assignBases, ih, step, Nat.add_assoc]

def InputPin.linked (nodes : List Node) (pin : InputPin) : InputPin :=
  { pin with slot := pin.source.bind (slotOf? nodes) }

def Node.linked (nodes : List Node) (node : Node) : Node :=
  { node with inputs := node.inputs.map (·.linked nodes) }

def InputPin.HasSource (nodes : List Node) (pin : InputPin) : Prop :=
  pin.source.isSome → (pin.source.bind (slotOf? nodes)).isSome

def ExecPin.HasTarget (nodes : List Node) (pin : ExecPin) : Prop :=
  ∀ target, pin.target = some target → Enters (nodes.map Node.layout) target

structure Node.Connected (nodes : List Node) (node : Node) : Prop where
  inputs : ∀ pin ∈ node.inputs, pin.HasSource nodes
  targets : ∀ pin ∈ node.execOut, pin.HasTarget nodes

theorem resolve_inputs_faultless (pins : List InputPin) :
    ((resolveInputs nodes index pins).2 = none ↔ ∀ pin ∈ pins, pin.HasSource nodes) ∧
      ((resolveInputs nodes index pins).2 = none → (resolveInputs nodes index pins).1 = pins.map (·.linked nodes)) := by
  induction pins with
  | nil => simp [resolveInputs]
  | cons pin rest ih =>
    cases read : pin.source with
    | none =>
      have head : pin.HasSource nodes := by simp [InputPin.HasSource, read]
      have linked : pin.linked nodes = { pin with slot := none } := by simp [InputPin.linked, read]
      simp only [resolveInputs, read, List.forall_mem_cons, head, true_and, List.map_cons, linked]
      exact ⟨ih.1, fun done => by rw [ih.2 done]⟩
    | some source =>
      cases found : slotOf? nodes source with
      | none =>
        have missing : ¬ pin.HasSource nodes := by simp [InputPin.HasSource, read, found]
        simp [resolveInputs, read, found, missing]
      | some slot =>
        have head : pin.HasSource nodes := by simp [InputPin.HasSource, read, found]
        have linked : pin.linked nodes = { pin with slot := some slot } := by
          simp [InputPin.linked, read, found]
        simp only [resolveInputs, read, found, List.forall_mem_cons, head, true_and, List.map_cons, linked]
        exact ⟨ih.1, fun done => by rw [ih.2 done]⟩

theorem missing_target_none_iff (pins : List ExecPin) :
    missingTarget? nodes index pins = none ↔ ∀ pin ∈ pins, pin.HasTarget nodes := by
  induction pins with
  | nil => simp [missingTarget?]
  | cons pin rest ih =>
    cases led : pin.target with
    | none =>
      have head : pin.HasTarget nodes := by simp [ExecPin.HasTarget, led]
      simp only [missingTarget?, led, List.forall_mem_cons, head, true_and, ih]
    | some target =>
      cases found : nodes[target.node]? with
      | none =>
        have missing : ¬ pin.HasTarget nodes := by simp [ExecPin.HasTarget, led, Enters, found]
        simp [missingTarget?, led, found, missing]
      | some node =>
        have head : pin.HasTarget nodes ↔ target.pin < node.execIn.length := by
          simp [ExecPin.HasTarget, led, Enters, found, Node.layout]
        by_cases inside : target.pin < node.execIn.length
        · simp [missingTarget?, led, found, inside, head.mpr inside, ih]
        · simp [missingTarget?, led, found, inside, head]

theorem resolve_nodes_faultless (list : List Node) :
    ((resolveNodes nodes index list).2 = none ↔ ∀ node ∈ list, node.Connected nodes) ∧
      ((resolveNodes nodes index list).2 = none → (resolveNodes nodes index list).1 = list.map (·.linked nodes)) := by
  induction list generalizing index with
  | nil => simp [resolveNodes]
  | cons node rest ih =>
    obtain ⟨sourced, linked⟩ := resolve_inputs_faultless nodes index node.inputs
    have targeted := missing_target_none_iff nodes index node.execOut
    cases faulty : (resolveInputs nodes index node.inputs).2 with
    | some =>
      have cut : ¬ node.Connected nodes := fun connected => by simp [sourced.mpr connected.inputs] at faulty
      simp [resolveNodes, faulty, cut]
    | none =>
      cases missing : missingTarget? nodes index node.execOut with
      | some =>
        have cut : ¬ node.Connected nodes := fun connected => by
          simp [targeted.mpr connected.targets] at missing
        simp [resolveNodes, faulty, missing, cut]
      | none =>
        have head : node.Connected nodes := ⟨sourced.mp faulty, targeted.mp missing⟩
        have same : { node with inputs := (resolveInputs nodes index node.inputs).1 } = node.linked nodes := by
          rw [linked faulty]
          rfl
        simp only [resolveNodes, faulty, missing, List.forall_mem_cons, head, true_and, List.map_cons, same]
        exact ⟨(ih (index + 1)).1, fun done => by rw [(ih (index + 1)).2 done]⟩

def Graph.placed (graph : Graph) : List Node := (assignBases graph.locals.length graph.nodes).1

def Graph.linked (graph : Graph) : Graph :=
  { graph with
    nodes := graph.placed.map (·.linked graph.placed)
    size := some (graph.locals.length + widths graph.layouts) }

theorem compile_ok_iff (graph compiled : Graph) :
    graph.compile = (.ok (), compiled) ↔
      (∀ node ∈ graph.placed, node.Connected graph.placed) ∧ compiled = graph.linked := by
  obtain ⟨faultless, resolved⟩ := resolve_nodes_faultless graph.placed 0 graph.placed
  have size : (assignBases graph.locals.length graph.nodes).2 = graph.locals.length + widths graph.layouts :=
    assign_bases_size graph.locals.length graph.nodes
  cases outcome : resolveNodes graph.placed 0 graph.placed with
  | mk nodes fault =>
    rw [outcome] at faultless resolved
    have same : resolveNodes (assignBases graph.locals.length graph.nodes).1 0
        (assignBases graph.locals.length graph.nodes).1 = (nodes, fault) := outcome
    cases fault with
    | some error =>
      have unfolded : graph.compile = (.error error, { graph with nodes := nodes, size := none }) := by
        simp only [Graph.compile, same]
      rw [unfolded]
      refine ⟨fun done => by simp at done, fun done => ?_⟩
      exact absurd (faultless.mpr done.1) (by simp)
    | none =>
      have unfolded : graph.compile =
          (.ok (), { graph with nodes := nodes, size := some (assignBases graph.locals.length graph.nodes).2 }) := by
        simp only [Graph.compile, same]
      have nodesEq : nodes = graph.placed.map (·.linked graph.placed) := resolved rfl
      simp only [unfolded, size, nodesEq, Prod.mk.injEq, true_and, Graph.linked]
      exact ⟨fun done => ⟨faultless.mp rfl, done.symm⟩, fun done => done.2.symm⟩

theorem placed_get (graph : Graph) (index : Nat) :
    graph.placed[index]? = (graph.nodes[index]?).map fun node =>
      { node with base := graph.locals.length + widths (graph.layouts.take index) } :=
  assign_bases_get graph.locals.length index graph.nodes

theorem node_linked_layout (node : Node) :
    (node.linked nodes).layout =
      { node.layout with inputs := node.inputs.map fun pin => (pin.source, pin.source.bind (slotOf? nodes)) } := by
  simp [Node.linked, Node.layout, InputPin.layout, InputPin.linked, Function.comp_def]

theorem output_slot_congr (a b : List NodeLayout) (source : PinSource)
    (same : ∀ index : Nat, (a[index]?).map (fun entry => (entry.base, entry.width)) =
      (b[index]?).map fun entry => (entry.base, entry.width)) :
    outputSlot? a source = outputSlot? b source := by
  have there := same source.node
  unfold outputSlot?
  cases left : a[source.node]? <;> cases right : b[source.node]? <;> simp [left, right] at there ⊢
  simp [there]

theorem linked_layouts_get (graph : Graph) (index : Nat) :
    graph.linked.layouts[index]? = (graph.placed[index]?).map fun node => (node.linked graph.placed).layout := by
  simp [Graph.layouts, Graph.linked, Function.comp_def]

variable {graph : Graph} {node : Node}

theorem linked_layouts_mem {entry : NodeLayout} (member : entry ∈ graph.linked.layouts) :
    ∃ node ∈ graph.placed, (node.linked graph.placed).layout = entry := by
  simpa [Graph.layouts, Graph.linked] using member

theorem linked_slots (graph : Graph) (source : PinSource) :
    outputSlot? graph.linked.layouts source = slotOf? graph.placed source := by
  rw [slot_of_layout]
  apply output_slot_congr
  intro index
  simp only [linked_layouts_get, List.getElem?_map, Option.map_map, Function.comp_def, node_linked_layout]

theorem linked_widths (graph : Graph) : graph.linked.layouts.map (·.width) = graph.layouts.map (·.width) := by
  apply List.ext_getElem?
  intro index
  rw [List.getElem?_map, linked_layouts_get, placed_get, List.getElem?_map, Graph.layouts, List.getElem?_map]
  cases graph.nodes[index]? <;> rfl

theorem linked_enters {target : ExecTarget} (enters : Enters (graph.placed.map Node.layout) target) :
    Enters graph.linked.layouts target := by
  obtain ⟨entry, found, inside⟩ := enters
  rw [List.getElem?_map] at found
  obtain ⟨node, placed, rfl⟩ := Option.map_eq_some_iff.mp found
  refine ⟨(node.linked graph.placed).layout, by rw [linked_layouts_get, placed]; rfl, ?_⟩
  rw [node_linked_layout]
  exact inside

theorem linked_laid_out (graph : Graph) (connected : ∀ node ∈ graph.placed, node.Connected graph.placed) :
    graph.linked.LaidOut := by
  refine ⟨?bases, ?slots, ?targets, ?size⟩
  case bases =>
    intro index entry found
    rw [linked_layouts_get, placed_get, Option.map_map] at found
    obtain ⟨node, _, rfl⟩ := Option.map_eq_some_iff.mp found
    rw [widths_take index (linked_widths graph), Function.comp_apply, node_linked_layout]
    rfl
  case slots =>
    intro entry member input read
    obtain ⟨node, inside, rfl⟩ := linked_layouts_mem member
    rw [node_linked_layout] at read
    obtain ⟨pin, pinIn, rfl⟩ := List.mem_map.mp read
    refine ⟨?_, (connected node inside).inputs pin pinIn⟩
    cases pin.source with
    | none => rfl
    | some source => exact (linked_slots graph source).symm
  case targets =>
    intro entry member target led
    obtain ⟨node, inside, rfl⟩ := linked_layouts_mem member
    obtain ⟨pin, pinIn, leads⟩ := List.mem_map.mp led
    exact linked_enters ((connected node inside).targets pin pinIn target leads)
  case size =>
    simp only [widths, linked_widths]
    rfl

theorem compile_laid_out (graph compiled : Graph) (compiles : graph.compile = (.ok (), compiled)) : compiled.LaidOut := by
  obtain ⟨connected, rfl⟩ := (compile_ok_iff graph compiled).mp compiles
  exact linked_laid_out graph connected

theorem laid_out_placed (laid : graph.LaidOut) : graph.placed = graph.nodes := by
  apply List.ext_getElem?
  intro index
  rw [placed_get]
  cases found : graph.nodes[index]? with
  | none => rfl
  | some node =>
    have base : node.base = graph.locals.length + widths (graph.layouts.take index) :=
      laid.bases index node.layout (by simp [Graph.layouts, found])
    rw [Option.map_some, ← base]

theorem laid_out_input (laid : graph.LaidOut) (inside : node ∈ graph.nodes)
    {pin : InputPin} (pinIn : pin ∈ node.inputs) :
    pin.slot = pin.source.bind (slotOf? graph.nodes) ∧ (pin.source.isSome → pin.slot.isSome) := by
  have resolved := laid.slots node.layout (List.mem_map_of_mem inside) pin.layout (List.mem_map_of_mem pinIn)
  have same : outputSlot? graph.layouts = slotOf? graph.nodes := by
    funext source
    exact (slot_of_layout graph.nodes source).symm
  rw [same] at resolved
  exact resolved

theorem laid_out_node_linked (laid : graph.LaidOut) (inside : node ∈ graph.nodes) :
    node.linked graph.nodes = node := by
  have inputs : node.inputs.map (·.linked graph.nodes) = node.inputs.map id := by
    apply List.map_congr_left
    intro pin pinIn
    simp only [InputPin.linked, ← (laid_out_input laid inside pinIn).1, id]
  simp only [Node.linked, inputs, List.map_id]

theorem laid_out_compile (graph : Graph) (laid : graph.LaidOut) : graph.compile = (.ok (), graph) := by
  rw [compile_ok_iff, Graph.linked, laid_out_placed laid]
  refine ⟨?connected, ?same⟩
  case connected =>
    intro node inside
    refine ⟨?inputs, ?targets⟩
    case inputs =>
      intro pin pinIn connected
      have resolved := laid_out_input laid inside pinIn
      exact resolved.1 ▸ resolved.2 connected
    case targets =>
      intro pin pinIn target leads
      exact laid.targets node.layout (List.mem_map_of_mem inside) target (leads ▸ List.mem_map_of_mem pinIn)
  case same =>
    have nodes : graph.nodes.map (·.linked graph.nodes) = graph.nodes.map id :=
      List.map_congr_left fun node inside => laid_out_node_linked laid inside
    rw [nodes, List.map_id, ← laid.size]

end Patchbay
