import Patchbay.Proofs.Saving
import Patchbay.Proofs.Simulation
import Patchbay.Proofs.Subscriptions

set_option autoImplicit false

namespace Patchbay

/-- A node as far as its connections go: the sources of its inputs, the targets of its out-pins, and
the numbers of the pins that others connect to. -/
structure Wiring where
  sources : List (Option PinSource)
  width : Nat
  entrances : Nat
  targets : List (Option ExecTarget)

def Node.wiring (node : Node) : Wiring :=
  ⟨node.inputs.map (·.source), node.outputs.length, node.execIn.length, node.execOut.map (·.target)⟩

def Graph.wiring (graph : Graph) : Nat × List Wiring := (graph.locals.length, graph.nodes.map Node.wiring)

/-- Every connection leads to a node and a pin that exist. -/
structure NoneDangling (nodes : List Node) : Prop where
  sources : ∀ node ∈ nodes, ∀ pin ∈ node.inputs, ∀ source, pin.source = some source →
    ∃ feeder, nodes[source.node]? = some feeder ∧ source.parameter < feeder.outputs.length
  targets : ∀ node ∈ nodes, ∀ pin ∈ node.execOut, ∀ target, pin.target = some target →
    ∃ next, nodes[target.node]? = some next ∧ target.pin < next.execIn.length

theorem none_dangling_congr {nodes others : List Node} (same : nodes.map Node.wiring = others.map Node.wiring)
    (intact : NoneDangling nodes) : NoneDangling others := by
  -- A node of the one list has its double in the other, at the same index.
  have double (node : Node) (inside : node ∈ others) : ∃ twin ∈ nodes, twin.wiring = node.wiring :=
    List.mem_map.mp (same ▸ List.mem_map_of_mem inside)
  have double_at (index : Nat) (node : Node) (found : nodes[index]? = some node) :
      ∃ twin, others[index]? = some twin ∧ twin.wiring = node.wiring := by
    have there := congrArg (·[index]?) same
    simp only [List.getElem?_map, found, Option.map_some] at there
    exact Option.map_eq_some_iff.mp there.symm
  constructor
  · intro node inside pin pinIn source sourced
    obtain ⟨twin, twinIn, alike⟩ := double node inside
    have fed : some source ∈ twin.wiring.sources := by
      rw [alike, ← sourced]
      exact List.mem_map_of_mem pinIn
    obtain ⟨twinPin, twinPinIn, twinSource⟩ := List.mem_map.mp fed
    obtain ⟨feeder, found, offered⟩ := intact.sources twin twinIn twinPin twinPinIn source twinSource
    obtain ⟨other, there, alike⟩ := double_at source.node feeder found
    exact ⟨other, there, Nat.lt_of_lt_of_eq offered (congrArg Wiring.width alike).symm⟩
  · intro node inside pin pinIn target leads
    obtain ⟨twin, twinIn, alike⟩ := double node inside
    have led : some target ∈ twin.wiring.targets := by
      rw [alike, ← leads]
      exact List.mem_map_of_mem pinIn
    obtain ⟨twinPin, twinPinIn, twinTarget⟩ := List.mem_map.mp led
    obtain ⟨next, found, entered⟩ := intact.targets twin twinIn twinPin twinPinIn target twinTarget
    obtain ⟨other, there, alike⟩ := double_at target.node next found
    exact ⟨other, there, Nat.lt_of_lt_of_eq entered (congrArg Wiring.entrances alike).symm⟩

variable (nodes : List Node)

theorem has_source_iff (pin : InputPin) :
    pin.HasSource nodes ↔ ∀ source, pin.source = some source →
      ∃ feeder, nodes[source.node]? = some feeder ∧ source.parameter < feeder.outputs.length := by
  constructor
  · intro has source sourced
    rw [InputPin.HasSource, sourced] at has
    obtain ⟨slot, found⟩ := Option.isSome_iff_exists.mp (has rfl)
    obtain ⟨feeder, there, offered, _⟩ := slot_found found
    exact ⟨feeder, there, offered⟩
  · intro has connected
    obtain ⟨source, sourced⟩ := Option.isSome_iff_exists.mp connected
    obtain ⟨feeder, there, offered⟩ := has source sourced
    simp [sourced, slotOf?, there, offered]

theorem has_target_iff (pin : ExecPin) :
    pin.HasTarget nodes ↔ ∀ target, pin.target = some target →
      ∃ next, nodes[target.node]? = some next ∧ target.pin < next.execIn.length := by
  unfold ExecPin.HasTarget
  refine forall_congr' fun target => imp_congr_right fun _ => ?_
  simp only [Enters, List.getElem?_map, Option.map_eq_some_iff]
  constructor
  · rintro ⟨_, ⟨next, there, rfl⟩, entered⟩
    exact ⟨next, there, entered⟩
  · rintro ⟨next, there, entered⟩
    exact ⟨next.layout, ⟨next, there, rfl⟩, entered⟩

theorem connected_iff : (∀ node ∈ nodes, node.Connected nodes) ↔ NoneDangling nodes := by
  constructor
  · intro connected
    constructor
    · intro node inside pin pinIn
      exact (has_source_iff nodes pin).mp ((connected node inside).inputs pin pinIn)
    · intro node inside pin pinIn
      exact (has_target_iff nodes pin).mp ((connected node inside).targets pin pinIn)
  · intro intact node inside
    constructor
    · intro pin pinIn
      exact (has_source_iff nodes pin).mpr (intact.sources node inside pin pinIn)
    · intro pin pinIn
      exact (has_target_iff nodes pin).mpr (intact.targets node inside pin pinIn)

theorem placed_wiring (graph : Graph) : graph.placed.map Node.wiring = graph.nodes.map Node.wiring :=
  assign_bases_view Node.wiring (fun _ _ => rfl) graph.locals.length graph.nodes

theorem compile_succeeds_iff (graph : Graph) :
    (∃ compiled, graph.compile = (.ok (), compiled)) ↔ NoneDangling graph.nodes := by
  constructor
  · rintro ⟨compiled, compiles⟩
    have connected := ((compile_ok_iff graph compiled).mp compiles).1
    exact none_dangling_congr (placed_wiring graph) ((connected_iff graph.placed).mp connected)
  · intro intact
    have placed := none_dangling_congr (placed_wiring graph).symm intact
    exact ⟨graph.linked, (compile_ok_iff graph graph.linked).mpr ⟨(connected_iff graph.placed).mpr placed, rfl⟩⟩

def Graph.plain (graph : Graph) : Graph := { graph with nodes := graph.nodes.map Node.plain, size := none }

theorem resolve_inputs_view {β : Type} (view : InputPin → β)
    (unslotted : ∀ (pin : InputPin) (slot : Option Nat), view { pin with slot := slot } = view pin)
    (nodes : List Node) (index : Nat) (pins : List InputPin) :
    (resolveInputs nodes index pins).1.map view = pins.map view := by
  induction pins with
  | nil => rfl
  | cons pin rest ih =>
    simp only [resolveInputs]
    split
    · simp only [List.map_cons, unslotted, ih]
    · split
      · simp only [List.map_cons, unslotted, ih]
      · rfl

theorem compile_nodes_plain (graph : Graph) : graph.compile.2.nodes.map Node.plain = graph.nodes.map Node.plain := by
  apply compile_view Node.plain
  · intro node base
    rfl
  · intro nodes index node
    simp only [Node.plain, resolve_inputs_view InputPin.plain (fun _ _ => rfl) nodes index node.inputs]

theorem compile_plain (graph : Graph) : graph.compile.2.plain = graph.plain := by
  have nodes := compile_nodes_plain graph
  simp only [Graph.compile] at nodes ⊢
  split at nodes
  · simp only [Graph.plain, nodes]
  · simp only [Graph.plain, nodes]

theorem plain_wiring (node : Node) : node.plain.wiring = node.wiring := by
  simp [Node.wiring, Node.plain, InputPin.plain, Function.comp_def]

theorem compile_wiring (graph : Graph) : graph.compile.2.wiring = graph.wiring := by
  have locals : graph.compile.2.plain.locals = graph.plain.locals := congrArg Graph.locals (compile_plain graph)
  have nodes := congrArg (List.map Node.wiring) (compile_nodes_plain graph)
  simp only [List.map_map, Function.comp_def, plain_wiring] at nodes
  exact Prod.ext (congrArg List.length locals) nodes

def Wiring.laid (wiring : Wiring) (base : Nat) (slot : PinSource → Option Nat) : NodeLayout :=
  ⟨base, wiring.width, wiring.sources.map fun source => (source, source.bind slot), wiring.entrances, wiring.targets⟩

variable {graph : Graph} {read : Document}

theorem laid_out_get (laid : graph.LaidOut) (index : Nat) :
    graph.layouts[index]? = (graph.wiring.2[index]?).map fun wiring =>
      wiring.laid (graph.locals.length + widths (graph.layouts.take index)) (outputSlot? graph.layouts) := by
  rw [Graph.wiring, List.getElem?_map]
  cases found : graph.nodes[index]? with
  | none => simp [Graph.layouts, found]
  | some node =>
    have there := slot_layout found
    have base := laid.bases index node.layout there
    have inputs : node.layout.inputs = node.wiring.sources.map fun source => (source, source.bind (outputSlot? graph.layouts)) := by
      simp only [Node.wiring, Node.layout, List.map_map, Function.comp_def]
      apply List.map_congr_left
      intro pin pinIn
      have resolved := laid.slots node.layout (List.mem_of_getElem? there) pin.layout (List.mem_map_of_mem pinIn)
      exact Prod.ext rfl resolved.1
    rw [there, Option.map_some, Option.map_some, ← base, Wiring.laid, ← inputs]
    rfl

/-- There is one way to place the outputs in order and to resolve the inputs. -/
theorem laid_out_unique {a b : Graph} (laidA : a.LaidOut) (laidB : b.LaidOut) (same : a.wiring = b.wiring) :
    a.layouts = b.layouts ∧ a.size = b.size := by
  have locals : a.locals.length = b.locals.length := congrArg Prod.fst same
  have widthOf (graph : Graph) : graph.layouts.map (·.width) = graph.wiring.2.map (·.width) := by
    simp only [Graph.layouts, Graph.wiring, List.map_map]
    rfl
  have widthsSame : a.layouts.map (·.width) = b.layouts.map (·.width) := by rw [widthOf, widthOf, same]
  have slots : outputSlot? a.layouts = outputSlot? b.layouts := by
    funext source
    apply output_slot_congr
    intro index
    rw [laid_out_get laidA index, laid_out_get laidB index, Option.map_map, Option.map_map, same, locals,
      widths_take index widthsSame]
    rfl
  constructor
  · apply List.ext_getElem?
    intro index
    rw [laid_out_get laidA index, laid_out_get laidB index, same, locals, slots, widths_take index widthsSame]
  · rw [laidA.size, laidB.size, locals, widths, widths, widthsSame]

theorem compile_same_layout {other compiled : Graph} (same : other.wiring = graph.wiring)
    (compiles : graph.compile = (.ok (), compiled)) :
    ∃ again, other.compile = (.ok (), again) ∧ again.layouts = compiled.layouts ∧ again.size = compiled.size := by
  have intact := (compile_succeeds_iff graph).mp ⟨compiled, compiles⟩
  have nodes : graph.nodes.map Node.wiring = other.nodes.map Node.wiring := (congrArg Prod.snd same).symm
  obtain ⟨again, compilesAgain⟩ := (compile_succeeds_iff other).mpr (none_dangling_congr nodes intact)
  have wiring : again.wiring = compiled.wiring := by
    have first := compile_wiring graph
    have second := compile_wiring other
    rw [compiles] at first
    rw [compilesAgain] at second
    exact second.trans (same.trans first.symm)
  exact ⟨again, compilesAgain, laid_out_unique (compile_laid_out other again compilesAgain)
    (compile_laid_out graph compiled compiles) wiring⟩

def Node.Owns (node : Node) (slot : Nat) : Prop := node.base ≤ slot ∧ slot < node.base + node.outputs.length

/-- The outputs of the nodes stand side by side in order, after the variables, and nothing is left over. -/
structure Graph.Tiles (graph : Graph) (size : Nat) : Prop where
  first : ∀ node, graph.nodes[0]? = some node → node.base = graph.locals.length
  next : ∀ index node later, graph.nodes[index]? = some node → graph.nodes[index + 1]? = some later →
    later.base = node.base + node.outputs.length
  apart : ∀ (a b : Nat) (first second : Node), a ≠ b → graph.nodes[a]? = some first → graph.nodes[b]? = some second →
    ∀ slot, first.Owns slot → ¬ second.Owns slot
  beyond : ∀ node ∈ graph.nodes, ∀ slot, node.Owns slot → graph.locals.length ≤ slot
  filled : ∀ slot, slot < size ↔ slot < graph.locals.length ∨ ∃ node ∈ graph.nodes, node.Owns slot

/-- The slots up to a node are those of the variables and of the nodes before it. -/
theorem slot_owned (laid : graph.LaidOut) (count slot : Nat)
    (inside : slot < graph.locals.length + widths (graph.layouts.take count)) :
    slot < graph.locals.length ∨ ∃ node ∈ graph.nodes, node.Owns slot := by
  induction count with
  | zero => exact .inl inside
  | succ count ih =>
    cases found : graph.nodes[count]? with
    | none =>
      have whole : ∀ n, graph.nodes.length ≤ n → graph.layouts.take n = graph.layouts := by
        intro n long
        exact List.take_of_length_le (by simpa [Graph.layouts] using long)
      have long := List.getElem?_eq_none_iff.mp found
      rw [whole (count + 1) (by omega), ← whole count long] at inside
      exact ih inside
    | some node =>
      have there := slot_layout found
      have base : node.base = graph.locals.length + widths (graph.layouts.take count) :=
        laid.bases count node.layout there
      rw [widths_take_succ count there, ← Nat.add_assoc, ← base] at inside
      by_cases before : slot < node.base
      · exact ih (base ▸ before)
      · exact .inr ⟨node, List.mem_of_getElem? found, Nat.le_of_not_lt before, inside⟩

theorem laid_out_tiles (laid : graph.LaidOut) :
    graph.Tiles (graph.locals.length + widths graph.layouts) := by
  have within (node : Node) (inside : node ∈ graph.nodes) :
      graph.locals.length ≤ node.base ∧
        node.base + node.outputs.length ≤ graph.locals.length + widths graph.layouts := by
    obtain ⟨index, found⟩ := List.mem_iff_getElem?.mp inside
    exact region_inside laid (slot_layout found)
  constructor
  case first =>
    intro node found
    exact laid.bases 0 node.layout (slot_layout found)
  case next =>
    intro index node later found following
    have here : node.base = _ := laid.bases index node.layout (slot_layout found)
    have there : later.base = _ := laid.bases (index + 1) later.layout (slot_layout following)
    have step := widths_take_succ index (slot_layout found)
    rw [there, step, here, Nat.add_assoc]
    rfl
  case apart =>
    intro a b first second different atA atB slot owned shared
    have left := slot_layout atA
    have right := slot_layout atB
    have owned : first.base ≤ slot ∧ slot < first.base + first.outputs.length := owned
    have shared : second.base ≤ slot ∧ slot < second.base + second.outputs.length := shared
    by_cases before : a < b
    · have ordered : first.base + first.outputs.length ≤ second.base :=
        region_before laid left right before
      omega
    · have ordered : second.base + second.outputs.length ≤ first.base :=
        region_before laid right left (by omega)
      omega
  case beyond =>
    intro node inside slot owned
    exact Nat.le_trans (within node inside).1 owned.1
  case filled =>
    intro slot
    constructor
    · intro inside
      have whole : graph.layouts.take graph.layouts.length = graph.layouts := List.take_length
      exact slot_owned laid graph.layouts.length slot (by rwa [whole])
    · rintro (isLocal | ⟨node, inside, owned⟩)
      · omega
      · exact Nat.lt_of_lt_of_le owned.2 (within node inside).2

theorem wiring_bones (node : Node) : node.bones.wiring = node.wiring := by
  simp [Node.wiring, Node.bones, InputPin.bones, ExecPin.bones, Function.comp_def]

theorem graph_wiring_reread {medium : Medium} {document : Document} {value : Graph}
    (written : graph.toDocument? = some document) (rereads : Document.Rereads document read)
    (got : Graph.read medium read = some value) : value.wiring = graph.wiring := by
  have nodesSame := bones_view Node.wiring wiring_bones (nodes_reread written rereads got)
  obtain ⟨documents, _, same⟩ := Option.bind_eq_some_iff.mp written
  cases same
  unfold Graph.read at got
  simp only [bind, Option.bind_eq_some_iff, pure, Option.some.injEq] at got
  obtain ⟨record, found, nodes, _, locals, localsRead, rfl⟩ := got
  have fields := Document.record_reread rereads found
  have localsSame : locals.length = graph.locals.length := by
    cases declared : graph.locals with
    | nil =>
      have none := fields.withDefault_missing (by simp) (by simp [Record.find?, declared]) _ localsRead
      rw [none]
    | cons =>
      obtain ⟨part, comes, listed⟩ := fields.withDefault (by simp)
        (Document.ofList Variable.toDocument graph.locals) (by simp [Record.find?, declared]) _ localsRead
      have same := Document.list_reread Variable.toDocument (Variable.read medium) (fun _ => ())
        (fun _ _ _ _ _ => rfl) graph.locals locals part comes listed
      simpa [declared] using congrArg List.length same
  exact Prod.ext localsSame nodesSame

theorem Node.converted_wiring (locals globals : List Variable) (functions : List Guid) (form : ReferenceForm) (node : Node) :
    (node.convertedTo locals globals functions form).wiring = node.wiring := by
  unfold convertedTo
  cases made : node.convertReference? locals globals functions form with
  | none => rfl
  | some =>
    have same := congrArg Node.wiring (node.converted locals globals functions made).same
    exact same

namespace Graph

variable (globals : List Variable) (functions : List Guid) (form : ReferenceForm)

/-- Where all references can be converted, no node is dropped and no connection changes. -/
theorem converted_wiring (graph : Graph)
    (fresh : ∀ node ∈ graph.nodes, node.kind.stale graph.locals globals functions = false) :
    (graph.convertReferences globals functions form).1.wiring = graph.wiring := by
  rw [convert_erases, graph.fresh_dropped globals functions fresh]
  refine Prod.ext rfl ?_
  simp only [wiring, mapNodes, List.map_map]
  exact List.map_congr_left fun node _ => node.converted_wiring graph.locals globals functions form

theorem rounded_wiring (near : Float → Float) (nearSingle : Float32 → Float32) (graph : Graph) :
    (graph.rounded near nearSingle).wiring = graph.wiring := by
  simp [wiring, Node.wiring, rounded, Node.rounded, InputPin.rounded, ExecPin.rounded, Function.comp_def]

theorem reset_wiring (graph : Graph) : graph.reset.wiring = graph.wiring := by
  simp [wiring, Node.wiring, reset, Node.reset, InputPin.reset, Function.comp_def]

/-- In the form in which a graph is written, its references are found both as they are and after the numbers were rounded. -/
theorem swapped_fresh (near : Float → Float) (graph : Graph) :
    let swapped := (graph.convertReferences globals functions .indexed).1
    ∀ node ∈ swapped.nodes, node.kind.stale swapped.locals globals functions = false ∧
      node.kind.stale (swapped.locals.map (·.rounded near)) (globals.map (·.rounded near)) functions = false := by
  intro swapped node inside
  obtain ⟨converted, made⟩ := graph.indexed_converts globals functions .live node inside
  have fresh : node.kind.stale swapped.locals globals functions = false := by
    rw [← node.stale_unconverted swapped.locals globals functions .live, made]
    rfl
  have guids (vars : List Variable) : vars.map (·.guid) = (vars.map (·.rounded near)).map (·.guid) := by
    rw [List.map_map]
    rfl
  exact ⟨fresh, (node.kind.stale_congr functions (guids _) (guids _)).symm.trans fresh⟩

end Graph

/-- The graphs of a script that was loaded are wired as those of the script that was saved. -/
theorem Script.restored_wiring (write : Document → String) (near : Float → Float) (nearSingle : Float32 → Float32)
    (script : Script) :
    (script.restored near nearSingle).graphs.map Graph.wiring = (script.saveWith write).2.graphs.map Graph.wiring := by
  have reset (script : Script) : script.reset.graphs = script.graphs.map Graph.reset := by
    simp [graphs, Script.reset, mapGraphs, EventGraph.reset, EventGraph.mapGraph, InterfaceFunction.mapGraph, Function.mapGraph,
      Body.mapGraph, Function.comp_def]
  have rounded (script : Script) : (script.rounded near nearSingle).graphs = script.graphs.map (Graph.rounded near nearSingle) :=
    script.graphs_map _
  have functions : ((script.convertReferences .indexed).1.rounded near nearSingle).functionIds = script.functionIds := by
    simp [functionIds, Script.rounded, convertReferences, mapGraphs, Function.mapGraph, Function.comp_def]
  rw [restored, reset, convert_graphs, rounded, functions, saved_graphs, convert_graphs]
  simp only [List.map_map]
  refine List.map_congr_left fun graph _ => ?_
  -- All references are in the written form here, so that neither side drops a node.
  have fresh := graph.swapped_fresh script.vars script.functionIds near
  simp only [Function.comp_apply]
  rw [Graph.reset_wiring, Graph.converted_wiring _ _ _ _ fun node inside => (fresh node inside).1, Graph.converted_wiring,
    Graph.rounded_wiring]
  intro node inside
  obtain ⟨old, there, rfl⟩ := List.mem_map.mp inside
  exact (fresh old there).2

/-- A compilation accepts the graphs without a loose end. It places every output, and it places them the same way in each
graph with the same wiring, above all in one that was written and read, also with the script it belongs to. When it fails,
nothing but the layout has changed. -/
theorem compile_exact (graph : Graph) :
    ((∃ compiled, graph.compile = (.ok (), compiled)) ↔ NoneDangling graph.nodes) ∧
    (∀ compiled, graph.compile = (.ok (), compiled) →
      (∃ size, compiled.size = some size ∧ compiled.Tiles size) ∧
      (∀ node ∈ compiled.nodes, ∀ pin ∈ node.inputs, (pin.source = none → pin.slot = none) ∧
        ∀ source, pin.source = some source → ∃ feeder, compiled.nodes[source.node]? = some feeder ∧
          source.parameter < feeder.outputs.length ∧ pin.slot = some (feeder.base + source.parameter)) ∧
      compiled.compile = (.ok (), compiled) ∧
      (∀ other : Graph, other.wiring = graph.wiring →
        ∃ again, other.compile = (.ok (), again) ∧ again.layouts = compiled.layouts ∧ again.size = compiled.size) ∧
      (∀ medium (layout : Document.Layout) document read other, graph.toDocument? = some document →
        Document.parse? (layout.print 0 document) = some read → Graph.read medium read = some other →
        ∃ again, other.compile = (.ok (), again) ∧ again.layouts = compiled.layouts ∧ again.size = compiled.size) ∧
      ∀ (write : Document → String) read near nearSingle (script : Script) (place : Nat), script.Representable →
        script.finite = true → (∀ document, (script.convertReferences .indexed).1.toDocument? = some document →
          document.Survives write read near nearSingle) → (script.saveWith write).2.graphs[place]? = some graph →
        ∃ text loaded other again, (script.saveWith write).1 = .ok text ∧ Script.loadWith read text = .ok loaded ∧
          loaded.graphs[place]? = some other ∧ other.compile = (.ok (), again) ∧ again.layouts = compiled.layouts ∧
          again.size = compiled.size) ∧
    (∀ cause left, graph.compile = (.error cause, left) → left.size = none) ∧
    graph.compile.2.plain = graph.plain := by
  refine ⟨compile_succeeds_iff graph, ?succeeds, ?fails, compile_plain graph⟩
  case succeeds =>
    intro compiled compiles
    have laid := compile_laid_out graph compiled compiles
    refine ⟨⟨_, laid.size, laid_out_tiles laid⟩, ?slots, laid_out_compile compiled laid, ?wiring, ?text, ?script⟩
    case slots =>
      intro node inside pin pinIn
      obtain ⟨resolved, found⟩ := laid_out_input laid inside pinIn
      constructor
      · intro unconnected
        rw [resolved, unconnected]
        rfl
      · intro source sourced
        obtain ⟨slot, at_⟩ := Option.isSome_iff_exists.mp (found (by rw [sourced]; rfl))
        rw [sourced, Option.bind_some, at_] at resolved
        obtain ⟨feeder, there, offered, rfl⟩ := slot_found resolved.symm
        exact ⟨feeder, there, offered, at_⟩
    case wiring =>
      intro other same
      exact compile_same_layout same compiles
    case text =>
      intro medium layout document read other written parsed got
      have same := graph_wiring_reread written (layout.parse_back parsed) got
      exact compile_same_layout same compiles
    case script =>
      -- The loaded graph names its variables anew and has the numbers of the text, but it is wired as this one.
      intro write read near nearSingle script place representable finite survives here
      obtain ⟨text, saved, loaded⟩ := script.finite_reload write read near nearSingle representable finite survives
      have there := congrArg (·[place]?) (script.restored_wiring write near nearSingle)
      simp only [List.getElem?_map, here, Option.map_some] at there
      obtain ⟨other, found, same⟩ := Option.map_eq_some_iff.mp there
      obtain ⟨again, compilesAgain, alike⟩ := compile_same_layout same compiles
      exact ⟨text, _, other, again, saved, loaded, found, compilesAgain, alike⟩
  case fails =>
    intro cause left failed
    rw [Graph.compile] at failed
    dsimp only at failed
    split at failed
    · cases failed
    · cases failed
      rfl

/-- An event that counts in a loop and stores in a variable how far it is. -/
def countingLoop : Graph :=
  let level : Variable := ⟨⟨2⟩, "level", .int, .int 3⟩
  let nodes := [Node.receiveEvent "tick" none [⟨"count", .int⟩], Node.forLoop, Node.setVariable level]
  let placed := { Graph.empty with nodes := nodes, locals := [level] }
  let entered := (Edit.connectExec 1 0 2 0 (Edit.connectExec 0 0 1 0 placed).2).2
  (Edit.connect 1 0 2 0 (Edit.connect 0 0 1 1 entered).2).2

def countingScript : Script := { Script.empty "Counting" with eventGraphs := [⟨⟨3⟩, countingLoop, none⟩] }

/-- It compiles to four slots, also in the script that was saved and loaded, and also when the graph alone was written, as the
script writes it, and read. Without the setter the loop leads nowhere. -/
theorem counting_loop_recompiles : countingLoop.toDocument? = none ∧ countingLoop.compile.2.size = some 4 ∧
    countingLoop.compile.2.Tiles 4 ∧
    (∃ text loaded other again, countingScript.save.1 = .ok text ∧ Script.load text = .ok loaded ∧
      loaded.graphs[0]? = some other ∧ other.compile = (.ok (), again) ∧ again.layouts = countingLoop.compile.2.layouts) ∧
    (∃ document read other again, (countingLoop.convertReferences [] [] .indexed).1.toDocument? = some document ∧
      Document.parse? document.compact = some read ∧ Graph.read .json read = some other ∧ other.compile = (.ok (), again) ∧
      again.layouts = countingLoop.compile.2.layouts) ∧
    ¬ NoneDangling (countingLoop.nodes.take 2) := by
  have compiles (graph : Graph) (accepted : graph.compile.1 = .ok ()) : graph.compile = (.ok (), graph.compile.2) :=
    Prod.ext accepted rfl
  have accepted := compiles countingLoop (by decide +kernel)
  have representable : countingScript.Representable := by decide +kernel
  obtain ⟨⟨size, sized, tiles⟩, _, _, _, _, script⟩ := (compile_exact countingLoop).2.1 _ accepted
  have four : countingLoop.compile.2.size = some 4 := by decide +kernel
  obtain rfl : size = 4 := Option.some.inj (sized.symm.trans four)
  refine ⟨rfl, four, tiles, ?script, ?alone, ?cut⟩
  case script =>
    obtain ⟨text, loaded, other, again, saved, loads, found, compilesAgain, same, _⟩ := script Document.pretty Document.parse?
      id id countingScript 0 representable (by decide +kernel) (countingScript.legible_survives (by decide +kernel)) rfl
    exact ⟨text, loaded, other, again, saved, loads, found, compilesAgain, same⟩
  case alone =>
    have storable := countingLoop.indexed_storable [] [] (by decide) (representable.graphs _ List.mem_cons_self)
    obtain ⟨document, written, _, comes⟩ := graph_echo (Echo.spelled_faithful Document.ofNumeral) .json storable
    have legible : ((countingLoop.convertReferences [] [] .indexed).1.toDocument?).all (fun document =>
        document.legible Document.ofNumeral .exact && decide (document.depth ≤ Document.maxNesting)) = true := by
      decide +kernel
    rw [written] at legible
    obtain ⟨spelled, shallow⟩ := Bool.and_eq_true_iff.mp legible
    have parsed := Document.Layout.dense.parse_printed spelled (of_decide_eq_true shallow)
    rw [if_pos (by decide +kernel)] at comes
    obtain ⟨_, _, _, _, back, _⟩ := (compile_exact (countingLoop.convertReferences [] [] .indexed).1).2.1 _
      (compiles _ (by decide +kernel))
    obtain ⟨again, compilesAgain, same, _⟩ := back .json .dense document _ _ written parsed comes
    exact ⟨document, _, _, again, written, parsed, comes, compilesAgain, same⟩
  case cut =>
    have refused : (Graph.compile { countingLoop with nodes := countingLoop.nodes.take 2 }).1.isOk = false := by decide +kernel
    intro intact
    obtain ⟨compiled, compiles⟩ := (compile_exact { countingLoop with nodes := countingLoop.nodes.take 2 }).1.mpr intact
    rw [compiles] at refused
    cases refused

end Patchbay
