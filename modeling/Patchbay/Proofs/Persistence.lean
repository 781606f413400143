import Mathlib.Data.List.InsertIdx
import Patchbay.Library
import Patchbay.Proofs.Printing
import Patchbay.Proofs.References
import Patchbay.Proofs.Restoring
import Patchbay.Proofs.WellFormed
import Patchbay.Script.Run

set_option autoImplicit false

namespace Patchbay

theorem erase_all_keeps (P : Node → Prop) (moved : ∀ removed node, P node → P (node.renumber (shiftIndex? removed)))
    {indices : List Nat} (graph : Graph) (descending : indices.Pairwise (· > ·))
    (others : ∀ index node, index ∉ indices → graph.nodes[index]? = some node → P node) :
    ∀ node ∈ (indices.foldl (fun graph index => graph.eraseNode index) graph).nodes, P node := by
  induction indices generalizing graph with
  | nil =>
    intro node inside
    obtain ⟨index, found⟩ := List.mem_iff_getElem?.mp inside
    exact others index node List.not_mem_nil found
  | cons removed rest ih =>
    obtain ⟨below, later⟩ := List.pairwise_cons.mp descending
    refine ih (graph.eraseNode removed) later fun place node outside found => ?_
    obtain ⟨index, shifted⟩ := shift_from removed place
    simp only [Graph.eraseNode, Graph.uncompile, List.getElem?_map, shift_at graph.nodes shifted] at found
    obtain ⟨old, there, rfl⟩ := Option.map_eq_some_iff.mp found
    refine moved removed old (others index old ?_ there)
    have origin := shift_origin shifted
    intro inside
    cases List.mem_cons.mp inside with
    | inl same => split at origin <;> omega
    | inr inside =>
      -- An index that is still to be erased is below the erased one and has not moved.
      have small := below index inside
      rw [if_pos (by split at origin <;> omega)] at origin
      exact outside (origin ▸ inside)

theorem erase_all_locals (indices : List Nat) (graph : Graph) :
    (indices.foldl (fun graph index => graph.eraseNode index) graph).locals = graph.locals := by
  induction indices generalizing graph with
  | nil => rfl
  | cons index rest ih => exact ih (graph.eraseNode index)

namespace Node

variable (locals globals : List Variable) (functions : List Guid)

structure Converted (form : ReferenceForm) (node converted : Node) : Prop where
  same : { converted with kind := node.kind } = node
  reference : ∀ reference, converted.kind.reference? = some reference →
    ∃ old : Reference, old.convert? locals globals form = some reference
  function : ∀ function, converted.kind = .callFunction function → functions.contains function = true

theorem converted {form : ReferenceForm} (node : Node) {other : Node}
    (made : node.convertReference? locals globals functions form = some other) :
    Converted locals globals functions form node other := by
  unfold convertReference? at made
  split at made
  · next old found =>
      obtain ⟨reference, converts, rfl⟩ := Option.map_eq_some_iff.mp made
      obtain ⟨kind, name, position, execIn, execOut, inputs, outputs, base, progress⟩ := node
      refine ⟨rfl, fun other named => ?_, fun function named => ?_⟩
      all_goals
        cases kind <;> cases found <;> cases named
      all_goals exact ⟨_, converts⟩
  · next plain =>
      split at made
      · next function call =>
          split at made
          · next known =>
              cases made
              refine ⟨rfl, fun _ named => ?_, fun other named => ?_⟩
              · cases plain.symm.trans named
              · cases call.symm.trans named
                exact known
          · cases made
      · next other =>
          cases made
          refine ⟨rfl, fun _ named => ?_, fun function named => absurd named (other function)⟩
          cases plain.symm.trans named

theorem converts (form : ReferenceForm) (node : Node)
    (references : ∀ reference, node.kind.reference? = some reference →
      ∃ converted, reference.convert? locals globals form = some converted)
    (known : ∀ function, node.kind = .callFunction function → functions.contains function = true) :
    ∃ converted, node.convertReference? locals globals functions form = some converted := by
  unfold convertReference?
  split
  · next reference found =>
      obtain ⟨converted, converts⟩ := references reference found
      rw [converts]
      exact ⟨_, rfl⟩
  · split
    · next function call =>
        rw [if_pos (known function call)]
        exact ⟨_, rfl⟩
    · exact ⟨_, rfl⟩

theorem indexed_converts (form : ReferenceForm) (node : Node) {other : Node}
    (made : node.convertReference? locals globals functions .indexed = some other) :
    ∃ converted, other.convertReference? locals globals functions form = some converted := by
  have conversion := node.converted locals globals functions made
  refine other.converts locals globals functions form (fun reference named => ?_) conversion.function
  obtain ⟨old, converts⟩ := conversion.reference reference named
  obtain ⟨isLocal, index, rfl, inside⟩ := Reference.converted_indexed locals globals converts
  exact Reference.indexed_converts locals globals form inside

end Node

namespace Graph

variable (globals : List Variable) (functions : List Guid) (form : ReferenceForm)

variable (graph : Graph)

theorem convert_locals : (graph.convertReferences globals functions form).1.locals = graph.locals :=
  erase_all_locals _ _

theorem convert_keeps (P : Node → Prop) (moved : ∀ removed node, P node → P (node.renumber (shiftIndex? removed)))
    (graph : Graph)
    (each : ∀ node ∈ graph.nodes, ∀ converted,
      node.convertReference? graph.locals globals functions form = some converted → P converted) :
    ∀ node ∈ (graph.convertReferences globals functions form).1.nodes, P node := by
  refine erase_all_keeps P moved _ ?_ fun index node outside found => ?_
  · exact List.pairwise_reverse.mpr (List.Pairwise.filter _ List.pairwise_lt_range)
  · rw [List.getElem?_map] at found
    obtain ⟨old, there, rfl⟩ := Option.map_eq_some_iff.mp found
    cases made : old.convertReference? graph.locals globals functions form with
    | none =>
      have inside := (List.getElem?_eq_some_iff.mp there).1
      refine absurd (List.mem_reverse.mpr (List.mem_filter.mpr ⟨List.mem_range.mpr inside, ?_⟩)) outside
      rw [there]
      exact congrArg Option.isNone made
    | some converted => exact each old (List.mem_of_getElem? there) converted made

theorem none_stale (each : ∀ node ∈ graph.nodes, ∃ converted,
      node.convertReference? graph.locals globals functions form = some converted) :
    graph.staleNodes globals functions form = [] := by
  refine List.filter_eq_nil_iff.mpr fun index inside => ?_
  have found := List.getElem?_eq_getElem (List.mem_range.mp inside)
  obtain ⟨converted, made⟩ := each _ (List.mem_of_getElem? found)
  simp [found, made]

theorem convert_all (each : ∀ node ∈ graph.nodes, ∃ converted,
      node.convertReference? graph.locals globals functions form = some converted) :
    (graph.convertReferences globals functions form).1 = { graph with
      nodes := graph.nodes.map fun node => (node.convertReference? graph.locals globals functions form).getD node } := by
  rw [convertReferences, graph.none_stale globals functions form each]
  rfl

end Graph

theorem shift_down (removed index place : Nat) (shifted : shiftIndex? removed index = some place) : place ≤ index := by
  have origin := shift_origin shifted
  split at origin <;> omega

namespace Node

variable (rename : Nat → Option Nat) (node : Node)

theorem renumber_values : (node.renumber rename).values = node.values := by
  have literals : (node.renumber rename).inputs.map (·.literal) = node.inputs.map (·.literal) := by
    rw [renumber, List.map_map]
    rfl
  have caseValues : (node.renumber rename).execOut.flatMap ExecPin.values = node.execOut.flatMap ExecPin.values := by
    rw [renumber, List.flatMap_map]
    rfl
  rw [values, values, literals, List.flatMap_append, List.flatMap_append, caseValues]
  rfl

theorem renumber_finite : (node.renumber rename).finite = node.finite := by
  rw [finite, renumber_values]
  rfl

theorem renumber_representable (shrinks : ∀ index place, rename index = some place → place ≤ index)
    (node : Node) (representable : node.Representable) : (node.renumber rename).Representable := by
  refine ⟨?_, fun pin inside source connected => ?_, fun pin inside target connected => ?_⟩
  · rw [renumber_values]
    exact representable.ordered
  · obtain ⟨old, there, rfl⟩ := List.mem_map.mp inside
    obtain ⟨before, was, renamed, parameter⟩ := source_renumbered _ connected
    have fits := representable.sources old there before was
    exact ⟨Nat.lt_of_le_of_lt (shrinks _ _ renamed) fits.1, parameter ▸ fits.2⟩
  · cases List.mem_append.mp inside with
    | inl inside => exact representable.targets pin (List.mem_append_left _ inside) target connected
    | inr inside =>
      obtain ⟨old, there, rfl⟩ := List.mem_map.mp inside
      obtain ⟨before, was, renamed, same⟩ := target_renumbered _ connected
      have fits := representable.targets old (List.mem_append_right _ there) before was
      exact ⟨Nat.lt_of_le_of_lt (shrinks _ _ renamed) fits.1, same ▸ fits.2⟩

theorem renumber_storable (removed : Nat) (node : Node) (storable : node.Storable) :
    (node.renumber (shiftIndex? removed)).Storable :=
  ⟨node.renumber_representable _ (shift_down removed) storable.toRepresentable, storable.saved⟩

theorem renumber_reset :
    node.reset.renumber rename = (node.renumber rename).reset := by
  simp [reset, renumber, InputPin.reset, Function.comp_def]

theorem convert_changed (change : Node → Node) (kind : ∀ node, (change node).kind = node.kind)
    (apart : ∀ node kind, change { node with kind := kind } = { change node with kind := kind }) (locals globals : List Variable)
    (functions : List Guid) (form : ReferenceForm) (node : Node) :
    (change node).convertReference? locals globals functions form =
      (node.convertReference? locals globals functions form).map change := by
  rw [convertReference?, convertReference?, kind node]
  cases node.kind.reference? with
  | some =>
    dsimp only
    rw [Option.map_map]
    exact congrArg (Option.map · _) (funext fun converted => (apart node _).symm)
  | none =>
    dsimp only
    split
    · rw [apply_ite (Option.map change)]
      rfl
    · rfl

theorem reset_convert (locals globals : List Variable) (functions : List Guid) (form : ReferenceForm) (node : Node) :
    node.reset.convertReference? locals globals functions form =
      (node.convertReference? locals globals functions form).map reset :=
  convert_changed reset (fun _ => rfl) (fun _ _ => rfl) locals globals functions form node

theorem renumber_convert (locals globals : List Variable) (functions : List Guid)
    (form : ReferenceForm) (node : Node) :
    (node.renumber rename).convertReference? locals globals functions form =
      (node.convertReference? locals globals functions form).map (renumber rename) :=
  convert_changed (renumber rename) (fun _ => rfl) (fun _ _ => rfl) locals globals functions form node

variable {locals globals : List Variable} {functions : List Guid}

theorem converted_finite {form : ReferenceForm} (node : Node) {other : Node}
    (made : node.convertReference? locals globals functions form = some other) : other.finite = node.finite := by
  have same := congrArg finite (node.converted locals globals functions made).same
  exact same

theorem indexed_storable (fewLocals : Fits locals.length)
    (fewGlobals : Fits globals.length) (node : Node) {other : Node} (representable : node.Representable)
    (made : node.convertReference? locals globals functions .indexed = some other) : other.Storable := by
  have conversion := node.converted locals globals functions made
  rw [← conversion.same] at representable
  refine ⟨⟨representable.ordered, representable.sources, representable.targets⟩, fun reference named => ?_⟩
  obtain ⟨old, converts⟩ := conversion.reference reference named
  obtain ⟨isLocal, index, rfl, inside⟩ := Reference.converted_indexed locals globals converts
  refine .inl ⟨isLocal, index, rfl, ?_⟩
  cases isLocal with
  | true => exact Nat.lt_trans inside fewLocals
  | false => exact Nat.lt_trans inside fewGlobals

end Node

namespace Graph

theorem reset_erase (index : Nat) (graph : Graph) : graph.reset.eraseNode index = (graph.eraseNode index).reset := by
  have nodes : ((graph.nodes.map Node.reset).eraseIdx index).map (Node.renumber (shiftIndex? index)) =
      ((graph.nodes.eraseIdx index).map (Node.renumber (shiftIndex? index))).map Node.reset := by
    rw [List.eraseIdx_map, List.map_map, List.map_map]
    exact List.map_congr_left fun node _ => node.renumber_reset _
  simp only [eraseNode, uncompile, reset, nodes]

theorem reset_erase_all (indices : List Nat) (graph : Graph) :
    indices.foldl (fun graph index => graph.eraseNode index) graph.reset =
      (indices.foldl (fun graph index => graph.eraseNode index) graph).reset := by
  induction indices generalizing graph with
  | nil => rfl
  | cons index rest ih => rw [List.foldl_cons, List.foldl_cons, reset_erase, ih]

theorem reset_convert (globals : List Variable) (functions : List Guid) (form : ReferenceForm) (graph : Graph) :
    (graph.reset.convertReferences globals functions form).1 = (graph.convertReferences globals functions form).1.reset := by
  have stale : graph.reset.staleNodes globals functions form = graph.staleNodes globals functions form := by
    rw [staleNodes, staleNodes, reset, List.length_map]
    refine List.filter_congr fun index _ => ?_
    rw [List.getElem?_map]
    cases graph.nodes[index]? with
    | none => rfl
    | some node =>
      rw [Option.map_some]
      dsimp only
      rw [Node.reset_convert, Option.isNone_map]
  have nodes : graph.reset.nodes.map (fun node => (node.convertReference? graph.locals globals functions form).getD node) =
      (graph.nodes.map fun node => (node.convertReference? graph.locals globals functions form).getD node).map Node.reset := by
    rw [reset, List.map_map, List.map_map]
    refine List.map_congr_left fun node _ => ?_
    rw [Function.comp_apply, Function.comp_apply, Node.reset_convert]
    cases node.convertReference? graph.locals globals functions form <;> rfl
  rw [convertReferences, convertReferences, stale, ← reset_erase_all]
  exact congrArg (fun nodes => List.foldl _ (Graph.mk nodes graph.locals [] [] none) _) nodes

end Graph

namespace Script

theorem graphs_map (change : Graph → Graph) (script : Script) : (script.mapGraphs change).graphs = script.graphs.map change := by
  simp [graphs, mapGraphs, Function.comp_def, EventGraph.mapGraph, InterfaceFunction.mapGraph, Function.mapGraph, Body.mapGraph]

theorem convert_graphs (form : ReferenceForm) (script : Script) : (script.convertReferences form).1.graphs =
    script.graphs.map fun graph => (graph.convertReferences script.vars script.functionIds form).1 :=
  script.graphs_map _

theorem convert_functions (form : ReferenceForm) (script : Script) :
    (script.convertReferences form).1.functionIds = script.functionIds := by
  simp [convertReferences, functionIds, mapGraphs, Function.comp_def, Function.mapGraph]

theorem reset_convert (form : ReferenceForm) (script : Script) :
    (script.reset.convertReferences form).1 = (script.convertReferences form).1.reset := by
  have ids : script.reset.functionIds = script.functionIds := by
    simp [functionIds, reset, mapGraphs, Function.comp_def, Function.mapGraph]
  rw [convertReferences, ids]
  simp [convertReferences, reset, mapGraphs, EventGraph.reset, EventGraph.mapGraph, InterfaceFunction.mapGraph,
    Function.mapGraph, Body.mapGraph, Function.comp_def, Graph.reset_convert]

end Script

structure Graph.Representable (graph : Graph) : Prop where
  nodes : ∀ node ∈ graph.nodes, node.Representable
  locals : ∀ entry ∈ graph.locals, entry.value.Ordered
  fewLocals : Fits graph.locals.length

/-- What holds of every script in memory: fields are in order, and indices are 64-bit numbers. -/
structure Script.Representable (script : Script) : Prop where
  vars : ∀ entry ∈ script.vars, entry.value.Ordered
  fewVars : Fits script.vars.length
  graphs : ∀ graph ∈ script.graphs, graph.Representable

instance (graph : Graph) : Decidable graph.Representable :=
  decidable_of_iff (_ ∧ _ ∧ _) ⟨fun ⟨nodes, locals, few⟩ => ⟨nodes, locals, few⟩,
    fun ⟨nodes, locals, few⟩ => ⟨nodes, locals, few⟩⟩

instance (script : Script) : Decidable script.Representable :=
  decidable_of_iff (_ ∧ _ ∧ _) ⟨fun ⟨vars, few, graphs⟩ => ⟨vars, few, graphs⟩,
    fun ⟨vars, few, graphs⟩ => ⟨vars, few, graphs⟩⟩

namespace Graph

variable (globals : List Variable) (functions : List Guid)

theorem indexed_storable (fewGlobals : Fits globals.length) (graph : Graph) (representable : graph.Representable) :
    (graph.convertReferences globals functions .indexed).1.Storable := by
  refine ⟨graph.convert_keeps globals functions .indexed Node.Storable Node.renumber_storable ?_, ?_⟩
  · intro node inside other made
    exact node.indexed_storable representable.fewLocals fewGlobals (representable.nodes node inside) made
  · rw [convert_locals]
    exact representable.locals

theorem convert_finite (form : ReferenceForm) (graph : Graph) (finite : graph.finite = true) :
    (graph.convertReferences globals functions form).1.finite = true := by
  obtain ⟨nodes, locals⟩ := Bool.and_eq_true_iff.mp finite
  refine Bool.and_eq_true_iff.mpr ⟨List.all_eq_true.mpr ?_, ?_⟩
  · refine graph.convert_keeps globals functions form (fun node => node.finite = true) ?_ ?_
    · intro removed node finite
      exact (node.renumber_finite _).trans finite
    · intro node inside other made
      exact (node.converted_finite made).trans (List.all_eq_true.mp nodes node inside)
  · rw [convert_locals]
    exact locals

theorem indexed_converts (form : ReferenceForm) (graph : Graph) :
    let indexed := (graph.convertReferences globals functions .indexed).1
    ∀ node ∈ indexed.nodes, ∃ converted, node.convertReference? indexed.locals globals functions form = some converted := by
  intro indexed
  rw [show indexed.locals = graph.locals from convert_locals globals functions .indexed graph]
  refine graph.convert_keeps globals functions .indexed _ (fun removed node found => ?_) fun node _ other made =>
    node.indexed_converts graph.locals globals functions form made
  obtain ⟨converted, made⟩ := found
  rw [Node.renumber_convert, made]
  exact ⟨_, rfl⟩

theorem indexed_finite (form : ReferenceForm) (graph : Graph) :
    ((graph.convertReferences globals functions .indexed).1.convertReferences globals functions form).1.finite =
      (graph.convertReferences globals functions .indexed).1.finite := by
  have each := graph.indexed_converts globals functions form
  generalize (graph.convertReferences globals functions .indexed).1 = indexed at each
  have nodes : (indexed.nodes.map fun node =>
      (node.convertReference? indexed.locals globals functions form).getD node).all Node.finite =
      indexed.nodes.all Node.finite := by
    rw [List.all_map]
    refine List.all_congr rfl fun node => ?_
    rw [Function.comp_apply]
    cases made : node.convertReference? indexed.locals globals functions form with
    | none => rfl
    | some => exact node.converted_finite made
  rw [convert_all globals functions form indexed each, finite, finite, nodes]

theorem live_references (graph : Graph) : ∀ node ∈ (graph.convertReferences globals functions .live).1.nodes,
    ∀ reference, node.kind.reference? = some reference → ∃ guid, reference = .live guid := by
  refine graph.convert_keeps globals functions .live _ (fun _ _ => id) fun node _ other made reference named => ?_
  obtain ⟨old, converts⟩ := (node.converted graph.locals globals functions made).reference reference named
  obtain ⟨guid, _, live⟩ := Reference.converted_live graph.locals globals old converts
  exact ⟨guid, live⟩

end Graph

namespace Script

variable (write : Document → String) (script : Script)

theorem indexed_storable (representable : script.Representable) :
    (script.convertReferences .indexed).1.Storable := by
  refine ⟨representable.vars, fun graph inside => ?_⟩
  rw [convert_graphs] at inside
  obtain ⟨old, there, rfl⟩ := List.mem_map.mp inside
  exact old.indexed_storable script.vars script.functionIds representable.fewVars (representable.graphs old there)

theorem convert_finite (form : ReferenceForm) (script : Script) (finite : script.finite = true) :
    (script.convertReferences form).1.finite = true := by
  obtain ⟨vars, graphs⟩ := Bool.and_eq_true_iff.mp finite
  refine Bool.and_eq_true_iff.mpr ⟨vars, ?_⟩
  rw [convert_graphs, List.all_map]
  exact List.all_eq_true.mpr fun graph inside =>
    graph.convert_finite script.vars script.functionIds form (List.all_eq_true.mp graphs graph inside)

theorem saved_graphs : (script.saveWith write).2.graphs =
    (script.convertReferences .indexed).1.graphs.map fun graph =>
      (graph.convertReferences script.vars script.functionIds .live).1 := by
  rw [← script.convert_functions .indexed]
  exact convert_graphs .live _

theorem saved_finite :
    (script.saveWith write).2.finite = (script.convertReferences .indexed).1.finite := by
  have graphs : (script.saveWith write).2.graphs.all Graph.finite =
      (script.convertReferences .indexed).1.graphs.all Graph.finite := by
    rw [saved_graphs, convert_graphs, List.all_map, List.all_map, List.all_map]
    exact List.all_congr rfl fun graph => graph.indexed_finite script.vars script.functionIds .live
  rw [finite, finite, graphs]
  rfl

theorem saved_live :
    ∀ graph ∈ (script.saveWith write).2.graphs, ∀ node ∈ graph.nodes, ∀ reference, node.kind.reference? = some reference →
      ∃ guid, reference = .live guid := by
  intro graph inside
  rw [saved_graphs] at inside
  obtain ⟨old, _, rfl⟩ := List.mem_map.mp inside
  exact old.live_references _ _

end Script

theorem Variable.rounded_id (entry : Variable) : entry.rounded id = entry := by
  rw [rounded, Value.rounded_id]

theorem InputPin.rounded_id (pin : InputPin) : pin.rounded id = pin := by
  rw [rounded, Value.rounded_id]

theorem ExecPin.rounded_id (pin : ExecPin) : pin.rounded id = pin := by
  obtain ⟨name, target, case⟩ := pin
  cases case with
  | none => rfl
  | some case => simp [rounded, SwitchCase.rounded, Value.rounded_id]

theorem Node.rounded_id (node : Node) : node.rounded id id = node := by
  simp [rounded, Position.rounded, InputPin.rounded_id, ExecPin.rounded_id]

theorem Graph.rounded_id (graph : Graph) : graph.rounded id id = graph := by
  simp [rounded, Node.rounded_id, Variable.rounded_id]

theorem Script.rounded_id (script : Script) : script.rounded id id = script := by
  simp [rounded, mapGraphs, EventGraph.mapGraph, InterfaceFunction.mapGraph, Function.mapGraph, Body.mapGraph,
    Graph.rounded_id, Variable.rounded_id]

/-- A document survives as text if its numbers come back, near to what they were, and those that are not finite as null. -/
def Document.Survives (write : Document → String) (read : String → Option Document) (near : Float → Float)
    (nearSingle : Float32 → Float32) (document : Document) : Prop :=
  ∃ numbers : Echo, numbers.Faithful near nearSingle ∧ read (write document) = some (document.echo numbers)

namespace Script

/-- The document of the script is not nested too deep to be read, and its numbers are read as they were. -/
def legible (script : Script) : Bool :=
  ((script.convertReferences .indexed).1.toDocument?).all fun document =>
    document.legible Document.ofNumeral .exact && decide (document.depth ≤ Document.maxNesting)

theorem legible_survives (script : Script) (legible : script.legible = true) (document : Document)
    (written : (script.convertReferences .indexed).1.toDocument? = some document) :
    document.Survives Document.pretty Document.parse? id id := by
  rw [Script.legible, written] at legible
  obtain ⟨spelled, shallow⟩ := Bool.and_eq_true_iff.mp legible
  exact ⟨_, Echo.spelled_faithful Document.ofNumeral,
    Document.Layout.indented.parse_printed spelled (of_decide_eq_true shallow)⟩

/-- A script as it is loaded again, with the numbers that come back from the text. -/
def restored (near : Float → Float) (nearSingle : Float32 → Float32) (script : Script) : Script :=
  ((script.convertReferences .indexed).1.rounded near nearSingle |>.convertReferences .live).1.reset

theorem restored_exact (write : Document → String) (script : Script) :
    script.restored id id = (script.saveWith write).2.reset := by
  rw [restored, rounded_id]
  rfl

theorem reload (write : Document → String) (read : String → Option Document) (near : Float → Float)
    (nearSingle : Float32 → Float32) (script : Script) (representable : script.Representable)
    (survives : ∀ document, (script.convertReferences .indexed).1.toDocument? = some document →
      document.Survives write read near nearSingle) :
    ∃ text, (script.saveWith write).1 = .ok text ∧ loadWith read text =
      if (script.saveWith write).2.finite then .ok (script.restored near nearSingle) else .error .serialization := by
  have storable := script.indexed_storable representable
  obtain ⟨document, written, _⟩ := script_echo Echo.plain_faithful storable
  obtain ⟨numbers, faithful, back⟩ := survives document written
  obtain ⟨_, again, echoed⟩ := script_echo faithful storable
  cases written.symm.trans again
  refine ⟨write document, by simp only [saveWith, written], ?_⟩
  rw [saved_finite, restored, ← reset_convert, loadWith, back, Option.bind_some, echoed]
  cases (script.convertReferences .indexed).1.finite <;> rfl

theorem finite_reload (write : Document → String) (read : String → Option Document) (near : Float → Float)
    (nearSingle : Float32 → Float32) (script : Script) (representable : script.Representable) (finite : script.finite = true)
    (survives : ∀ document, (script.convertReferences .indexed).1.toDocument? = some document →
      document.Survives write read near nearSingle) :
    ∃ text, (script.saveWith write).1 = .ok text ∧ loadWith read text = .ok (script.restored near nearSingle) := by
  obtain ⟨text, saved, loaded⟩ := script.reload write read near nearSingle representable survives
  rw [if_pos ((script.saved_finite write).trans (script.convert_finite .indexed finite))] at loaded
  exact ⟨text, saved, loaded⟩

theorem legible_reload (script : Script) (representable : script.Representable) (legible : script.legible = true)
    (finite : script.save.2.finite = true) : ∃ text, script.save.1 = .ok text ∧ load text = .ok script.save.2.reset := by
  obtain ⟨text, saved, loaded⟩ := script.reload Document.pretty Document.parse? id id representable
    (script.legible_survives legible)
  have whole : (script.saveWith Document.pretty).2.finite = true := finite
  rw [if_pos whole, script.restored_exact Document.pretty] at loaded
  exact ⟨text, saved, loaded⟩

end Script

/-- What is loaded from the text of a script with finite numbers is the script as saving left it, at rest, and all of its
nodes name their variables as they do in memory. -/
theorem persistence_lossless (write : Document → String) (read : String → Option Document) (script : Script)
    (representable : script.Representable) (finite : script.finite = true)
    (survives : ∀ document, (script.convertReferences .indexed).1.toDocument? = some document →
      document.Survives write read id id) :
    ∃ text, (script.saveWith write).1 = .ok text ∧ Script.loadWith read text = .ok (script.saveWith write).2.reset ∧
      ∀ graph ∈ (script.saveWith write).2.graphs, ∀ node ∈ graph.nodes, ∀ reference,
        node.kind.reference? = some reference → ∃ guid, reference = .live guid := by
  obtain ⟨text, saved, loaded⟩ := script.finite_reload write read id id representable finite survives
  rw [script.restored_exact write] at loaded
  exact ⟨text, saved, loaded, script.saved_live write⟩

/-- A script in the middle of a run, with one node whose variable is gone. -/
def thermostat : Script :=
  let target : Variable := ⟨⟨1⟩, "target", .float, .float 21.5⟩
  let gone : Variable := ⟨⟨9⟩, "gone", .bool, .bool true⟩
  let level : Variable := ⟨⟨2⟩, "level", .array .int, .array [.int 3, .int (-4)]⟩
  let nodes := [Node.receiveEvent "tick" none [], Node.getVariable gone, Node.setVariable target, Node.getVariable target]
  let placed := { Graph.empty with nodes := nodes, locals := [level] }
  let wired := (Edit.connect 3 0 2 0 (Edit.connectExec 0 0 2 0 placed).2).2
  { Script.empty "Thermostat" with
    vars := [target]
    eventGraphs := [⟨⟨3⟩, { wired with stack := [.int 3, .float 21.5], returnPoints := [2], size := some 2 }, none⟩]
    interfaceFunctions := [⟨"Device", "reset", Body.fresh [] [⟨"done", .bool⟩]⟩]
    functions := [⟨⟨5⟩, "raise", Body.fresh [⟨"by", .float⟩] []⟩]
    interfaces := ["Device"]
    owner := some 7
    limits := some ⟨100, 10, 10⟩ }

/-- The node whose variable is gone is left out of the text, and all else comes back. -/
theorem thermostat_restored : thermostat.Representable ∧ thermostat.finite = true ∧
    ∃ text, thermostat.save.1 = .ok text ∧ Script.load text = .ok thermostat.save.2.reset ∧
      thermostat.nodeCount = 8 ∧ thermostat.save.2.nodeCount = 7 := by
  have representable : thermostat.Representable := by decide +kernel
  have finite : thermostat.finite = true := by decide +kernel
  have legible : thermostat.legible = true := by decide +kernel
  obtain ⟨text, saved, loaded, _⟩ := persistence_lossless Document.pretty Document.parse? thermostat representable finite
    (thermostat.legible_survives legible)
  exact ⟨representable, finite, text, saved, loaded, by decide +kernel, by decide +kernel⟩

def divider : Script :=
  let ratio : Variable := ⟨⟨1⟩, "ratio", .float, .float 0.0⟩
  let quotient : FunctionInfo := ⟨"math/divide_float", "Divide", "Math", true, none, [⟨"A", .float⟩, ⟨"B", .float⟩],
    [⟨"Result", .float⟩]⟩
  let nodes := [Node.receiveEvent "tick" none [], Node.setVariable ratio, Node.callNative quotient]
  let wired := (Edit.connect 2 0 1 0 (Edit.connectExec 0 0 1 0 { Graph.empty with nodes := nodes }).2).2
  let filled := (Edit.setLiteral 2 0 (.float 1.0) wired).2
  { Script.empty "Divider" with
    vars := [ratio]
    eventGraphs := [⟨⟨2⟩, filled.compile.2, none⟩]
    limits := some ⟨100, 10, 10⟩ }

def division : Except ScriptError Unit × Script × Unit :=
  divider.runEventGraph ⟨Library.catalog fun _ _ state => state, fun _ _ => none⟩ 0 [] ()

theorem division_leaves : division.1.isOk = true ∧ division.2.1.Representable ∧ division.2.1.legible = true ∧
    division.2.1.save.2.finite = false := by
  decide +kernel

/-- The infinite quotient is saved as null, and null is no number. -/
theorem quotient_not_loaded : division.1.isOk = true ∧
    ∃ text, division.2.1.save.1 = .ok text ∧ Script.load text = .error .serialization := by
  obtain ⟨runs, representable, legible, infinite⟩ := division_leaves
  obtain ⟨text, saved, loaded⟩ := division.2.1.reload Document.pretty Document.parse? id id representable
    (division.2.1.legible_survives legible)
  exact ⟨runs, text, saved, loaded.trans (if_neg (ne_true_of_eq_false infinite))⟩

/-- A text that was saved can be loaded if and only if the numbers of the script are finite. -/
theorem loads_iff_finite (write : Document → String) (read : String → Option Document) (near : Float → Float)
    (nearSingle : Float32 → Float32) (script : Script) (representable : script.Representable)
    (survives : ∀ document, (script.convertReferences .indexed).1.toDocument? = some document →
      document.Survives write read near nearSingle) :
    ∃ text, (script.saveWith write).1 = .ok text ∧
      ((∃ loaded, Script.loadWith read text = .ok loaded) ↔ (script.saveWith write).2.finite = true) := by
  obtain ⟨text, saved, loaded⟩ := script.reload write read near nearSingle representable survives
  refine ⟨text, saved, ?_⟩
  rw [loaded]
  cases (script.saveWith write).2.finite with
  | true => exact ⟨fun _ => rfl, fun _ => ⟨_, rfl⟩⟩
  | false =>
    constructor
    · rintro ⟨_, other⟩
      cases other
    · intro other
      cases other

theorem loads_until_divided : (∃ text, divider.save.1 = .ok text ∧ ∃ loaded, Script.load text = .ok loaded) ∧
    ∃ text, division.2.1.save.1 = .ok text ∧ ¬ ∃ loaded, Script.load text = .ok loaded := by
  obtain ⟨_, representable, legible, infinite⟩ := division_leaves
  obtain ⟨before, savedBefore, loadsBefore⟩ := loads_iff_finite Document.pretty Document.parse? id id divider
    (by decide +kernel) (divider.legible_survives (by decide +kernel))
  obtain ⟨text, saved, loads⟩ := loads_iff_finite Document.pretty Document.parse? id id division.2.1 representable
    (division.2.1.legible_survives legible)
  refine ⟨⟨before, savedBefore, loadsBefore.mpr (by decide +kernel)⟩, text, saved, fun loaded => ?_⟩
  exact absurd (loads.mp loaded) (ne_true_of_eq_false infinite)

end Patchbay
