import Patchbay.Node.Make
import Patchbay.Proofs.Clippings
import Patchbay.Proofs.CompiledFlag

set_option autoImplicit false

namespace Patchbay

section

variable (near : Float → Float) (nearSingle : Float32 → Float32) (rename : Nat → Option Nat)

def InputPin.moved (pin : InputPin) : InputPin :=
  { pin.rounded near with source := pin.source.bind (·.renumber? rename), slot := none }

def ExecPin.moved (pin : ExecPin) : ExecPin :=
  { pin.rounded near with target := pin.target.bind (·.renumber? rename) }

def Node.moved (offset : Position) (guid : Option Guid) (node : Node) : Node :=
  { node.relabelled .live guid with
    position := (node.position.rounded nearSingle).shift offset
    execIn := node.execIn.map (·.rounded near)
    execOut := node.execOut.map (·.moved near rename)
    inputs := node.inputs.map (·.moved near rename)
    base := 0
    progress := .idle }

end

theorem source_twice (first second rename : Nat → Option Nat) (through : ∀ index, (first index).bind second = rename index)
    (source : Option PinSource) :
    (source.bind (·.renumber? first)).bind (·.renumber? second) = source.bind (·.renumber? rename) := by
  cases source with
  | none => rfl
  | some source =>
    simp only [Option.bind_some, PinSource.renumber?, ← through]
    cases first source.node <;> rfl

theorem target_twice (first second rename : Nat → Option Nat) (through : ∀ index, (first index).bind second = rename index)
    (target : Option ExecTarget) :
    (target.bind (·.renumber? first)).bind (·.renumber? second) = target.bind (·.renumber? rename) := by
  cases target with
  | none => rfl
  | some target =>
    simp only [Option.bind_some, ExecTarget.renumber?, ← through]
    cases first target.node <;> rfl

theorem Node.moved_through (near : Float → Float) (nearSingle : Float32 → Float32) (first second rename : Nat → Option Nat)
    (through : ∀ index, (first index).bind second = rename index) (offset : Position) (guid : Option Guid) (node : Node) :
    let read := (((node.relabelled .byGuid guid).rewire first).rounded near nearSingle).reset
    let placed := (read.relabelled .live guid).rewire second
    { placed with position := placed.position.shift offset } = node.moved near nearSingle rename offset guid := by
  have kinds : (((node.relabelled .byGuid guid).relabelled .live guid)).kind = (node.relabelled .live guid).kind := by
    cases guid with
    | none => rfl
    | some guid => exact Node.with_reference_again node.kind _ _
  have inputs (pin : InputPin) : ({ pin with
      source := (pin.source.bind (·.renumber? first)).bind (·.renumber? second), slot := none } : InputPin).rounded near =
      pin.moved near rename := by
    rw [source_twice first second rename through]
    rfl
  have outs (pin : ExecPin) : ({ pin with
      target := (pin.target.bind (·.renumber? first)).bind (·.renumber? second) } : ExecPin).rounded near =
      pin.moved near rename := by
    rw [target_twice first second rename through]
    rfl
  refine (Node.mk.injEq ..).mpr ⟨kinds, rfl, rfl, rfl, ?_, ?_, rfl, rfl, rfl⟩
  · simp only [Node.rewire, Node.renumber, Node.reset, Node.rounded, Node.relabelled, List.map_map]
    exact List.map_congr_left fun pin _ => outs pin
  · simp only [Node.rewire, Node.renumber, Node.reset, Node.rounded, Node.relabelled, List.map_map]
    exact List.map_congr_left fun pin _ => inputs pin

theorem Graph.adopts (globals : List Variable) (functions : List Guid) (locals : List Variable) {node : Node}
    {guid : Option Guid} (named : node.kind.reference? = guid.map .byGuid)
    (known : ∀ own ∈ guid, own ∈ locals.map (·.guid) ++ globals.map (·.guid))
    (calls : ∀ function, node.kind = .callFunction function → function ∈ functions) :
    Graph.adoptNode? globals functions locals node = some (node.relabelled .live guid) := by
  have found : node.subject? locals globals = guid := by
    rw [Node.subject?, named]
    cases guid with
    | none => rfl
    | some own =>
      refine ((Reference.byGuid own).identifier_own locals globals own rfl).trans ?_
      rw [if_pos (known own rfl)]
  have resolves : node.resolves locals globals = true := by
    rw [Node.resolves, found, named]
    cases guid <;> rfl
  unfold Graph.adoptNode?
  split
  · next function call =>
      rw [call] at named
      cases guid with
      | some own => cases named
      | none =>
        rw [if_pos (List.contains_iff_mem.mpr (calls function call))]
        rfl
  · rw [node.convert_resolved locals globals .live .live (.inr ⟨rfl, rfl⟩), if_pos resolves, found]

theorem renumbering_through (base : Nat) (indices : List Nat) (index : Nat) :
    (renumbering 0 indices index).bind (renumbering base (List.range indices.length)) = renumbering base indices index := by
  unfold renumbering
  cases found : indices.findIdx? (· == index) with
  | none => rfl
  | some position =>
    obtain ⟨inside, _⟩ := List.findIdx?_eq_some_iff_getElem.mp found
    have here : (List.range indices.length)[position]? = some position := List.getElem?_range inside
    rw [Option.map_some, Option.bind_some, Nat.zero_add]
    exact (renumbering_iff base List.nodup_range position (base + position)).mpr ⟨position, here, rfl⟩

namespace Graph

def arrivals (near : Float → Float) (nearSingle : Float32 → Float32) (selection : List Nat) (globals : List Variable) (base : Nat)
    (offset : Position) (graph : Graph) : List Node :=
  (graph.originals selection globals).map fun entry =>
    entry.2.moved near nearSingle (renumbering base (graph.copied selection globals)) offset
      (entry.2.subject? graph.locals globals)

variable (graph target : Graph) (selection : List Nat) (globals others : List Variable) (functions : List Guid)
  (offset : Position)

/-- Every variable and every function that a copied node works with is known. -/
structure Supplies : Prop where
  vars : ∀ index ∈ graph.copied selection globals, ∀ node, graph.nodes[index]? = some node →
    ∀ guid, node.subject? graph.locals globals = some guid → guid ∈ target.locals.map (·.guid) ++ others.map (·.guid)
  calls : ∀ index ∈ graph.copied selection globals, ∀ node, graph.nodes[index]? = some node →
    ∀ function, node.kind = .callFunction function → function ∈ functions

variable (near : Float → Float) (nearSingle : Float32 → Float32) {entry : Nat × Node} {node : Node}

theorem original_copied (inside : entry ∈ graph.originals selection globals) :
    entry.1 ∈ graph.copied selection globals := by
  rw [← original_indices]
  exact List.mem_map_of_mem inside

theorem relabelled_call (write : Guid → Reference) {guid : Option Guid} {function : Guid}
    (call : (node.relabelled write guid).kind = .callFunction function) : node.kind = .callFunction function := by
  cases guid with
  | none => exact call
  | some guid =>
    have kind : (node.kind.withReference (write guid)) = .callFunction function := call
    revert kind
    cases node.kind <;> simp [NodeKind.withReference]

theorem clipping_adopted (supplies : Supplies graph target selection globals others functions)
    (inside : entry ∈ graph.originals selection globals) :
    let node := graph.clipping selection globals near nearSingle entry.2
    node.kind.reference?.bind Reference.guid? = entry.2.subject? graph.locals globals ∧
      adoptNode? others functions target.locals node =
        some (node.relabelled .live (entry.2.subject? graph.locals globals)) := by
  intro node
  obtain ⟨found, resolves⟩ := graph.original_found selection globals inside
  have copied := graph.original_copied selection globals inside
  have named : node.kind.reference? = (entry.2.subject? graph.locals globals).map .byGuid :=
    entry.2.relabelled_reference .byGuid resolves
  refine ⟨?_, adopts others functions target.locals named (supplies.vars entry.1 copied entry.2 found) ?_⟩
  · rw [named]
    cases entry.2.subject? graph.locals globals <;> rfl
  · exact fun function call => supplies.calls entry.1 copied entry.2 found function (relabelled_call _ call)

theorem adopted_nodes (supplies : Supplies graph target selection globals others functions) :
    let nodes := (graph.originals selection globals).map fun entry => graph.clipping selection globals near nearSingle entry.2
    let kept := keepResolved (adoptNode? others functions target.locals) ((List.range nodes.length).zip nodes)
    kept.length = (graph.copied selection globals).length ∧
      (target.adoptNodes kept offset).nodes =
        (target.nodes ++ graph.arrivals near nearSingle selection globals target.nodes.length offset).map
          (·.prune (target.nodes ++ graph.arrivals near nearSingle selection globals target.nodes.length offset)) := by
  intro nodes kept
  have count : nodes.length = (graph.copied selection globals).length := by
    rw [← original_indices, List.length_map, List.length_map]
  let change (node : Node) : Node := node.relabelled .live (node.kind.reference?.bind Reference.guid?)
  have all : kept = ((List.range nodes.length).zip nodes).map fun entry => (entry.1, change entry.2) := by
    refine (kept_filtered _ (fun _ => true) change _ fun entry inside => ?_).trans (by rw [List.filter_true])
    obtain ⟨original, there, same⟩ := List.mem_map.mp (List.of_mem_zip inside).2
    obtain ⟨own, adopted⟩ := graph.clipping_adopted target selection globals others functions near nearSingle supplies
      there
    rw [if_pos rfl, ← same, adopted, ← own]
  have numbers : kept.map (·.1) = List.range (graph.copied selection globals).length := by
    rw [all, List.map_map, ← count]
    exact List.map_fst_zip (Nat.le_of_eq List.length_range)
  refine ⟨?_, ?_⟩
  · rw [← List.length_map (·.1), numbers, List.length_range]
  · rw [adoptNodes, prune_nodes, add_all_nodes, numbers, all, List.map_map]
    let place (node : Node) : Node :=
      let placed := (change node).rewire (renumbering target.nodes.length (List.range (graph.copied selection globals).length))
      { placed with position := placed.position.shift offset }
    have placed : ((List.range nodes.length).zip nodes).map (place ∘ Prod.snd) =
        graph.arrivals near nearSingle selection globals target.nodes.length offset := by
      rw [← List.map_map, List.map_snd_zip (Nat.le_of_eq List.length_range.symm), List.map_map]
      refine List.map_congr_left fun entry inside => ?_
      have own := (graph.clipping_adopted target selection globals others functions near nearSingle supplies inside).1
      refine Eq.trans ?_ (entry.2.moved_through near nearSingle _ _ _
        (renumbering_through target.nodes.length (graph.copied selection globals)) offset _)
      simp only [Function.comp_apply, place, change, own]
      rfl
    exact congrArg (fun more => (target.nodes ++ more).map (·.prune (target.nodes ++ more))) placed

theorem arrivals_length (base : Nat) :
    (graph.arrivals near nearSingle selection globals base offset).length = (graph.copied selection globals).length := by
  rw [arrivals, List.length_map, ← original_indices, List.length_map]

theorem arrival_found (base : Nat) {position index : Nat}
    (chosen : (graph.copied selection globals)[position]? = some index) (found : graph.nodes[index]? = some node) :
    (graph.arrivals near nearSingle selection globals base offset)[position]? =
      some (node.moved near nearSingle (renumbering base (graph.copied selection globals)) offset
        (node.subject? graph.locals globals)) := by
  rw [← original_indices, List.getElem?_map] at chosen
  obtain ⟨entry, here, rfl⟩ := Option.map_eq_some_iff.mp chosen
  have same := (graph.original_found selection globals (List.mem_of_getElem? here)).1
  rw [arrivals, List.getElem?_map, here, Option.map_some, Option.some.inj (same.symm.trans found)]

end Graph

theorem feeds_at (nodes : List Node) (pin : InputPin) (source : PinSource) (node : Node) (found : nodes[source.node]? = some node) :
    Feeds nodes pin source ↔
      ∃ output, node.outputs[source.parameter]? = some output ∧ pin.type.assignable output.type = true := by
  constructor
  · rintro ⟨other, output, there, first, assignable⟩
    cases found.symm.trans there
    exact ⟨output, first, assignable⟩
  · rintro ⟨output, first, assignable⟩
    exact ⟨node, output, found, first, assignable⟩

theorem admits_at (nodes : List Node) (target : ExecTarget) (node : Node) (found : nodes[target.node]? = some node) :
    Admits nodes target ↔ target.pin < node.execIn.length := by
  constructor
  · rintro ⟨other, there, inside⟩
    cases found.symm.trans there
    exact inside
  · intro inside
    exact ⟨node, found, inside⟩

theorem fits_of_feeds (nodes : List Node) (pin : InputPin)
    (feeds : ∀ source, pin.source = some source → Feeds nodes pin source) : pin.fits nodes = true := by
  unfold InputPin.fits
  cases connected : pin.source with
  | none => rfl
  | some source =>
    obtain ⟨node, output, found, first, assignable⟩ := feeds source connected
    simp only [found, first, assignable]

theorem fits_of_admits (nodes : List Node) (pin : ExecPin)
    (admits : ∀ target, pin.target = some target → Admits nodes target) : pin.fits nodes = true := by
  unfold ExecPin.fits
  cases connected : pin.target with
  | none => rfl
  | some target =>
    obtain ⟨node, found, inside⟩ := admits target connected
    simp only [found, decide_eq_true inside]

theorem input_pruned (nodes : List Node) (pin : InputPin) (source : PinSource) :
    (pin.prune nodes).source = some source ↔ pin.source = some source ∧ Feeds nodes pin source := by
  unfold InputPin.prune
  by_cases fits : pin.fits nodes = true
  · rw [if_pos fits]
    exact ⟨fun connected => ⟨connected, input_fits connected fits⟩, And.left⟩
  · rw [if_neg fits]
    constructor
    · intro connected
      cases connected
    · rintro ⟨connected, feeds⟩
      refine absurd (fits_of_feeds nodes pin fun other same => ?_) fits
      cases connected.symm.trans same
      exact feeds

theorem exec_pruned (nodes : List Node) (pin : ExecPin) (target : ExecTarget) :
    (pin.prune nodes).target = some target ↔ pin.target = some target ∧ Admits nodes target := by
  unfold ExecPin.prune
  by_cases fits : pin.fits nodes = true
  · rw [if_pos fits]
    exact ⟨fun connected => ⟨connected, exec_fits connected fits⟩, And.left⟩
  · rw [if_neg fits]
    constructor
    · intro connected
      cases connected
    · rintro ⟨connected, admits⟩
      refine absurd (fits_of_admits nodes pin fun other same => ?_) fits
      cases connected.symm.trans same
      exact admits

variable {nodes : List Node} {node : Node}

theorem linked_pruned (linked : node.LinkedIn nodes) : node.prune nodes = node :=
  prune_fitting nodes node (fun pin inside => fits_of_feeds nodes pin (linked.sources pin inside))
    fun pin inside => fits_of_admits nodes pin (linked.targets pin inside)

theorem linked_joined (more : List Node) (linked : Linked nodes) :
    (nodes ++ more).map (·.prune (nodes ++ more)) = nodes ++ more.map (·.prune (nodes ++ more)) := by
  rw [List.map_append]
  refine congrArg (· ++ _) ((List.map_congr_left fun node inside => ?_).trans (List.map_id _))
  exact linked_pruned (linked_offered (offers_append nodes more) node (linked node inside))

theorem linked_iff (nodes : List Node) : Linked nodes ↔
    ∀ node ∈ nodes, (∀ pin ∈ node.inputs, pin.fits nodes = true) ∧ ∀ pin ∈ node.execOut, pin.fits nodes = true := by
  constructor
  · intro linked node inside
    exact ⟨fun pin there => fits_of_feeds nodes pin ((linked node inside).sources pin there),
      fun pin there => fits_of_admits nodes pin ((linked node inside).targets pin there)⟩
  · intro fits node inside
    obtain ⟨inputs, outs⟩ := fits node inside
    exact ⟨fun pin there source connected => input_fits connected (inputs pin there),
      fun pin there target connected => exec_fits connected (outs pin there)⟩

instance (nodes : List Node) : Decidable (Linked nodes) := decidable_of_iff _ (linked_iff nodes).symm

theorem source_moved (rename : Nat → Option Nat) (source : Option PinSource) (place parameter : Nat) :
    source.bind (·.renumber? rename) = some ⟨place, parameter⟩ ↔
      ∃ index, source = some ⟨index, parameter⟩ ∧ rename index = some place := by
  cases source with
  | none => simp
  | some source =>
    obtain ⟨index, output⟩ := source
    simp [PinSource.renumber?, and_comm, and_assoc]

theorem target_moved (rename : Nat → Option Nat) (target : Option ExecTarget) (place pin : Nat) :
    target.bind (·.renumber? rename) = some ⟨place, pin⟩ ↔
      ∃ index, target = some ⟨index, pin⟩ ∧ rename index = some place := by
  cases target with
  | none => simp
  | some target =>
    obtain ⟨index, entrance⟩ := target
    simp [ExecTarget.renumber?, and_comm, and_assoc]

/-- The ends that lead to a place after the move, and are valid there, are those that led to the node that was moved there,
and were valid before. -/
theorem renumbered_ends {kept : List Nat} (distinct : kept.Nodup) (start place : Nat) {leads before : Nat → Prop}
    (after : Nat → Prop)
    (alike : ∀ (position index : Nat), kept[position]? = some index → (after (start + position) ↔ before index)) :
    (∃ index, leads index ∧ renumbering start kept index = some place) ∧ after place ↔
      ∃ (position index : Nat), place = start + position ∧ kept[position]? = some index ∧ leads index ∧ before index := by
  constructor
  · rintro ⟨⟨index, was, renamed⟩, valid⟩
    obtain ⟨position, chosen, rfl⟩ := (renumbering_iff start distinct index place).mp renamed
    exact ⟨position, index, rfl, chosen, was, (alike position index chosen).mp valid⟩
  · rintro ⟨position, index, rfl, chosen, was, valid⟩
    exact ⟨⟨index, was, (renumbering_iff start distinct index _).mpr ⟨position, chosen, rfl⟩⟩,
      (alike position index chosen).mpr valid⟩

def ExecPin.detach (pin : ExecPin) : ExecPin := { pin with target := none }

/-- What a pasted node has in common with the one that it is a copy of. The copied nodes were at the indices `kept`, and the
first of them has come to stand at `start`. -/
structure Reproduces (graph : Graph) (globals : List Variable) (kept : List Nat) (start : Nat) (offset : Position)
    (near : Float → Float) (nearSingle : Float32 → Float32) (node pasted : Node) : Prop where
  plain : node.kind.reference? = none → pasted.kind = node.kind
  named : ∀ reference, node.kind.reference? = some reference → ∃ guid,
    pasted.kind = node.kind.withReference (.live guid) ∧ reference.identifier? graph.locals globals = some guid ∧
      ∀ own, reference.guid? = some own → own = guid
  name : pasted.name = node.name
  position : pasted.position = (node.position.rounded nearSingle).shift offset
  execIn : pasted.execIn = node.execIn.map (·.rounded near)
  execOut : pasted.execOut.map ExecPin.detach = node.execOut.map fun pin => (pin.rounded near).detach
  inputs : pasted.inputs.map InputPin.detach = node.inputs.map fun pin => (pin.rounded near).detach
  outputs : pasted.outputs = node.outputs
  slots : ∀ pin ∈ pasted.inputs, pin.slot = none
  base : pasted.base = 0
  progress : pasted.progress = .idle
  -- An input is connected where that of the original was validly connected to a node that was copied as well.
  sources : ∀ (input : Nat) (old new : InputPin), node.inputs[input]? = some old → pasted.inputs[input]? = some new →
    ∀ place parameter, new.source = some ⟨place, parameter⟩ ↔ ∃ (position index : Nat), place = start + position ∧
      kept[position]? = some index ∧ old.source = some ⟨index, parameter⟩ ∧ Feeds graph.nodes old ⟨index, parameter⟩
  targets : ∀ (output : Nat) (old new : ExecPin), node.execOut[output]? = some old → pasted.execOut[output]? = some new →
    ∀ place pin, new.target = some ⟨place, pin⟩ ↔ ∃ (position index : Nat), place = start + position ∧
      kept[position]? = some index ∧ old.target = some ⟨index, pin⟩ ∧ Admits graph.nodes ⟨index, pin⟩

theorem kind_named {graph : Graph} {globals : List Variable}
    (resolves : node.resolves graph.locals globals = true) (reference : Reference) (named : node.kind.reference? = some reference) :
    ∃ guid, (node.relabelled .live (node.subject? graph.locals globals)).kind = node.kind.withReference (.live guid) ∧
      reference.identifier? graph.locals globals = some guid ∧ ∀ own, reference.guid? = some own → own = guid := by
  have subject : node.subject? graph.locals globals = reference.identifier? graph.locals globals := by
    rw [Node.subject?, named, Option.bind_some]
  rw [Node.resolves, named, subject, Option.isNone_some, Bool.false_or] at resolves
  obtain ⟨guid, found⟩ := Option.isSome_iff_exists.mp resolves
  refine ⟨guid, by rw [subject, found]; rfl, found, fun own names => ?_⟩
  rw [reference.identifier_own graph.locals globals own names] at found
  by_cases known : own ∈ graph.locals.map (·.guid) ++ globals.map (·.guid)
  · rw [if_pos known] at found
    exact Option.some.inj found
  · rw [if_neg known] at found
    cases found

section

variable (near : Float → Float) (nearSingle : Float32 → Float32) (nodes : List Node)

theorem moved_inputs (rename : Nat → Option Nat) (offset : Position) (guid : Option Guid) (node : Node) :
    ((node.moved near nearSingle rename offset guid).prune nodes).inputs =
      node.inputs.map fun pin => (pin.moved near rename).prune nodes := List.map_map

theorem moved_outs (rename : Nat → Option Nat) (offset : Position) (guid : Option Guid) (node : Node) :
    ((node.moved near nearSingle rename offset guid).prune nodes).execOut =
      node.execOut.map fun pin => (pin.moved near rename).prune nodes := List.map_map

theorem moved_detached (rename : Nat → Option Nat) (pin : InputPin) :
    ((pin.moved near rename).prune nodes).detach = (pin.rounded near).detach ∧
    ((pin.moved near rename).prune nodes).slot = none := by
  unfold InputPin.prune
  split <;> exact ⟨rfl, rfl⟩

theorem moved_out_detached (rename : Nat → Option Nat) (pin : ExecPin) :
    ((pin.moved near rename).prune nodes).detach = (pin.rounded near).detach := by
  unfold ExecPin.prune
  split <;> rfl

theorem moved_reproduces {graph : Graph} {globals : List Variable} {kept : List Nat} (distinct : kept.Nodup)
    (exist : ∀ index ∈ kept, ∃ node, graph.nodes[index]? = some node) (start : Nat) (offset : Position)
    (placed : ∀ (position index : Nat) (node : Node), kept[position]? = some index → graph.nodes[index]? = some node →
      nodes[start + position]? =
        some (node.moved near nearSingle (renumbering start kept) offset (node.subject? graph.locals globals)))
    {node : Node} (resolves : node.resolves graph.locals globals = true) :
    Reproduces graph globals kept start offset near nearSingle node
      ((node.moved near nearSingle (renumbering start kept) offset (node.subject? graph.locals globals)).prune nodes) where
  plain none := by
    have subject : node.subject? graph.locals globals = .none := by rw [Node.subject?, none, Option.bind_none]
    rw [subject]
    rfl
  named := kind_named resolves
  name := rfl
  position := rfl
  execIn := rfl
  execOut := by
    rw [moved_outs, List.map_map]
    exact List.map_congr_left fun pin _ => moved_out_detached near nodes _ pin
  inputs := by
    rw [moved_inputs, List.map_map]
    exact List.map_congr_left fun pin _ => (moved_detached near nodes _ pin).1
  outputs := rfl
  slots := by
    intro pin inside
    rw [moved_inputs] at inside
    obtain ⟨old, _, rfl⟩ := List.mem_map.mp inside
    exact (moved_detached near nodes _ old).2
  base := rfl
  progress := rfl
  sources := by
    intro input old new before after place parameter
    rw [moved_inputs, List.getElem?_map, before, Option.map_some] at after
    cases after
    refine (input_pruned nodes _ _).trans ((and_congr_left' (source_moved _ old.source place parameter)).trans ?_)
    refine renumbered_ends distinct start place (Feeds nodes _ ⟨·, parameter⟩) fun position index chosen => ?_
    obtain ⟨other, found⟩ := exist index (List.mem_of_getElem? chosen)
    exact (feeds_at _ _ ⟨start + position, parameter⟩ _ (placed position index other chosen found)).trans
      (feeds_at _ old ⟨index, parameter⟩ other found).symm
  targets := by
    intro output old new before after place pin
    rw [moved_outs, List.getElem?_map, before, Option.map_some] at after
    cases after
    refine (exec_pruned nodes _ _).trans ((and_congr_left' (target_moved _ old.target place pin)).trans ?_)
    refine renumbered_ends distinct start place (Admits nodes ⟨·, pin⟩) fun position index chosen => ?_
    obtain ⟨other, found⟩ := exist index (List.mem_of_getElem? chosen)
    rw [admits_at _ ⟨start + position, pin⟩ _ (placed position index other chosen found), admits_at _ ⟨index, pin⟩ other found]
    exact iff_of_eq (congrArg (pin < ·) (List.length_map _))

end

theorem copied_found {graph : Graph} {selection : List Nat} {globals : List Variable} {index : Nat}
    (inside : index ∈ graph.copied selection globals) :
    ∃ node, graph.nodes[index]? = some node ∧ node.resolves graph.locals globals = true := by
  rw [← Graph.original_indices] at inside
  obtain ⟨entry, there, rfl⟩ := List.mem_map.mp inside
  exact ⟨entry.2, graph.original_found selection globals there⟩

theorem adopted_locals (kept : List (Nat × Node)) (offset : Position) (graph : Graph) :
    (graph.adoptNodes kept offset).locals = graph.locals := by
  rw [Graph.adoptNodes, prune_locals, add_all_locals]

section

variable (graph target : Graph) (selection : List Nat) (globals others : List Variable) (functions : List Guid)
  (offset : Position) (near : Float → Float) (nearSingle : Float32 → Float32)

def Graph.joined : List Node :=
  target.nodes ++ graph.arrivals near nearSingle selection globals target.nodes.length offset

theorem paste_joins {read : String → Option Document} {text : String}
    (listed : Graph.clipboardNodes? read text = some ((graph.originals selection globals).map fun entry =>
      graph.clipping selection globals near nearSingle entry.2))
    (supplies : Graph.Supplies graph target selection globals others functions) :
    ∃ after, target.pasteNodesWith read others functions text offset =
        .ok ((List.range (graph.copied selection globals).length).map (target.nodes.length + ·), after) ∧
      after.locals = target.locals ∧ after.nodes = (graph.joined target selection globals offset near nearSingle).map
        (·.prune (graph.joined target selection globals offset near nearSingle)) := by
  obtain ⟨count, nodes⟩ := graph.adopted_nodes target selection globals others functions offset near nearSingle supplies
  refine ⟨_, ?_, adopted_locals _ offset target, nodes⟩
  rw [← count, Graph.pasteNodesWith, Edit.commit, Edit.pasteNodesWith, listed]

theorem joined_found (position index : Nat) (node : Node)
    (chosen : (graph.copied selection globals)[position]? = some index) (found : graph.nodes[index]? = some node) :
    (graph.joined target selection globals offset near nearSingle)[target.nodes.length + position]? =
      some (node.moved near nearSingle (renumbering target.nodes.length (graph.copied selection globals)) offset
        (node.subject? graph.locals globals)) := by
  rw [Graph.joined, List.getElem?_append_right (Nat.le_add_right _ _), Nat.add_sub_cancel_left]
  exact graph.arrival_found selection globals offset near nearSingle _ chosen found

theorem joined_front (linked : Linked target.nodes) :
    ((graph.joined target selection globals offset near nearSingle).map
      (·.prune (graph.joined target selection globals offset near nearSingle))).take target.nodes.length = target.nodes := by
  rw [Graph.joined, linked_joined _ linked, List.take_left]

/-- Copied nodes are pasted behind the nodes that are there, in the order in which they stood, and each is like its original.
Its numbers are those that come back from the text. -/
theorem paste_reproduces_copy (write : Document → String) (read : String → Option Document)
    (representable : ∀ node ∈ graph.nodes, node.Representable) (finite : ∀ node ∈ graph.nodes, node.finite = true)
    (survives : ∀ document, Graph.clipboardDocument? (graph.copiedNodes selection globals) = some document →
      document.Survives write read near nearSingle)
    (linked : Linked target.nodes) (supplies : Graph.Supplies graph target selection globals others functions) :
    ∃ text after, graph.copyNodesWith write selection globals = .ok text ∧
      target.pasteNodesWith read others functions text offset =
        .ok ((List.range (graph.copied selection globals).length).map (target.nodes.length + ·), after) ∧
      after.nodes.length = target.nodes.length + (graph.copied selection globals).length ∧
      after.nodes.take target.nodes.length = target.nodes ∧ after.locals = target.locals ∧
      ∀ (position index : Nat) (node : Node), (graph.copied selection globals)[position]? = some index →
        graph.nodes[index]? = some node → ∃ pasted, after.nodes[target.nodes.length + position]? = some pasted ∧
          Reproduces graph globals (graph.copied selection globals) target.nodes.length offset near nearSingle node pasted := by
  obtain ⟨text, copied, listed⟩ := graph.copy_read selection globals representable finite survives
  obtain ⟨after, pasted, locals, nodes⟩ := paste_joins graph target selection globals others functions offset near nearSingle
    listed supplies
  refine ⟨text, after, copied, pasted, ?_, ?_, locals, fun position index node chosen found => ?_⟩
  · rw [nodes, List.length_map, Graph.joined, List.length_append, Graph.arrivals_length]
  · rw [nodes]
    exact joined_front graph target selection globals offset _ _ linked
  · have placed := joined_found graph target selection globals offset near nearSingle
    obtain ⟨other, same, resolves⟩ := copied_found (List.mem_of_getElem? chosen)
    cases found.symm.trans same
    refine ⟨_, by rw [nodes, List.getElem?_map, placed position index node chosen found, Option.map_some], ?_⟩
    refine moved_reproduces _ _ _ (graph.copied_distinct selection globals) (fun index inside => ?_) _ offset
      placed resolves
    obtain ⟨other, there, _⟩ := copied_found inside
    exact ⟨other, there⟩

end

def gauge : Variable := ⟨⟨1⟩, "level", .array .any, .array []⟩

/-- A variable is set to an array. One item of the array is a literal, and one the value of a variable that is gone. -/
def workbench : Graph :=
  let gone : Variable := ⟨⟨9⟩, "gone", .bool, .bool true⟩
  let nodes := [Node.functionEntry [], Node.setVariable gauge, Node.branch, Node.makeArray 2, Node.getVariable gone]
  let entered := (Edit.connectExec 1 0 2 0 (Edit.connectExec 0 0 1 0 { Graph.empty with nodes := nodes }).2).2
  let fed := (Edit.connect 4 0 3 1 (Edit.connect 3 0 1 0 entered).2).2
  (Edit.setLiteral 3 0 (.float 0.5) fed).2

def shelf : Graph :=
  (Edit.connectExec 0 0 1 0 { Graph.empty with nodes := [Node.functionEntry [], Node.branch] }).2

theorem workbench_copied : workbench.copied [3, 1, 0, 7, 3, 4] [gauge] = [1, 3] := by decide +kernel

theorem shelf_supplies : Graph.Supplies workbench shelf [3, 1, 0, 7, 3, 4] [gauge] [gauge] [] := by
  constructor
  · intro index inside node found guid subject
    rw [workbench_copied] at inside
    rcases List.mem_cons.mp inside with rfl | later
    · cases found
      cases subject
      decide
    · cases List.mem_singleton.mp later
      cases found
      cases subject
  · intro index inside node found function call
    rw [workbench_copied] at inside
    rcases List.mem_cons.mp inside with rfl | later
    · cases found
      cases call
    · cases List.mem_singleton.mp later
      cases found
      cases call

/-- Two of the chosen nodes are copied. The connection between them comes with them, and those to other nodes do not. -/
theorem workbench_reproduced : ∃ text after, workbench.copyNodes [3, 1, 0, 7, 3, 4] [gauge] = .ok text ∧
    shelf.pasteNodes [gauge] [] text Node.origin = .ok ([2, 3], after) ∧ after.nodes.take 2 = shelf.nodes ∧
    ∃ setter value next, after.nodes[2]? = some setter ∧ setter.kind = .setVariable (.live gauge.guid) ∧
      setter.inputs = [value] ∧ value.source = some ⟨3, 0⟩ ∧ setter.execOut = [next] ∧ next.target = none := by
  obtain ⟨text, after, copied, pasted, _, kept, _, each⟩ := paste_reproduces_copy workbench shelf [3, 1, 0, 7, 3, 4] [gauge]
    [gauge] [] Node.origin _ _ Document.compact Document.parse? (by decide +kernel) (by decide +kernel)
    (Graph.clipboard_survives _ (by decide +kernel)) (by decide +kernel) shelf_supplies
  rw [workbench_copied] at pasted each
  obtain ⟨setter, there, reproduced⟩ := each 0 1 _ rfl rfl
  obtain ⟨value, inputs, _⟩ := List.map_eq_singleton_iff.mp reproduced.inputs
  obtain ⟨next, outs, _⟩ := List.map_eq_singleton_iff.mp reproduced.execOut
  refine ⟨text, after, copied, pasted, kept, setter, value, next, there, ?_, inputs, ?_, outs, ?_⟩
  · obtain ⟨guid, kind, _, own⟩ := reproduced.named (.live gauge.guid) rfl
    rw [kind, ← own gauge.guid rfl]
    rfl
  · have first : setter.inputs[0]? = some value := by rw [inputs]; rfl
    refine (reproduced.sources 0 _ value rfl first 3 0).mpr ⟨1, 3, rfl, rfl, rfl, ?_⟩
    exact ⟨_, _, rfl, rfl, rfl⟩
  · have first : setter.execOut[0]? = some next := by rw [outs]; rfl
    -- The original goes on at node 2, which was not chosen.
    cases connected : next.target with
    | none => rfl
    | some target =>
      obtain ⟨place, pin⟩ := target
      obtain ⟨_, _, _, chosen, was, _⟩ := (reproduced.targets 0 _ next rfl first place pin).mp connected
      cases was
      exact absurd (List.mem_of_getElem? chosen) (by decide)

/-- An array with one item, which is a tiny number. -/
def tinyLiteral : Graph :=
  (Edit.setLiteral 0 0 (.float (.ofBits 0x39b4484bfeebc2a0)) (Graph.empty.addNode (Node.makeArray 1))).2

def Node.literalBits (node : Node) : List (Option UInt64) := node.inputs.map fun pin => pin.literal.float?.map Float.toBits

/-- It is written with one digit, and read as one divided by a power of ten that is no double. -/
theorem tiny_literal_shrinks : (∀ node ∈ tinyLiteral.nodes, node.finite = true) ∧
    ∃ text after, tinyLiteral.copyNodes [0] [] = .ok text ∧ Graph.empty.pasteNodes [] [] text Node.origin = .ok ([0], after) ∧
      tinyLiteral.nodes.map Node.literalBits = [[some 0x39b4484bfeebc2a0]] ∧
      after.nodes.map Node.literalBits = [[some 0x39b4484bfeebc29f]] := by
  have finite : ∀ node ∈ tinyLiteral.nodes, node.finite = true := by decide +kernel
  have chosen : tinyLiteral.copied [0] [] = [0] := by decide +kernel
  have supplies : Graph.Supplies tinyLiteral Graph.empty [0] [] [] [] := by
    constructor
    · intro index inside node found guid subject
      rw [chosen] at inside
      cases List.mem_singleton.mp inside
      cases found
      cases subject
    · intro index inside node found function call
      rw [chosen] at inside
      cases List.mem_singleton.mp inside
      cases found
      cases call
  obtain ⟨text, copied, read⟩ := tinyLiteral.copy_read [0] [] (by decide +kernel) finite
    (Graph.clipboard_survives _ (by decide +kernel))
  obtain ⟨after, pasted, _, nodes⟩ := paste_joins tinyLiteral Graph.empty [0] [] [] [] Node.origin _ _ read supplies
  refine ⟨finite, text, after, copied, pasted, by decide +kernel, ?_⟩
  rw [nodes]
  decide +kernel

end Patchbay
