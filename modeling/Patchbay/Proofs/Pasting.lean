import Patchbay.Proofs.Integrity
import Patchbay.Proofs.Transplant

set_option autoImplicit false

namespace Patchbay

variable {graph : Graph}

theorem placed_feeds {pin : InputPin} {source : PinSource} (feeds : Feeds graph.nodes pin source) :
    (slotOf? graph.placed source).isSome = true := by
  obtain ⟨node, output, found, first, _⟩ := feeds
  have inside := (List.getElem?_eq_some_iff.mp first).1
  rw [slotOf?, placed_get, found, Option.map_some]
  dsimp only
  rw [if_pos inside]
  rfl

theorem placed_admits {target : ExecTarget} (admits : Admits graph.nodes target) :
    Enters (graph.placed.map Node.layout) target := by
  obtain ⟨node, found, inside⟩ := admits
  rw [Enters, List.getElem?_map, placed_get, found]
  exact ⟨_, rfl, inside⟩

theorem linked_compiles (linked : Linked graph.nodes) : graph.compile = (.ok (), graph.linked) := by
  refine (compile_ok_iff graph graph.linked).mpr ⟨fun node inside => ?_, rfl⟩
  obtain ⟨index, found⟩ := List.mem_iff_getElem?.mp inside
  rw [placed_get] at found
  obtain ⟨old, there, rfl⟩ := Option.map_eq_some_iff.mp found
  obtain ⟨sources, targets⟩ := linked old (List.mem_of_getElem? there)
  refine ⟨fun pin member connected => ?_, fun pin member target connected => ?_⟩
  · obtain ⟨source, fed⟩ := Option.isSome_iff_exists.mp connected
    rw [fed, Option.bind_some]
    exact placed_feeds (sources pin member source fed)
  · exact placed_admits (targets pin member target connected)

theorem renumbering_behind {base : Nat} {indices : List Nat} {index place : Nat}
    (renamed : renumbering base indices index = some place) : base ≤ place := by
  obtain ⟨position, _, rfl⟩ := Option.map_eq_some_iff.mp renamed
  exact Nat.le_add_right base position

/-- What a node that was pasted behind `start` nodes is connected with and refers to. -/
structure Node.SettledIn (start : Nat) (nodes : List Node) (locals globals : List Variable) (functions : List Guid)
    (node : Node) : Prop where
  sources : ∀ pin ∈ node.inputs, ∀ source, pin.source = some source → start ≤ source.node ∧ Feeds nodes pin source
  targets : ∀ pin ∈ node.execOut, ∀ target, pin.target = some target → start ≤ target.node ∧ Admits nodes target
  named : ∀ reference, node.kind.reference? = some reference →
    (∃ guid, reference = .live guid) ∧ reference.resolve? locals globals ≠ none
  called : ∀ function, node.kind = .callFunction function → function ∈ functions

theorem rewired_behind (base : Nat) (indices : List Nat) (nodes : List Node) (node : Node) :
    let pasted := (node.rewire (renumbering base indices)).prune nodes
    (∀ pin ∈ pasted.inputs, ∀ source, pin.source = some source → base ≤ source.node) ∧
      ∀ pin ∈ pasted.execOut, ∀ target, pin.target = some target → base ≤ target.node := by
  -- Connections of a pasted node come from the renumbering, and it numbers pasted nodes only.
  refine ⟨fun pin inside source connected => ?_, fun pin inside target connected => ?_⟩
  · obtain ⟨old, there, rfl⟩ := List.mem_map.mp inside
    obtain ⟨rewired, before, rfl⟩ := List.mem_map.mp there
    obtain ⟨original, _, rfl⟩ := List.mem_map.mp before
    have kept := ((input_pruned nodes _ source).mp connected).1
    obtain ⟨index, _, renamed⟩ := (source_moved _ original.source source.node source.parameter).mp kept
    exact renumbering_behind renamed
  · obtain ⟨old, there, rfl⟩ := List.mem_map.mp inside
    obtain ⟨original, _, rfl⟩ := List.mem_map.mp there
    have kept := ((exec_pruned nodes _ target).mp connected).1
    obtain ⟨index, _, renamed⟩ := (target_moved _ original.target target.node target.pin).mp kept
    exact renumbering_behind renamed

theorem kept_nodes (convert : Node → Option Node) (pairs : List (Nat × Node)) :
    (keepResolved convert pairs).map (·.2) = (pairs.map (·.2)).filterMap convert := by
  rw [keepResolved, List.map_filterMap, List.filterMap_map]
  refine List.filterMap_congr fun pair _ => ?_
  rw [Option.map_map]
  exact Option.map_id'

theorem adopted_settle (globals : List Variable) (functions : List Guid) (offset : Position)
    (linked : Linked graph.nodes) (pairs : List (Nat × Node)) :
    let kept := keepResolved (Graph.adoptNode? globals functions graph.locals) pairs
    let after := graph.adoptNodes kept offset
    ∃ added, added.map (·.name) = kept.map (·.2.name) ∧ after.nodes = graph.nodes ++ added ∧
      ∀ node ∈ added, node.SettledIn graph.nodes.length after.nodes graph.locals globals functions := by
  intro kept after
  let place (entry : Nat × Node) : Node :=
    let node := entry.2.rewire (renumbering graph.nodes.length (kept.map (·.1)))
    { node with position := node.position.shift offset }
  have mended : Linked after.nodes := prune_mends _
  have nodes : after.nodes = graph.nodes ++ (kept.map place).map (·.prune (graph.nodes ++ kept.map place)) := by
    rw [← linked_joined _ linked]
    refine (prune_nodes _).trans ?_
    rw [add_all_nodes]
  refine ⟨_, by rw [List.map_map, List.map_map]; rfl, nodes, fun node inside => ?_⟩
  obtain ⟨sources, targets⟩ := mended node (by rw [nodes]; exact List.mem_append_right _ inside)
  obtain ⟨placed, there, rfl⟩ := List.mem_map.mp inside
  obtain ⟨entry, chosen, rfl⟩ := List.mem_map.mp there
  obtain ⟨pair, _, made⟩ := List.mem_filterMap.mp chosen
  obtain ⟨other, adopted, rfl⟩ := Option.map_eq_some_iff.mp made
  obtain ⟨behind, ahead⟩ := rewired_behind graph.nodes.length (kept.map (·.1)) (graph.nodes ++ kept.map place) other
  obtain ⟨named, called⟩ := Script.adopted_refers adopted
  refine ⟨fun pin member source connected => ⟨behind pin member source connected, sources pin member source connected⟩,
    fun pin member target connected => ⟨ahead pin member target connected, targets pin member target connected⟩,
    fun reference names => ?_, called⟩
  obtain ⟨guid, known, rfl⟩ := named reference names
  exact ⟨⟨guid, rfl⟩, Reference.live_resolves graph.locals globals guid known⟩

/-- Whatever the text, a paste is refused and leaves the graph as it was, or it leaves the nodes that were there and adds
those that can be adopted, connected with each other only. The graph compiles in either case. -/
theorem pasting_is_safe (globals : List Variable) (functions : List Guid) (text : String) (offset : Position) (graph : Graph)
    (linked : Linked graph.nodes) :
    let answer := (Edit.pasteNodes globals functions text offset graph).1
    let after := (Edit.pasteNodes globals functions text offset graph).2
    (Graph.clipboardNodes? Document.parse? text = none ∧ answer = .error .serialization ∧ after = graph ∨
      ∃ nodes added, Graph.clipboardNodes? Document.parse? text = some nodes ∧
        answer = .ok ((List.range added.length).map (graph.nodes.length + ·)) ∧ after.nodes = graph.nodes ++ added ∧
        after.locals = graph.locals ∧
        added.map (·.name) = (nodes.filterMap (Graph.adoptNode? globals functions graph.locals)).map (·.name) ∧
        ∀ node ∈ added, node.SettledIn graph.nodes.length after.nodes graph.locals globals functions) ∧
    after.compile.1 = .ok () := by
  intro answer after
  cases read : Graph.clipboardNodes? Document.parse? text with
  | none =>
    have refused : Edit.pasteNodes globals functions text offset graph = (.error .serialization, graph) := by
      rw [Edit.pasteNodes, Edit.pasteNodesWith, read]
    have kept : after = graph := congrArg Prod.snd refused
    refine ⟨.inl ⟨rfl, congrArg Prod.fst refused, kept⟩, ?_⟩
    rw [kept, linked_compiles linked]
  | some nodes =>
    obtain ⟨added, names, joined, settled⟩ := adopted_settle globals functions offset linked
      ((List.range nodes.length).zip nodes)
    have count := congrArg List.length names
    rw [List.length_map, List.length_map] at count
    have pasted : Edit.pasteNodes globals functions text offset graph = _ :=
      Edit.pasteNodesWith.eq_def Document.parse? globals functions text offset graph
    rw [read] at pasted
    have adopted : after = graph.adoptNodes _ offset := congrArg Prod.snd pasted
    refine ⟨.inr ⟨nodes, added, rfl, by rw [count]; exact congrArg Prod.fst pasted, ?_⟩, ?_⟩
    · rw [adopted]
      refine ⟨joined, adopted_locals _ offset graph, ?_, settled⟩
      have kept := kept_nodes (Graph.adoptNode? globals functions graph.locals) ((List.range nodes.length).zip nodes)
      rw [List.map_snd_zip (by simp)] at kept
      rw [names, ← kept, List.map_map]
      rfl
    · rw [adopted]
      exact congrArg Prod.fst (linked_compiles (prune_mends _))

/-- Nodes that no copy holds: the entry of a function, a branch that reads past the end and goes on at a pin that is not
there, a setter that takes a number for an array and goes on at the branch behind it, a getter whose variable is unknown, and
a branch that reads the getter. -/
def forgery : List Node :=
  let fed (source : PinSource) (node : Node) : Node :=
    { node with inputs := node.inputs.map fun pin => { pin with source := some source } }
  let led (target : ExecTarget) (node : Node) : Node :=
    { node with execOut := node.execOut.map fun pin => { pin with target := some target } }
  [Node.functionEntry [⟨"count", .int⟩], led ⟨0, 3⟩ (fed ⟨40, 7⟩ Node.branch),
    led ⟨4, 0⟩ (fed ⟨0, 0⟩ { Node.setVariable gauge with kind := .setVariable (.indexed false 0) }),
    { Node.getVariable gauge with kind := .getVariable (.byGuid ⟨9⟩) }, fed ⟨3, 0⟩ Node.branch]

theorem forgery_storable : ∀ node ∈ forgery, node.Storable := by
  have representable : ∀ node ∈ forgery, node.Representable := by decide +kernel
  have named : ∀ node ∈ forgery, ∀ reference ∈ node.kind.reference?, reference = .indexed false 0 ∨ reference = .byGuid ⟨9⟩ := by
    decide +kernel
  intro node inside
  refine ⟨representable node inside, fun reference names => ?_⟩
  obtain rfl | rfl := named node inside reference names
  · exact .inl ⟨false, 0, rfl, by decide⟩
  · exact .inr ⟨⟨9⟩, rfl⟩

def Node.ends (node : Node) : List (Option PinSource) × List (Option ExecTarget) :=
  (node.inputs.map (·.source), node.execOut.map (·.target))

/-- Of all its connections only the way from the setter to the last branch is left. -/
theorem forgery_settles : Linked shelf.nodes ∧ ∃ text,
    let after := (Edit.pasteNodes [gauge] [] text Node.origin shelf).2
    (Edit.pasteNodes [gauge] [] text Node.origin shelf).1 = .ok [2, 3, 4, 5] ∧ after.compile.1 = .ok () ∧
    ∃ added, after.nodes = shelf.nodes ++ added ∧
      added.map Node.ends = [([], [none]), ([none], [none, none]), ([none], [some ⟨5, 0⟩]), ([none], [none, none])] ∧
      ∀ node ∈ added, node.SettledIn 2 after.nodes [] [gauge] [] := by
  obtain ⟨document, _, read⟩ := Graph.clipboard_read forgery forgery_storable (by decide +kernel)
    (Graph.clipboard_survives forgery (by decide +kernel))
  have linked : Linked shelf.nodes := by decide +kernel
  obtain ⟨outcome, compiles⟩ := pasting_is_safe [gauge] [] document.compact Node.origin shelf linked
  have pasted : Edit.pasteNodes [gauge] [] document.compact Node.origin shelf = _ :=
    Edit.pasteNodesWith.eq_def Document.parse? [gauge] [] document.compact Node.origin shelf
  rw [read] at pasted
  refine ⟨linked, _, (congrArg Prod.fst pasted).trans ?_, compiles, ?_⟩
  · decide +kernel
  · obtain ⟨refused, _⟩ | ⟨_, added, _, _, joined, _, _, settled⟩ := outcome
    · cases read.symm.trans refused
    · refine ⟨added, joined, ?_, settled⟩
      have behind : added = (Edit.pasteNodes [gauge] [] document.compact Node.origin shelf).2.nodes.drop 2 := by
        rw [joined]
        rfl
      rw [behind, pasted]
      decide +kernel

end Patchbay
