import Patchbay.Proofs.Saving
import Patchbay.Proofs.Transplant

set_option autoImplicit false

namespace Patchbay

/-- Where an item stands once others are dropped. A dropped item stands nowhere, and an index past the end stays as far past
it. -/
def survivor? {α : Type} (drop : α → Bool) (items : List α) (index : Nat) : Option Nat :=
  if (items[index]?).any drop then none else some (index - (items.take index).countP drop)

def shiftAll? (removed : List Nat) (index : Nat) : Option Nat :=
  removed.foldlM (fun index removed => shiftIndex? removed index) index

namespace Node

theorem renumber_own (node : Node) : node.renumber some = node := by
  have inputs (pin : InputPin) : ({ pin with source := pin.source.bind (·.renumber? some) } : InputPin) = pin := by
    cases pin with
    | mk name type literal source => cases source <;> rfl
  have outs (pin : ExecPin) : ({ pin with target := pin.target.bind (·.renumber? some) } : ExecPin) = pin := by
    cases pin with
    | mk name target case => cases target <;> rfl
  simp [renumber, inputs, outs]

theorem renumber_twice (first second rename : Nat → Option Nat) (through : ∀ index, (first index).bind second = rename index)
    (node : Node) : (node.renumber first).renumber second = node.renumber rename := by
  simp only [renumber, List.map_map, Function.comp_def, source_twice first second rename through,
    target_twice first second rename through]

end Node

variable {α : Type} {items : List α} {index : Nat} {item : α}

theorem erase_indices_map {β : Type} (change : α → β) (indices : List Nat) (items : List α) :
    indices.foldl (fun items index => items.eraseIdx index) (items.map change) =
      (indices.foldl (fun items index => items.eraseIdx index) items).map change := by
  induction indices generalizing items with
  | nil => rfl
  | cons index rest ih => rw [List.foldl_cons, List.foldl_cons, List.eraseIdx_map, ih]

theorem erase_all_nodes (indices : List Nat) (graph : Graph) : (graph.eraseAll indices).nodes =
    (indices.foldl (fun nodes index => nodes.eraseIdx index) graph.nodes).map (Node.renumber (shiftAll? indices)) := by
  -- Erasures that follow each other renumber the nodes that are left only once.
  induction indices generalizing graph with
  | nil => exact ((List.map_congr_left fun node _ => node.renumber_own).trans (List.map_id _)).symm
  | cons index rest ih =>
    have later := ih (graph.eraseNode index)
    simp only [Graph.eraseNode, Graph.uncompile] at later
    rw [erase_indices_map, List.map_map] at later
    refine later.trans (List.map_congr_left fun node _ => ?_)
    refine node.renumber_twice _ _ _ fun place => ?_
    rw [shiftAll?, List.foldlM_cons]
    rfl

variable (drop : α → Bool)

theorem survivor_before (behind : List α) (inside : index < items.length) :
    survivor? drop (items ++ behind) index = survivor? drop items index := by
  rw [survivor?, survivor?, List.getElem?_append_left inside, List.take_append_of_le_length (Nat.le_of_lt inside)]

theorem survivor_beyond (items : List α) (index : Nat) (outside : items.length ≤ index) :
    survivor? drop items index = some (index - items.countP drop) := by
  rw [survivor?, List.getElem?_eq_none outside, List.take_of_length_le outside]
  rfl

theorem survivor_found (found : items[index]? = some item) : survivor? drop items index =
      if drop item then none else some ((items.take index).countP fun other => !drop other) := by
  have inside := (List.getElem?_eq_some_iff.mp found).1
  have sum := List.length_eq_countP_add_countP drop (l := items.take index)
  rw [List.length_take_of_le (Nat.le_of_lt inside)] at sum
  have left : index - (items.take index).countP drop = (items.take index).countP fun other => !drop other := by
    simp only [Bool.not_eq_true, ← Bool.not_eq_true'] at sum
    simp at sum
    omega
  rw [survivor?, found, Option.any_some, left]

theorem survivor_filtered (keep : α → Bool) (found : items[index]? = some item) (kept : keep item = true) :
    (items.filter keep)[(items.take index).countP keep]? = some item := by
  obtain ⟨inside, rfl⟩ := List.getElem?_eq_some_iff.mp found
  have parts : items.filter keep = (items.take index).filter keep ++ items[index] :: (items.drop (index + 1)).filter keep := by
    conv => lhs; rw [← List.take_append_drop index items, List.drop_eq_getElem_cons inside]
    rw [List.filter_append, List.filter_cons, if_pos kept]
  rw [parts, List.countP_eq_length_filter, List.getElem?_append_right (Nat.le_refl _), Nat.sub_self]
  rfl

theorem dropped_count (items : List α) :
    ((List.range items.length).filter fun index => (items[index]?).any drop).length = items.countP drop := by
  induction items using List.reverseRecOn with
  | nil => rfl
  | append_singleton rest last ih =>
    rw [Graph.dropped_indices, List.length_append, ih, List.countP_append]
    by_cases dropped : drop last = true <;> simp [dropped]

/-- To erase the dropped items from the last one on moves the others to where they stand among themselves. -/
theorem shift_last_first (items : List α) (index : Nat) :
    shiftAll? ((List.range items.length).filter fun index => (items[index]?).any drop).reverse index =
      survivor? drop items index := by
  induction items using List.reverseRecOn generalizing index with
  | nil => exact (survivor_beyond drop [] index (Nat.zero_le _)).symm
  | append_singleton rest last ih =>
    have here : (rest ++ [last])[rest.length]? = some last := List.getElem?_concat_length
    have long : (rest ++ [last]).length = rest.length + 1 := List.length_append
    rw [Graph.dropped_indices, List.reverse_append]
    by_cases dropped : drop last = true
    · -- The last item is the first to go, and what stood behind it moves by one.
      have first (place : Nat) : shiftAll? (rest.length ::
          ((List.range rest.length).filter fun index => (rest[index]?).any drop).reverse) place =
            (shiftIndex? rest.length place).bind (survivor? drop rest) := by
        rw [← funext ih, shiftAll?, List.foldlM_cons]
        rfl
      rw [if_pos dropped, List.reverse_singleton, List.singleton_append, first, shiftIndex?]
      obtain less | rfl | more := Nat.lt_trichotomy index rest.length
      · rw [if_neg (Nat.ne_of_lt less), if_neg (Nat.lt_asymm less), survivor_before drop [last] less]
        rfl
      · rw [if_pos rfl, survivor_found drop here, if_pos dropped]
        rfl
      · rw [if_neg (Nat.ne_of_gt more), if_pos more, Option.bind_some, survivor_beyond drop rest _ (by omega),
          survivor_beyond drop _ index (by omega), List.countP_append]
        simp [dropped]
        omega
    · rw [if_neg dropped, List.reverse_nil, List.nil_append, ih]
      obtain less | rfl | more := Nat.lt_trichotomy index rest.length
      · rw [survivor_before drop [last] less]
      · rw [survivor_beyond drop rest _ (Nat.le_refl _), survivor?, here]
        simp [dropped]
      · rw [survivor_beyond drop rest index (Nat.le_of_lt more), survivor_beyond drop _ index (by omega), List.countP_append]
        simp [dropped]

/-- What is left of a node where others are dropped. Its connections lead to where their ends stand now, and but for the form
in which its variable is named the rest of it is as it was. -/
structure Node.LeftAs (locals globals : List Variable) (form : ReferenceForm) (place : Nat → Option Nat) (node left : Node) :
    Prop where
  plain : node.kind.reference? = none → left.kind = node.kind
  named : ∀ reference, node.kind.reference? = some reference →
    ∃ converted, reference.convert? locals globals form = some converted ∧ left.kind = node.kind.withReference converted
  inputs : left.inputs = node.inputs.map fun pin =>
    { pin with source := pin.source.bind fun source => (place source.node).map (⟨·, source.parameter⟩) }
  execOut : left.execOut = node.execOut.map fun pin =>
    { pin with target := pin.target.bind fun target => (place target.node).map (⟨·, target.pin⟩) }
  rest : { left with kind := node.kind, inputs := node.inputs, execOut := node.execOut } = node

theorem Node.left_as {locals globals : List Variable} {functions : List Guid} (form : ReferenceForm) (place : Nat → Option Nat)
    (node : Node) (fresh : node.kind.stale locals globals functions = false) :
    node.LeftAs locals globals form place ((node.convertedTo locals globals functions form).renumber place) := by
  cases named : node.kind.reference? with
  | none =>
    rw [node.plain_converted locals globals functions form named]
    exact ⟨fun _ => rfl, fun _ other => (by cases named.symm.trans other), rfl, rfl, rfl⟩
  | some reference =>
    obtain ⟨converted, made⟩ : ∃ converted, reference.convert? locals globals form = some converted := by
      obtain ⟨other, made⟩ := node.fresh_converts locals globals functions form fresh
      rw [convertReference?, named] at made
      obtain ⟨converted, made, _⟩ := Option.map_eq_some_iff.mp made
      exact ⟨converted, made⟩
    rw [node.named_converted locals globals functions form named, made]
    refine ⟨fun plain => (by cases named.symm.trans plain), fun other same => ?_, rfl, rfl, rfl⟩
    cases named.symm.trans same
    exact ⟨converted, made, rfl⟩

namespace Graph

variable (globals : List Variable) (functions : List Guid) (form : ReferenceForm)

theorem convert_survivors (graph : Graph) : (graph.convertReferences globals functions form).1.nodes =
    (graph.nodes.filter fun node => !node.kind.stale graph.locals globals functions).map fun node =>
      (node.convertedTo graph.locals globals functions form).renumber
        (survivor? (fun node => node.kind.stale graph.locals globals functions) graph.nodes) := by
  have nodes := erase_all_nodes (graph.staleLast globals functions) graph
  rw [staleLast, erase_last_first, ← staleLast] at nodes
  rw [convert_erases]
  refine (congrArg (List.map _) nodes).trans ?_
  rw [List.map_map]
  refine List.map_congr_left fun node _ => ?_
  rw [Function.comp_apply, node.renumber_converted, staleLast, funext (shift_last_first _ graph.nodes)]

theorem stale_count (graph : Graph) : (graph.convertReferences globals functions form).2 =
    graph.nodes.countP fun node => node.kind.stale graph.locals globals functions := by
  have counted : (graph.staleNodes globals functions form).length = (graph.staleLast globals functions).length := by
    rw [← graph.stale_last globals functions form, List.length_reverse]
  exact counted.trans (List.length_reverse.trans (dropped_count _ graph.nodes))

end Graph

/-- A conversion counts the stale nodes and leaves the others in their order. What they were connected with is still
connected, what led to a stale node leads nowhere, and what led past the end still does. -/
theorem stale_nodes_dropped (globals : List Variable) (functions : List Guid) (form : ReferenceForm) (graph : Graph) :
    let stale (node : Node) : Bool := node.kind.stale graph.locals globals functions
    let before (index : Nat) : Nat := (graph.nodes.take index).countP fun node => !stale node
    let after := (graph.convertReferences globals functions form).1
    let place := survivor? stale graph.nodes
    (graph.convertReferences globals functions form).2 = graph.nodes.countP stale ∧
    after.nodes.length + graph.nodes.countP stale = graph.nodes.length ∧
    List.Forall₂ (Node.LeftAs graph.locals globals form place) (graph.nodes.filter fun node => !stale node) after.nodes ∧
    (∀ index node, graph.nodes[index]? = some node → stale node = true → place index = none) ∧
    (∀ index node, graph.nodes[index]? = some node → stale node = false → place index = some (before index) ∧
      ∃ left, after.nodes[before index]? = some left ∧ node.LeftAs graph.locals globals form place left) ∧
    (∀ index, graph.nodes.length ≤ index → ∃ far, place index = some far ∧ after.nodes[far]? = none) ∧
    after.locals = graph.locals := by
  intro stale before after place
  have nodes : after.nodes = _ := graph.convert_survivors globals functions form
  have length : after.nodes.length + graph.nodes.countP stale = graph.nodes.length := by
    rw [nodes, List.length_map, ← List.countP_eq_length_filter, Nat.add_comm]
    refine Eq.trans ?_ (List.length_eq_countP_add_countP stale).symm
    simp only [Bool.not_eq_true, Bool.decide_eq_false, stale]
  have each (node : Node) (fresh : stale node = false) := node.left_as form place fresh
  refine ⟨graph.stale_count globals functions form, length, ?_, ?_, ?_, ?_, graph.convert_locals globals functions form⟩
  · rw [nodes]
    refine List.forall₂_map_right_iff.mpr (List.forall₂_same.mpr fun node inside => ?_)
    exact each node (by simpa using (List.mem_filter.mp inside).2)
  · intro index node found gone
    rw [show place index = _ from survivor_found stale found, if_pos gone]
  · intro index node found fresh
    have kept := survivor_filtered (fun node => !stale node) found (by rw [fresh]; rfl)
    refine ⟨?_, _, ?_, each node fresh⟩
    · rw [show place index = _ from survivor_found stale found, if_neg (ne_true_of_eq_false fresh)]
    · rw [nodes, List.getElem?_map]
      exact congrArg (Option.map _) kept
  · intro index outside
    refine ⟨_, survivor_beyond stale graph.nodes index outside, List.getElem?_eq_none ?_⟩
    omega

/-- The event leads to a branch. It reads a variable that is gone, and leads to a call of a function that is gone or to a
sequence, which leads back to the event and past the end. -/
def wreckage : Graph :=
  let leads (name : String) (node : Nat) : ExecPin := ⟨name, some ⟨node, 0⟩, none⟩
  let condition : InputPin := { InputPin.fresh "Condition" .bool with source := some ⟨1, 0⟩ }
  { Graph.empty with
    nodes := [{ Node.receiveEvent "tick" none [] with execOut := [leads "Execute" 2] },
      Node.getVariable ⟨⟨7⟩, "gone", .bool, .bool true⟩,
      { Node.branch with inputs := [condition], execOut := [leads "True" 3, leads "False" 4] },
      Node.callFunction ⟨8⟩ "Gone" [] [],
      { Node.sequence 2 with execOut := [leads "Then 0" 0, leads "Then 1" 9] }] }

theorem wreckage_cleared :
    let after := (wreckage.convertReferences [] [] .live).1
    (wreckage.convertReferences [] [] .live).2 = 2 ∧
    ∃ branch sequence, after.nodes[1]? = some branch ∧ after.nodes[2]? = some sequence ∧
      branch.inputs.map (·.source) = [none] ∧ branch.execOut.map (·.target) = [none, some ⟨2, 0⟩] ∧
      sequence.execOut.map (·.target) = [some ⟨0, 0⟩, some ⟨7, 0⟩] := by
  intro after
  obtain ⟨count, _, _, _, kept, _⟩ := stale_nodes_dropped [] [] .live wreckage
  obtain ⟨_, branch, there, asBranch⟩ := kept 2 _ rfl (by decide +kernel)
  obtain ⟨_, sequence, behind, asSequence⟩ := kept 4 _ rfl (by decide +kernel)
  refine ⟨count.trans (by decide +kernel), branch, sequence, there, behind, ?_, ?_, ?_⟩
  · rw [asBranch.inputs]
    decide +kernel
  · rw [asBranch.execOut]
    decide +kernel
  · rw [asSequence.execOut]
    decide +kernel

end Patchbay
