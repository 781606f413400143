import Patchbay.Proofs.Editing
import Patchbay.Proofs.Survivors

set_option autoImplicit false

namespace Patchbay

/-- A view of nodes that is the same however they are connected, as long as the pins keep their names and types. -/
structure Aloof {β : Type} (view : Node → β) : Prop where
  pruned : ∀ nodes node, view (Node.prune nodes node) = view node
  linked : ∀ (node : Node) (input : Nat) (change : InputPin → InputPin) (type : Option PinType),
    (∀ pin, (change pin).name = pin.name ∧ (change pin).type = pin.type) →
    view ({ node with inputs := node.inputs.modify input change }.connectionChanged input type).1 = view node
  aimed : ∀ (node : Node) (output : Nat) (change : ExecPin → ExecPin),
    view { node with execOut := node.execOut.modify output change } = view node

namespace Aloof

variable {β : Type} {view : Node → β} (aloof : Aloof view) (graph : Graph)

include aloof

theorem prune : graph.prune.1.nodes.map view = graph.nodes.map view := by
  rw [prune_nodes, List.map_map]
  exact List.map_congr_left fun node _ => aloof.pruned graph.nodes node

theorem settle (actions : List NodeAction) : (graph.settle actions).nodes.map view = graph.nodes.map view := by
  by_cases reshaped : actions.any (·.reshapes) = true
  · rw [Graph.settle, if_pos reshaped, aloof.prune]
  · rw [Graph.settle, if_neg reshaped]

theorem replace {index : Nat} {node : Node} {change : Node × List NodeAction} (found : graph.nodes[index]? = some node)
    (same : view change.1 = view node) : (graph.replaceNode index change).nodes.map view = graph.nodes.map view :=
  (aloof.settle _ change.2).trans (modify_view_found view (fun _ => change.1) found same)

theorem connect (source output target input : Nat) :
    (Edit.connect source output target input graph).2.nodes.map view = graph.nodes.map view := by
  apply after_keeps (fun after => after.nodes.map view = graph.nodes.map view) rfl
  rintro ⟨type, node⟩ checked
  obtain ⟨_, found, _⟩ := connection_checked checked
  exact aloof.replace graph found (aloof.linked node input _ (some type) fun _ => ⟨rfl, rfl⟩)

theorem disconnect (target input : Nat) :
    (Edit.disconnect target input graph).2.nodes.map view = graph.nodes.map view := by
  apply after_keeps (fun after => after.nodes.map view = graph.nodes.map view) rfl
  rintro ⟨node, pin⟩ there
  obtain ⟨found, _⟩ := pin_at_found there
  dsimp only
  by_cases free : pin.source.isNone = true
  · rw [if_pos free]
  · rw [if_neg free]
    exact aloof.replace graph found (aloof.linked node input _ none fun _ => ⟨rfl, rfl⟩)

theorem set_target (source output : Nat) (target : Option ExecTarget) :
    (Edit.setTarget source output target graph).2.nodes.map view = graph.nodes.map view := by
  apply after_keeps (fun after => after.nodes.map view = graph.nodes.map view) rfl
  rintro ⟨node, pin⟩ there
  obtain ⟨found, _⟩ := pin_at_found there
  exact modify_view_found view _ found (aloof.aimed node output _)

theorem connect_exec (source output target input : Nat) :
    (Edit.connectExec source output target input graph).2.nodes.map view = graph.nodes.map view :=
  after_keeps (fun after => after.nodes.map view = graph.nodes.map view) rfl
    fun _ _ => aloof.set_target graph source output _

theorem set_case (index output : Nat) (value : Value) :
    (Edit.setCase index output value graph).2.nodes.map view = graph.nodes.map view := by
  apply after_keeps (fun after => after.nodes.map view = graph.nodes.map view) rfl
  rintro ⟨node, pin⟩ there
  obtain ⟨found, _⟩ := pin_at_found there
  dsimp only
  split
  · rfl
  · exact modify_view_found view _ found (aloof.aimed node output _)

theorem set_literal (followed : ∀ (node : Node) (inputs : List InputPin) (input : Nat),
      view ({ node with inputs := inputs }.literalChanged input).1 = view node) (index input : Nat) (literal : Value) :
    (Edit.setLiteral index input literal graph).2.nodes.map view = graph.nodes.map view := by
  apply after_keeps (fun after => after.nodes.map view = graph.nodes.map view) rfl
  rintro ⟨node, pin⟩ there
  obtain ⟨found, _⟩ := pin_at_found there
  have next := aloof.replace graph found (followed node
    (node.inputs.modify input fun pin => { pin with literal := literal }) input)
  dsimp only
  split <;> exact next

end Aloof

def Node.fixture? (node : Node) : Option NodeKind := if node.kind.isStructural then some node.kind else none

variable (node : Node)

theorem Node.fixture_congr {changed : Node} (same : changed.kind = node.kind) : changed.fixture? = node.fixture? := by
  rw [fixture?, fixture?, same]

theorem Node.fixture_loose : node.fixture? = none ↔ node.kind.isStructural = false := by
  by_cases structural : node.kind.isStructural = true
  · rw [fixture?, if_pos structural, structural]
    simp
  · rw [fixture?, if_neg structural, Bool.eq_false_iff]
    exact ⟨fun _ => structural, fun _ => rfl⟩

theorem Node.fixture_kind {kind : NodeKind} (framed : node.fixture? = some kind) : node.kind = kind := by
  by_cases structural : node.kind.isStructural = true
  · rw [fixture?, if_pos structural] at framed
    exact Option.some.inj framed
  · rw [fixture?, if_neg structural] at framed
    cases framed

variable {α β : Type} {front : List β}

theorem front_filtered (view : α → Option β) (keep : α → Bool)
    (loose : ∀ item, keep item = false → view item = none) (items : List α)
    (begins : front.map some <+: items.map view) : front.map some <+: (items.filter keep).map view := by
  induction front generalizing items with
  | nil => exact List.nil_prefix
  | cons first front ih =>
    cases items with
    | nil => simp at begins
    | cons item items =>
      rw [List.map_cons, List.map_cons, List.cons_prefix_cons] at begins
      obtain ⟨shown, begins⟩ := begins
      have kept : keep item = true := by
        by_contra dropped
        rw [loose item (Bool.eq_false_iff.mpr dropped)] at shown
        cases shown
      rw [List.filter_cons_of_pos kept, List.map_cons, List.map_cons, List.cons_prefix_cons]
      exact ⟨shown, ih items begins⟩

theorem front_erased (view : α → Option β) (items : List α) (index : Nat) {item : α}
    (found : items[index]? = some item) (loose : view item = none) (begins : front.map some <+: items.map view) :
    front.map some <+: (items.eraseIdx index).map view := by
  induction front generalizing items index with
  | nil => exact List.nil_prefix
  | cons first front ih =>
    cases items with
    | nil => cases found
    | cons head items =>
      rw [List.map_cons, List.map_cons, List.cons_prefix_cons] at begins
      obtain ⟨shown, begins⟩ := begins
      cases index with
      | zero =>
        cases found
        rw [loose] at shown
        cases shown
      | succ index =>
        rw [List.eraseIdx_cons_succ, List.map_cons, List.map_cons, List.cons_prefix_cons]
        exact ⟨shown, ih items index found begins⟩

namespace Graph

def fixtures (graph : Graph) : List (Option NodeKind) := graph.nodes.map (·.fixture?)

def BeginsWith (kinds : List NodeKind) (graph : Graph) : Prop := kinds.map some <+: graph.fixtures

theorem fixtures_of_kinds (graph : Graph) : graph.fixtures =
    (graph.nodes.map (·.kind)).map fun kind => if kind.isStructural then some kind else none := by
  rw [List.map_map]
  rfl

variable (kinds : List NodeKind)

variable {graph after : Graph}

theorem begins_congr (same : after.fixtures = graph.fixtures) (begins : graph.BeginsWith kinds) :
    after.BeginsWith kinds := by
  rwa [BeginsWith, same]

theorem begins_append {more : List (Option NodeKind)} (joined : after.fixtures = graph.fixtures ++ more)
    (begins : graph.BeginsWith kinds) : after.BeginsWith kinds := by
  rw [BeginsWith, joined]
  exact begins.trans (List.prefix_append _ _)

theorem begins_found (graph : Graph) (begins : graph.BeginsWith kinds) (index : Nat) {kind : NodeKind}
    (wanted : kinds[index]? = some kind) : ∃ node, graph.nodes[index]? = some node ∧ node.kind = kind := by
  obtain ⟨rest, joined⟩ := begins
  have inside := (List.getElem?_eq_some_iff.mp wanted).1
  have shown : graph.fixtures[index]? = some (some kind) := by
    rw [← joined, List.getElem?_append_left (by rwa [List.length_map]), List.getElem?_map, wanted, Option.map_some]
  rw [fixtures, List.getElem?_map] at shown
  obtain ⟨node, found, framed⟩ := Option.map_eq_some_iff.mp shown
  exact ⟨node, found, node.fixture_kind framed⟩

theorem begins_iff (structural : ∀ kind ∈ kinds, kind.isStructural = true) (graph : Graph) :
    graph.BeginsWith kinds ↔ kinds <+: graph.nodes.map (·.kind) := by
  constructor
  · intro begins
    refine List.prefix_iff_getElem?.mpr fun index inside => ?_
    obtain ⟨node, found, kind⟩ := graph.begins_found kinds begins index (List.getElem?_eq_getElem inside)
    rw [List.getElem?_map, found, Option.map_some, kind]
  · rintro ⟨rest, joined⟩
    rw [BeginsWith, fixtures_of_kinds, ← joined, List.map_append]
    refine ⟨_, congrArg (· ++ _) (List.map_congr_left fun kind inside => ?_)⟩
    rw [if_pos (structural kind inside)]

theorem modify_fixtures (index : Nat) (node : Node) (change : Node → Node) (found : graph.nodes[index]? = some node)
    (same : (change node).fixture? = node.fixture?) : (graph.modifyNode index change).fixtures = graph.fixtures :=
  modify_view_found Node.fixture? change found same

end Graph

theorem connection_changed_fixture (input : Nat) (type : Option PinType) (node : Node) :
    (node.connectionChanged input type).1.fixture? = node.fixture? := by
  refine node.fixture_congr ?_
  by_cases value : node.kind = .switch ∧ input = switchValuePin
  · rw [Node.connectionChanged, if_pos value]
    unfold Node.retypeSwitch
    split
    · rfl
    · split <;> rfl
  · rw [Node.connectionChanged, if_neg value]

theorem fixture_aloof : Aloof Node.fixture? where
  pruned _ _ := rfl
  linked _ input _ type _ := connection_changed_fixture input type _
  aimed _ _ _ := rfl

theorem retarget_kind (target : PinType) (node : Node) : (node.retarget target).1.kind = node.kind := by
  unfold Node.retarget
  split <;> rfl

theorem literal_changed_fixture (input : Nat) (node : Node) : (node.literalChanged input).1.fixture? = node.fixture? := by
  unfold Node.literalChanged
  split
  · split
    · next old target kind named =>
        split
        · rfl
        · rw [Node.fixture?, Node.fixture?, retarget_kind, kind]
          rfl
    · next old target kind named =>
        split
        · rfl
        · rw [Node.fixture?, Node.fixture?, retarget_kind, kind]
          rfl
    · rfl
  · rfl

theorem add_input_fixture (node : Node) : node.addInput.1.fixture? = node.fixture? := by
  unfold Node.addInput
  split <;> rfl

theorem add_output_fixture (node : Node) : node.addOutput.1.fixture? = node.fixture? := by
  unfold Node.addOutput
  split <;> rfl

theorem NodeKind.stale_loose (locals globals : List Variable) (functions : List Guid) (kind : NodeKind)
    (stale : kind.stale locals globals functions = true) : kind.isStructural = false := by
  cases kind with
  | functionEntry | functionReturn | receiveEvent => cases stale
  | _ => rfl

theorem Node.converted_fixture (locals globals : List Variable) (functions : List Guid) (form : ReferenceForm) (node : Node) :
    (node.convertedTo locals globals functions form).fixture? = node.fixture? := by
  cases named : node.kind.reference? with
  | none => rw [node.plain_converted locals globals functions form named]
  | some =>
    rw [node.named_converted locals globals functions form named, fixture?, fixture?]
    cases node.kind <;> rfl

namespace Graph

variable (kinds : List NodeKind)

theorem prune_fixtures (graph : Graph) : graph.prune.1.fixtures = graph.fixtures := fixture_aloof.prune graph

theorem grow_node_fixtures (grow : Node → Node × List NodeAction) (same : ∀ node, (grow node).1.fixture? = node.fixture?)
    (index : Nat) (graph : Graph) : (Edit.growNode grow index graph).2.fixtures = graph.fixtures := by
  apply after_keeps (fun after => after.fixtures = graph.fixtures) rfl
  intro node there
  have next := modify_fixtures index node (fun _ => (grow node).1) (node_found there) (same node)
  dsimp only
  split <;> exact next

theorem sync_calls_fixtures (function : Guid) (inputs outputs : List Parameter) (graph : Graph) :
    (graph.syncCalls function inputs outputs).1.fixtures = graph.fixtures := by
  by_cases none : (graph.nodes.filter fun node => node.kind == .callFunction function).length = 0
  · rw [syncCalls, if_pos none]
  · rw [syncCalls, if_neg none]
    refine (prune_fixtures _).trans ?_
    rw [fixtures, List.map_map]
    refine List.map_congr_left fun node _ => ?_
    rw [Function.comp_apply]
    split <;> rfl

variable {graph : Graph}

theorem remove_node_begins (index : Nat) (begins : graph.BeginsWith kinds) :
    (Edit.removeNode index graph).2.BeginsWith kinds := by
  -- A fixture cannot be removed, so that those in front do not move.
  apply after_keeps (BeginsWith kinds) begins
  intro node looked
  by_cases deletable : node.isDeletable = true
  · rw [if_pos deletable]
    have loose : node.fixture? = none := node.fixture_loose.mpr ((Bool.not_eq_true' _).mp deletable)
    have erased := front_erased Node.fixture? graph.nodes index (node_found looked) loose begins
    rw [BeginsWith, fixtures, eraseNode, uncompile, List.map_map]
    exact erased
  · rwa [if_neg deletable]

theorem convert_begins (globals : List Variable) (functions : List Guid) (form : ReferenceForm)
    (begins : graph.BeginsWith kinds) : (graph.convertReferences globals functions form).1.BeginsWith kinds := by
  have kept := front_filtered Node.fixture? (fun node => !node.kind.stale graph.locals globals functions) ?_ graph.nodes
    begins
  · rw [BeginsWith, fixtures, convert_survivors, List.map_map]
    refine Eq.mpr (congrArg _ (List.map_congr_left fun node _ => ?_)) kept
    exact node.converted_fixture graph.locals globals functions form
  · intro node stale
    exact node.fixture_loose.mpr (node.kind.stale_loose graph.locals globals functions (by simpa using stale))

theorem adopt_fixtures (kept : List (Nat × Node)) (offset : Position) (graph : Graph) :
    (graph.adoptNodes kept offset).fixtures = graph.fixtures ++ kept.map (·.2.fixture?) := by
  rw [adoptNodes, prune_fixtures, fixtures, add_all_nodes, List.map_append, List.map_map]
  rfl

theorem paste_begins (globals : List Variable) (functions : List Guid) (text : String) (offset : Position)
    (begins : graph.BeginsWith kinds) : (Edit.pasteNodes globals functions text offset graph).2.BeginsWith kinds := by
  unfold Edit.pasteNodes Edit.pasteNodesWith
  cases clipboardNodes? Document.parse? text with
  | none => exact begins
  | some => exact begins_append kinds (adopt_fixtures _ offset graph) begins

end Graph

theorem reshaped_fixtures {entry returned : Node} {body : Body} (framed : body.Framed entry returned) :
    (body.reshaped entry returned).prune.1.fixtures = body.graph.fixtures := by
  rw [Graph.prune_fixtures]
  refine (Graph.modify_fixtures returnNode returned _ ?_ rfl).trans ?_
  · exact return_stays _ body.graph.nodes returned framed.left
  · exact Graph.modify_fixtures entryNode entry _ framed.entered rfl

end Patchbay
