import Patchbay.Proofs.Copying

set_option autoImplicit false

namespace Patchbay

def Feeds (nodes : List Node) (pin : InputPin) (source : PinSource) : Prop :=
  ∃ node output, nodes[source.node]? = some node ∧ node.outputs[source.parameter]? = some output ∧
    pin.type.assignable output.type = true

def Admits (nodes : List Node) (target : ExecTarget) : Prop :=
  ∃ node, nodes[target.node]? = some node ∧ target.pin < node.execIn.length

/-- What node `index` owes to nothing but its own pins. It does not read itself, its settings are not connected, a cast gives
its target type, and the cases of a switch have the type of its value. -/
structure Node.WellFormedAt (index : Nat) (node : Node) : Prop where
  others : ∀ pin ∈ node.inputs, ∀ source, pin.source = some source → source.node ≠ index
  settings : ∀ pin ∈ node.inputs, pin.literalOnly = true → pin.source = none
  casts : ∀ target, node.kind.castTarget? = some target →
    ∃ output, node.outputs[0]? = some output ∧ output.type = target
  switches : node.kind = .switch → ∃ value, node.inputs[switchValuePin]? = some value ∧
    ∀ pin ∈ node.execOut, ∀ case, pin.case = some case → case.type = value.type

structure Node.LinkedIn (nodes : List Node) (node : Node) : Prop where
  sources : ∀ pin ∈ node.inputs, ∀ source, pin.source = some source → Feeds nodes pin source
  targets : ∀ pin ∈ node.execOut, ∀ target, pin.target = some target → Admits nodes target

def Tidy (nodes : List Node) : Prop :=
  ∀ (index : Nat) (node : Node), nodes[index]? = some node → node.WellFormedAt index

def Linked (nodes : List Node) : Prop := ∀ node ∈ nodes, node.LinkedIn nodes

structure Graph.WellFormed (graph : Graph) : Prop where
  tidy : Tidy graph.nodes
  linked : Linked graph.nodes

theorem empty_well_formed : Graph.empty.WellFormed :=
  ⟨fun _ _ found => by simp [Graph.empty] at found, fun _ inside => by simp [Graph.empty] at inside⟩

theorem uncompile_well_formed (graph : Graph) (formed : graph.WellFormed) : graph.uncompile.WellFormed :=
  ⟨formed.tidy, formed.linked⟩

theorem entered_not_implicit {nodes : List Node} {target : ExecTarget} (admits : Admits nodes target) :
    ∃ node, nodes[target.node]? = some node ∧ node.isImplicit = false := by
  obtain ⟨node, found, inside⟩ := admits
  refine ⟨node, found, ?_⟩
  have filled : node.execIn.isEmpty = false := List.isEmpty_eq_false_iff.mpr (List.ne_nil_of_length_pos (by omega))
  rw [Node.isImplicit, filled, Bool.false_and]

section Pins

variable {α β : Type} {a b : List α} {item : α}

theorem mem_of_map_eq (view : α → β) (same : b.map view = a.map view)
    (inside : item ∈ b) : ∃ other ∈ a, view other = view item := by
  have image : view item ∈ a.map view := by
    rw [← same]
    exact List.mem_map_of_mem inside
  exact List.mem_map.mp image

theorem get_of_map_eq (view : α → β) (same : b.map view = a.map view) {index : Nat}
    (found : a[index]? = some item) : ∃ other, b[index]? = some other ∧ view other = view item := by
  have image : (b.map view)[index]? = some (view item) := by rw [same, List.getElem?_map, found, Option.map_some]
  rw [List.getElem?_map] at image
  exact Option.map_eq_some_iff.mp image

theorem mem_modify (index : Nat) (change : α → α) (list : List α) (item : α)
    (inside : item ∈ list.modify index change) : item ∈ list ∨ ∃ old, list[index]? = some old ∧ item = change old := by
  obtain ⟨i, found⟩ := List.mem_iff_getElem?.mp inside
  rw [List.getElem?_modify] at found
  cases there : list[i]? with
  | none => simp [there] at found
  | some old =>
    by_cases here : index = i
    · subst here
      rw [there] at found
      exact .inr ⟨old, there, by simpa using found.symm⟩
    · refine .inl (List.mem_iff_getElem?.mpr ⟨i, ?_⟩)
      simpa [there, here] using found

end Pins

theorem well_formed_outline (node other : Node) (index : Nat) (same : other.outline = node.outline)
    (formed : node.WellFormedAt index) : other.WellFormedAt index := by
  simp only [Node.outline, Outline.mk.injEq] at same
  obtain ⟨target, switch, inputs, outputs, cases⟩ := same
  refine ⟨?_, ?_, ?_, ?_⟩
  · intro pin inside source connected
    obtain ⟨old, there, alike⟩ := mem_of_map_eq InputPin.outline inputs inside
    simp only [InputPin.outline, Prod.mk.injEq] at alike
    exact formed.others old there source (alike.2.1.trans connected)
  · intro pin inside setting
    obtain ⟨old, there, alike⟩ := mem_of_map_eq InputPin.outline inputs inside
    simp only [InputPin.outline, Prod.mk.injEq] at alike
    exact alike.2.1.symm.trans (formed.settings old there (alike.2.2.trans setting))
  · intro type isCast
    obtain ⟨output, first, typed⟩ := formed.casts type (target.symm.trans isCast)
    obtain ⟨new, there, alike⟩ := get_of_map_eq OutputPin.type outputs first
    exact ⟨new, there, alike.trans typed⟩
  · intro isSwitch
    rw [isSwitch, beq_self_eq_true] at switch
    obtain ⟨value, first, typed⟩ := formed.switches (beq_iff_eq.mp switch.symm)
    obtain ⟨new, there, alike⟩ := get_of_map_eq InputPin.outline inputs first
    simp only [InputPin.outline, Prod.mk.injEq] at alike
    refine ⟨new, there, fun pin inside case has => ?_⟩
    obtain ⟨old, before, caseAlike⟩ := mem_of_map_eq ExecPin.caseType cases inside
    simp only [ExecPin.caseType, has, Option.map_some, Option.map_eq_some_iff] at caseAlike
    obtain ⟨oldCase, hadCase, sameType⟩ := caseAlike
    rw [← sameType, typed old before oldCase hadCase, alike.1]

theorem well_formed_map (node other : Node) (index place : Nat) (input : InputPin → InputPin) (exec : ExecPin → ExecPin)
    (kind : other.kind = node.kind) (inputs : other.inputs = node.inputs.map input)
    (outs : other.execOut = node.execOut.map exec) (outputs : other.outputs = node.outputs)
    (types : ∀ pin, (input pin).type = pin.type) (flags : ∀ pin, (input pin).literalOnly = pin.literalOnly)
    (dropped : ∀ pin, pin.source = none → (input pin).source = none) (cases : ∀ pin, (exec pin).case = pin.case)
    (others : ∀ pin ∈ node.inputs, ∀ source, (input pin).source = some source → source.node ≠ place)
    (formed : node.WellFormedAt index) : other.WellFormedAt place := by
  refine ⟨?_, ?_, ?_, ?_⟩
  · intro pin inside source connected
    rw [inputs] at inside
    obtain ⟨old, there, rfl⟩ := List.mem_map.mp inside
    exact others old there source connected
  · intro pin inside setting
    rw [inputs] at inside
    obtain ⟨old, there, rfl⟩ := List.mem_map.mp inside
    exact dropped old (formed.settings old there ((flags old).symm.trans setting))
  · rw [kind, outputs]
    exact formed.casts
  · intro isSwitch
    obtain ⟨value, first, typed⟩ := formed.switches (kind.symm.trans isSwitch)
    refine ⟨input value, by rw [inputs, List.getElem?_map, first, Option.map_some], fun pin inside case has => ?_⟩
    rw [outs] at inside
    obtain ⟨old, there, rfl⟩ := List.mem_map.mp inside
    rw [types, typed old there case ((cases old).symm.trans has)]

/-- Every output and every in-pin of the first nodes is one of the second, at the same place. -/
def Offers (nodes others : List Node) : Prop :=
  ∀ (index : Nat) (node : Node), nodes[index]? = some node → ∃ other, others[index]? = some other ∧
    other.outputs.map OutputPin.type = node.outputs.map OutputPin.type ∧ other.execIn.length = node.execIn.length

variable {nodes others : List Node} {pin : InputPin} {source : PinSource} {target : ExecTarget}
  {index removed place : Nat} {node changed : Node} {graph : Graph} {α : Type}

theorem feeds_offered (offers : Offers nodes others) (feeds : Feeds nodes pin source) : Feeds others pin source := by
  obtain ⟨node, output, found, first, assignable⟩ := feeds
  obtain ⟨other, there, outputs, _⟩ := offers source.node node found
  obtain ⟨new, second, typed⟩ := get_of_map_eq OutputPin.type outputs first
  exact ⟨other, new, there, second, by rw [typed]; exact assignable⟩

theorem admits_offered (offers : Offers nodes others) (admits : Admits nodes target) : Admits others target := by
  obtain ⟨node, found, inside⟩ := admits
  obtain ⟨other, there, _, pins⟩ := offers target.node node found
  exact ⟨other, there, by omega⟩

theorem linked_offered (offers : Offers nodes others) (node : Node)
    (linked : node.LinkedIn nodes) : node.LinkedIn others :=
  ⟨fun pin inside source connected => feeds_offered offers (linked.sources pin inside source connected),
    fun pin inside target connected => admits_offered offers (linked.targets pin inside target connected)⟩

theorem offers_map (nodes : List Node) (change : Node → Node)
    (outputs : ∀ node, (change node).outputs.map OutputPin.type = node.outputs.map OutputPin.type)
    (pins : ∀ node, (change node).execIn.length = node.execIn.length) : Offers nodes (nodes.map change) := by
  intro index node found
  exact ⟨change node, by rw [List.getElem?_map, found, Option.map_some], outputs node, pins node⟩

theorem offers_append (nodes more : List Node) : Offers nodes (nodes ++ more) := by
  intro index node found
  have bound := (List.getElem?_eq_some_iff.mp found).1
  exact ⟨node, by rw [List.getElem?_append_left bound, found], rfl, rfl⟩

theorem modify_at (i : Nat) (changed : Node) (found : nodes[index]? = some node) :
    (nodes.modify index fun _ => changed)[i]? = if index = i then some changed else nodes[i]? := by
  rw [List.getElem?_modify]
  by_cases here : index = i
  · subst here
    simp [found]
  · simp [here]

theorem offers_modify (found : nodes[index]? = some node)
    (outputs : changed.outputs.map OutputPin.type = node.outputs.map OutputPin.type)
    (pins : changed.execIn.length = node.execIn.length) : Offers nodes (nodes.modify index fun _ => changed) := by
  intro i other there
  rw [modify_at i changed found]
  by_cases here : index = i
  · subst here
    rw [found] at there
    cases there
    exact ⟨changed, if_pos rfl, outputs, pins⟩
  · exact ⟨other, by rw [if_neg here, there], rfl, rfl⟩

theorem tidy_modify (index : Nat) (node : Node) (found : nodes[index]? = some node)
    (formed : changed.WellFormedAt index) (tidy : Tidy nodes) : Tidy (nodes.modify index fun _ => changed) := by
  intro i other there
  rw [modify_at i changed found] at there
  split at there
  · next here =>
      cases there
      rwa [← here]
  · exact tidy i other there

theorem modify_well_formed (graph : Graph) (index : Nat) (node changed : Node) (found : graph.nodes[index]? = some node)
    (outputs : changed.outputs.map OutputPin.type = node.outputs.map OutputPin.type)
    (pins : changed.execIn.length = node.execIn.length) (formed : changed.WellFormedAt index)
    (linked : changed.LinkedIn graph.nodes) (before : graph.WellFormed) :
    (graph.modifyNode index fun _ => changed).WellFormed := by
  refine ⟨tidy_modify index node found formed before.tidy, ?_⟩
  intro other inside
  refine linked_offered (offers_modify found outputs pins) other ?_
  obtain there | ⟨_, _, rfl⟩ := mem_modify index _ graph.nodes other inside
  · exact before.linked other there
  · exact linked

theorem linked_pins (nodes : List Node) (node other : Node)
    (inputs : ∀ pin ∈ other.inputs, pin.source = none ∨ ∃ old ∈ node.inputs, old.type = pin.type ∧ old.source = pin.source)
    (outs : ∀ pin ∈ other.execOut, pin.target = none ∨ ∃ old ∈ node.execOut, old.target = pin.target)
    (linked : node.LinkedIn nodes) : other.LinkedIn nodes := by
  refine ⟨fun pin inside source connected => ?_, fun pin inside target connected => ?_⟩
  · obtain none | ⟨old, there, type, same⟩ := inputs pin inside
    · rw [none] at connected
      cases connected
    · obtain ⟨fed, output, found, first, assignable⟩ := linked.sources old there source (same.trans connected)
      exact ⟨fed, output, found, first, by rw [← type]; exact assignable⟩
  · obtain none | ⟨old, there, same⟩ := outs pin inside
    · rw [none] at connected
      cases connected
    · exact linked.targets old there target (same.trans connected)

theorem input_fits (connected : pin.source = some source)
    (fits : pin.fits nodes = true) : Feeds nodes pin source := by
  simp only [InputPin.fits, connected] at fits
  split at fits
  · cases fits
  · next node found =>
      split at fits
      · cases fits
      · next output first => exact ⟨node, output, found, first, fits⟩

theorem exec_fits {pin : ExecPin} (connected : pin.target = some target)
    (fits : pin.fits nodes = true) : Admits nodes target := by
  simp only [ExecPin.fits, connected] at fits
  split at fits
  · cases fits
  · next node found => exact ⟨node, found, of_decide_eq_true fits⟩

theorem prune_linked (nodes : List Node) (node : Node) : (node.prune nodes).LinkedIn nodes := by
  refine ⟨fun pin inside source connected => ?_, fun pin inside target connected => ?_⟩
  · obtain ⟨old, _, rfl⟩ := List.mem_map.mp inside
    unfold InputPin.prune at connected ⊢
    split at connected
    · next fits =>
        rw [if_pos fits]
        exact input_fits connected fits
    · cases connected
  · obtain ⟨old, _, rfl⟩ := List.mem_map.mp inside
    unfold ExecPin.prune at connected
    split at connected
    · next fits => exact exec_fits connected fits
    · cases connected

theorem prune_formed (nodes : List Node) (formed : node.WellFormedAt index) :
    (node.prune nodes).WellFormedAt index := by
  have types (pin : InputPin) : (pin.prune nodes).type = pin.type := by
    unfold InputPin.prune
    split <;> rfl
  have flags (pin : InputPin) : (pin.prune nodes).literalOnly = pin.literalOnly := by
    unfold InputPin.prune
    split <;> rfl
  have dropped (pin : InputPin) : (pin.prune nodes).source = pin.source ∨ (pin.prune nodes).source = none := by
    unfold InputPin.prune
    split
    · exact .inl rfl
    · exact .inr rfl
  have cases (pin : ExecPin) : (pin.prune nodes).case = pin.case := by
    unfold ExecPin.prune
    split <;> rfl
  refine well_formed_map node (node.prune nodes) index index _ _ rfl rfl rfl rfl types flags ?_ cases ?_ formed
  · intro pin none
    obtain same | gone := dropped pin
    · exact same.trans none
    · exact gone
  · intro pin inside source connected
    obtain same | gone := dropped pin
    · exact formed.others pin inside source (same.symm.trans connected)
    · rw [gone] at connected
      cases connected

theorem prune_nodes (graph : Graph) : graph.prune.1.nodes = graph.nodes.map (·.prune graph.nodes) := by
  unfold Graph.prune
  dsimp only
  split <;> rfl

theorem prune_locals (graph : Graph) : graph.prune.1.locals = graph.locals := by
  unfold Graph.prune
  dsimp only
  split <;> rfl

theorem prune_mends (graph : Graph) : Linked graph.prune.1.nodes := by
  intro node inside
  rw [prune_nodes] at inside ⊢
  obtain ⟨old, _, rfl⟩ := List.mem_map.mp inside
  exact linked_offered (offers_map graph.nodes (Node.prune graph.nodes) (fun _ => rfl) fun _ => rfl) _
    (prune_linked graph.nodes old)

theorem prune_well_formed (tidy : Tidy graph.nodes) : graph.prune.1.WellFormed := by
  refine ⟨fun index node found => ?_, prune_mends graph⟩
  rw [prune_nodes, List.getElem?_map] at found
  obtain ⟨old, there, rfl⟩ := Option.map_eq_some_iff.mp found
  exact prune_formed graph.nodes (tidy index old there)

theorem settle_well_formed (actions : List NodeAction) (tidy : Tidy graph.nodes)
    (quiet : actions.any (·.reshapes) = false → graph.WellFormed) : (graph.settle actions).WellFormed := by
  unfold Graph.settle
  split
  · exact prune_well_formed tidy
  · next calm => exact quiet (by simpa using calm)

variable (rename : Nat → Option Nat)

theorem source_renumbered (connected : pin.source.bind (·.renumber? rename) = some source) :
    ∃ old, pin.source = some old ∧ rename old.node = some source.node ∧ source.parameter = old.parameter := by
  obtain ⟨old, before, renamed⟩ := Option.bind_eq_some_iff.mp connected
  obtain ⟨node, found, rfl⟩ := Option.map_eq_some_iff.mp renamed
  exact ⟨old, before, found, rfl⟩

theorem target_renumbered {pin : ExecPin}
    (connected : pin.target.bind (·.renumber? rename) = some target) :
    ∃ old, pin.target = some old ∧ rename old.node = some target.node ∧ target.pin = old.pin := by
  obtain ⟨old, before, renamed⟩ := Option.bind_eq_some_iff.mp connected
  obtain ⟨node, found, rfl⟩ := Option.map_eq_some_iff.mp renamed
  exact ⟨old, before, found, rfl⟩

theorem renumber_formed (place : Nat)
    (own : ∀ other, rename other = some place → other = index) (formed : node.WellFormedAt index) :
    (node.renumber rename).WellFormedAt place := by
  -- A node that moves from `index` to `place` reads itself there only if it did so before.
  refine well_formed_map node (node.renumber rename) index place _ _ rfl rfl rfl rfl (fun _ => rfl) (fun _ => rfl) ?_
    (fun _ => rfl) ?_ formed
  · intro pin none
    simp only [none, Option.bind_none]
  · intro pin inside source connected here
    obtain ⟨old, before, renamed, _⟩ := source_renumbered rename connected
    rw [here] at renamed
    exact formed.others pin inside old before (own old.node renamed)

theorem shift_at (list : List α) (shifted : shiftIndex? removed index = some place) :
    (list.eraseIdx removed)[place]? = list[index]? := by
  rw [List.getElem?_eraseIdx]
  unfold shiftIndex? at shifted
  split at shifted
  · cases shifted
  · split at shifted <;> cases shifted
    · rw [if_neg (by omega), Nat.sub_add_cancel (by omega)]
    · rw [if_pos (by omega)]

theorem shift_from (removed place : Nat) : ∃ index, shiftIndex? removed index = some place := by
  by_cases before : place < removed
  · exact ⟨place, by rw [shiftIndex?, if_neg (by omega), if_neg (by omega)]⟩
  · exact ⟨place + 1, by rw [shiftIndex?, if_neg (by omega), if_pos (by omega), Nat.add_sub_cancel]⟩

theorem shift_origin (shifted : shiftIndex? removed index = some place) :
    index = if place < removed then place else place + 1 := by
  unfold shiftIndex? at shifted
  split at shifted
  · cases shifted
  · split at shifted <;> cases shifted
    · rw [if_neg (by omega)]
      omega
    · rw [if_pos (by omega)]

theorem shift_unique {a b : Nat} (first : shiftIndex? removed a = some place)
    (second : shiftIndex? removed b = some place) : a = b := by
  rw [shift_origin first, shift_origin second]

theorem erase_well_formed (removed : Nat) (before : graph.WellFormed) :
    (graph.eraseNode removed).WellFormed := by
  refine ⟨?_, ?_⟩
  · intro place node found
    obtain ⟨index, shifted⟩ := shift_from removed place
    simp only [Graph.eraseNode, Graph.uncompile, List.getElem?_map, shift_at graph.nodes shifted] at found
    obtain ⟨old, there, rfl⟩ := Option.map_eq_some_iff.mp found
    exact renumber_formed _ place (fun other renamed => shift_unique renamed shifted) (before.tidy index old there)
  · intro node inside
    obtain ⟨old, there, rfl⟩ := List.mem_map.mp inside
    have linked := before.linked old (List.mem_of_mem_eraseIdx there)
    have moved (index place : Nat) (other : Node) (shifted : shiftIndex? removed index = some place)
        (found : graph.nodes[index]? = some other) :
        (graph.eraseNode removed).nodes[place]? = some (other.renumber (shiftIndex? removed)) := by
      simp only [Graph.eraseNode, Graph.uncompile, List.getElem?_map, shift_at graph.nodes shifted, found,
        Option.map_some]
    refine ⟨fun pin inside source connected => ?_, fun pin inside target connected => ?_⟩
    · obtain ⟨oldPin, oldInside, rfl⟩ := List.mem_map.mp inside
      obtain ⟨oldSource, was, shifted, parameter⟩ := source_renumbered _ connected
      obtain ⟨fed, output, found, first, assignable⟩ := linked.sources oldPin oldInside oldSource was
      exact ⟨_, output, moved oldSource.node source.node fed shifted found, by rw [parameter]; exact first, assignable⟩
    · obtain ⟨oldPin, oldInside, rfl⟩ := List.mem_map.mp inside
      obtain ⟨oldTarget, was, shifted, pinSame⟩ := target_renumbered _ connected
      obtain ⟨entered, found, bound⟩ := linked.targets oldPin oldInside oldTarget was
      exact ⟨_, moved oldTarget.node target.node entered shifted found, by rw [pinSame]; exact bound⟩

theorem erase_all_well_formed (indices : List Nat) (graph : Graph) (before : graph.WellFormed) :
    (indices.foldl (fun graph index => graph.eraseNode index) graph).WellFormed := by
  induction indices generalizing graph with
  | nil => exact before
  | cons index rest ih => exact ih _ (erase_well_formed index before)

theorem renumbering_own (base : Nat) {indices : List Nat} (other : Nat) (found : indices[place]? = some index)
    (renamed : renumbering base indices other = some (base + place)) : other = index := by
  obtain ⟨position, first, same⟩ := Option.map_eq_some_iff.mp renamed
  obtain rfl : position = place := by omega
  obtain ⟨bound, here, _⟩ := List.findIdx?_eq_some_iff_getElem.mp first
  rw [List.getElem?_eq_getElem bound] at found
  exact (beq_iff_eq.mp here).symm.trans (Option.some.inj found)

theorem kept_formed (nodes : List Node) (tidy : Tidy nodes) (pairs : List (Nat × Node))
    (origin : ∀ entry ∈ pairs, nodes[entry.1]? = some entry.2) (convert : Node → Option Node)
    (same : ∀ node other, convert node = some other → other.outline = node.outline) (base place : Nat) (entry : Nat × Node)
    (found : (keepResolved convert pairs)[place]? = some entry) :
    (entry.2.rewire (renumbering base ((keepResolved convert pairs).map (·.1)))).WellFormedAt (base + place) := by
  obtain ⟨old, there, converted⟩ := List.mem_filterMap.mp (List.mem_of_getElem? found)
  obtain ⟨changed, conversion, rfl⟩ := Option.map_eq_some_iff.mp converted
  have formed := well_formed_outline old.2 changed old.1 (same old.2 changed conversion) (tidy old.1 old.2 (origin old there))
  have here : ((keepResolved convert pairs).map (·.1))[place]? = some old.1 := by rw [List.getElem?_map, found, Option.map_some]
  refine well_formed_outline (changed.renumber _) _ _ ?_
    (renumber_formed _ (base + place) (fun other => renumbering_own base other here) formed)
  simp only [Node.outline, Node.rewire, List.map_map]
  rfl

theorem convert_variable_outline (locals globals : List Variable) (form : ReferenceForm) (node other : Node)
    (converted : node.convertVariable? locals globals form = some other) : other.outline = node.outline := by
  unfold Node.convertVariable? at converted
  cases kind : node.kind <;> simp only [kind, NodeKind.reference?, Option.some.injEq, Option.map_eq_some_iff] at converted
  case getVariable reference | setVariable reference =>
    obtain ⟨_, _, rfl⟩ := converted
    simp only [Node.outline, kind]
    rfl
  all_goals
    subst converted
    rfl

theorem adopt_outline (globals : List Variable) (functions : List Guid) (locals : List Variable) (node other : Node)
    (adopted : Graph.adoptNode? globals functions locals node = some other) : other.outline = node.outline := by
  unfold Graph.adoptNode? at adopted
  split at adopted
  · split at adopted <;> cases adopted
    rfl
  · exact convert_variable_outline locals globals .live node other adopted

theorem selectable_origin (selection : List Nat) (graph : Graph) (entry : Nat × Node)
    (inside : entry ∈ graph.selectable selection) : graph.nodes[entry.1]? = some entry.2 := by
  obtain ⟨index, _, chosen⟩ := List.mem_filterMap.mp inside
  obtain ⟨node, found, rfl⟩ := Option.map_eq_some_iff.mp chosen
  exact found

theorem zip_origin (nodes : List Node) (entry : Nat × Node) (inside : entry ∈ (List.range nodes.length).zip nodes) :
    nodes[entry.1]? = some entry.2 := by
  obtain ⟨index, found⟩ := List.mem_iff_getElem?.mp inside
  obtain ⟨first, second⟩ := List.getElem?_zip_eq_some.mp found
  rw [List.getElem?_range (by have := (List.getElem?_eq_some_iff.mp second).1; omega)] at first
  rw [← Option.some.inj first]
  exact second

theorem copied_tidy (selection : List Nat) (globals : List Variable) (tidy : Tidy graph.nodes) :
    Tidy (graph.copiedNodes selection globals) := by
  intro place node found
  rw [Graph.copiedNodes, List.getElem?_map] at found
  obtain ⟨entry, there, rfl⟩ := Option.map_eq_some_iff.mp found
  have formed := kept_formed graph.nodes tidy (graph.selectable selection) (selectable_origin selection graph) _
    (convert_variable_outline graph.locals globals .byGuid) 0 place entry there
  rwa [Nat.zero_add] at formed

theorem tidy_outlines (same : others.map Node.outline = nodes.map Node.outline)
    (tidy : Tidy nodes) : Tidy others := by
  intro index other found
  obtain ⟨node, there, alike⟩ := get_of_map_eq Node.outline same.symm found
  exact well_formed_outline node other index alike.symm (tidy index node there)

theorem add_all_nodes (place : α → Node) (items : List α) (graph : Graph) :
    (items.foldl (fun graph item => graph.addNode (place item)) graph).nodes = graph.nodes ++ items.map place := by
  induction items generalizing graph with
  | nil => simp
  | cons item rest ih =>
    rw [List.foldl_cons, ih, List.map_cons]
    simp [Graph.addNode, Graph.uncompile]

theorem add_all_locals (place : α → Node) (items : List α) (graph : Graph) :
    (items.foldl (fun graph item => graph.addNode (place item)) graph).locals = graph.locals := by
  induction items generalizing graph with
  | nil => rfl
  | cons item rest ih => exact ih _

theorem tidy_append (more : List Node) (tidy : Tidy nodes)
    (formed : ∀ (place : Nat) (node : Node), more[place]? = some node → node.WellFormedAt (nodes.length + place)) :
    Tidy (nodes ++ more) := by
  intro index node found
  by_cases inside : index < nodes.length
  · rw [List.getElem?_append_left inside] at found
    exact tidy index node found
  · rw [List.getElem?_append_right (by omega)] at found
    have shifted := formed (index - nodes.length) node found
    rwa [Nat.add_sub_cancel' (by omega)] at shifted

theorem paste_well_formed {origin : Graph} {selection : List Nat} {originGlobals : List Variable} (globals : List Variable)
    (functions : List Guid) {text : String} (offset : Position) (formed : origin.WellFormed)
    (copied : origin.copyNodes selection originGlobals = .ok text) (before : graph.WellFormed) :
    (Edit.pasteNodes globals functions text offset graph).2.WellFormed := by
  unfold Edit.pasteNodes Edit.pasteNodesWith
  split
  · exact before
  · next nodes read =>
      have tidy := tidy_outlines (clipboard_outlines copied read) (copied_tidy selection originGlobals formed.tidy)
      refine prune_well_formed ?_
      rw [add_all_nodes]
      refine tidy_append _ before.tidy fun place node found => ?_
      rw [List.getElem?_map] at found
      obtain ⟨entry, there, rfl⟩ := Option.map_eq_some_iff.mp found
      refine well_formed_outline _ _ _ ?_ (kept_formed nodes tidy _ (zip_origin nodes) _
        (adopt_outline globals functions graph.locals) graph.nodes.length place entry there)
      rfl

end Patchbay
