import Mathlib.Data.List.Induction
import Patchbay.Proofs.Signatures

set_option autoImplicit false

namespace Patchbay

inductive Side where
  | inputs
  | outputs
deriving DecidableEq

namespace Side

def pin : Side → Nat → PinRef
  | .inputs, index => .input index
  | .outputs, index => .output index

def place? : Side → PinRef → Option Nat
  | .inputs, .input index => some index
  | .outputs, .output index => some index
  | _, _ => none

@[simp]
theorem place_pin (side : Side) (index : Nat) : side.place? (side.pin index) = some index := by
  cases side <;> rfl

end Side

namespace Node

def pins (node : Node) : Side → List Parameter
  | .inputs => node.signature.inputs
  | .outputs => node.signature.outputs

def sync (side : Side) (parameters : List Parameter) (node : Node) : Node × List NodeAction :=
  match side with
  | .inputs => node.syncInputs parameters
  | .outputs => node.syncOutputs parameters

end Node

/-- A display knows one side of a node by the actions alone. It can follow those that fit what it
shows: only the last pin is removed, only a pin that is there is renamed or retyped, and a pin is
only inserted behind the others, with the name and the type that the node has for it. -/
def NodeAction.follow? (side : Side) (pins shown : List Parameter) : NodeAction → Option (List Parameter)
  | .pinRemoved pin => do
    let index ← side.place? pin
    if index + 1 = shown.length then some shown.dropLast else none
  | .pinRenamed pin name => do
    let index ← side.place? pin
    let old ← shown[index]?
    some (shown.set index { old with name := name })
  | .pinTypeChanged pin type => do
    let index ← side.place? pin
    let old ← shown[index]?
    some (shown.set index { old with type := type })
  | .pinInserted pin => do
    let index ← side.place? pin
    let added ← pins[index]?
    if index = shown.length then some (shown ++ [added]) else none
  | .nodeRenamed _ => none

def replay? (side : Side) (pins shown : List Parameter) (actions : List NodeAction) : Option (List Parameter) :=
  actions.foldlM (NodeAction.follow? side pins) shown

namespace Side

variable (side : Side)

/-- The actions of a pin that gets the name and the type of a parameter. -/
def alignment (index : Nat) (parameter old : Parameter) : List NodeAction :=
  (if old.name = parameter.name then [] else [.pinRenamed (side.pin index) parameter.name]) ++
    (if old.type = parameter.type then [] else [.pinTypeChanged (side.pin index) parameter.type])

def alignments (index : Nat) : List Parameter → List Parameter → List NodeAction
  | [], _ => []
  | _ :: rest, [] => .pinInserted (side.pin index) :: alignments (index + 1) rest []
  | parameter :: rest, old :: others => side.alignment index parameter old ++ alignments (index + 1) rest others

def removals (kept count : Nat) : List NodeAction := (surplus kept count).map fun index => .pinRemoved (side.pin index)

end Side

theorem surplus_none {kept count : Nat} (few : count ≤ kept) : surplus kept count = [] := by
  rw [surplus, List.drop_of_length_le (by rwa [List.length_range]), List.reverse_nil]

theorem surplus_succ {kept count : Nat} (many : kept ≤ count) : surplus kept (count + 1) = count :: surplus kept count := by
  rw [surplus, List.range_succ, List.drop_append_of_le_length (by rwa [List.length_range]), List.reverse_concat]
  rfl

section Replay

variable (side : Side) (pins : List Parameter)

theorem replay_append (shown : List Parameter) (first second : List NodeAction) :
    replay? side pins shown (first ++ second) = (replay? side pins shown first).bind (replay? side pins · second) :=
  List.foldlM_append

theorem replay_cons (shown : List Parameter) (action : NodeAction) (actions : List NodeAction) :
    replay? side pins shown (action :: actions) = (action.follow? side pins shown).bind (replay? side pins · actions) :=
  List.foldlM_cons

theorem removed_follows (shown : List Parameter) (last : Parameter) :
    (NodeAction.pinRemoved (side.pin shown.length)).follow? side pins (shown ++ [last]) = some shown := by
  simp [NodeAction.follow?]

theorem renamed_follows (done others : List Parameter) (old : Parameter) (name : String) :
    (NodeAction.pinRenamed (side.pin done.length) name).follow? side pins (done ++ old :: others) =
      some (done ++ { old with name := name } :: others) := by
  simp [NodeAction.follow?]

theorem retyped_follows (done others : List Parameter) (old : Parameter) (type : PinType) :
    (NodeAction.pinTypeChanged (side.pin done.length) type).follow? side pins (done ++ old :: others) =
      some (done ++ { old with type := type } :: others) := by
  simp [NodeAction.follow?]

theorem inserted_follows (done rest : List Parameter) (parameter : Parameter) :
    (NodeAction.pinInserted (side.pin done.length)).follow? side (done ++ parameter :: rest) done =
      some (done ++ [parameter]) := by
  simp [NodeAction.follow?]

theorem removals_replay (kept : Nat) (shown : List Parameter) :
    replay? side pins shown (side.removals kept shown.length) = some (shown.take kept) := by
  -- The pins go from the last one on, so that the list is taken apart from its end.
  induction shown using List.reverseRecOn with
  | nil => rw [Side.removals, List.length_nil, surplus_none (Nat.zero_le kept), List.take_nil]; rfl
  | append_singleton front last ih =>
    rw [Side.removals, List.length_append, List.length_singleton]
    by_cases many : kept ≤ front.length
    · rw [surplus_succ many, List.map_cons, replay_cons, removed_follows, List.take_append_of_le_length many]
      exact ih
    · have few : front.length + 1 ≤ kept := by omega
      rw [surplus_none few, List.take_of_length_le (by simpa using few)]
      rfl

theorem alignment_replay (done others : List Parameter) (parameter old : Parameter) :
    replay? side pins (done ++ old :: others) (side.alignment done.length parameter old) =
      some (done ++ parameter :: others) := by
  have renamed : replay? side pins (done ++ old :: others)
      (if old.name = parameter.name then [] else [.pinRenamed (side.pin done.length) parameter.name]) =
      some (done ++ { old with name := parameter.name } :: others) := by
    by_cases same : old.name = parameter.name
    · rw [if_pos same, ← same]
      rfl
    · rw [if_neg same, replay_cons, renamed_follows]
      rfl
  rw [Side.alignment, replay_append, renamed, Option.bind_some]
  by_cases same : old.type = parameter.type
  · rw [if_pos same, same]
    rfl
  · rw [if_neg same, replay_cons, retyped_follows]
    rfl

theorem alignments_replay (parameters old done : List Parameter) :
    replay? side (done ++ parameters) (done ++ old.take parameters.length) (side.alignments done.length parameters old) =
      some (done ++ parameters) := by
  -- What is behind the pins that are done is still as it was, and before them it is as it will be.
  induction parameters generalizing old done with
  | nil => rfl
  | cons parameter rest ih =>
    have whole : done ++ parameter :: rest = done ++ [parameter] ++ rest := by simp
    cases old with
    | nil =>
      have others := ih [] (done ++ [parameter])
      rw [List.take_nil, List.append_nil, List.length_append, List.length_singleton] at others
      rw [List.take_nil, List.append_nil, Side.alignments, replay_cons, inserted_follows, Option.bind_some, whole]
      exact others
    | cons pin pins =>
      have others := ih pins (done ++ [parameter])
      rw [← whole, List.length_append, List.length_singleton, List.append_assoc, List.singleton_append] at others
      rw [List.length_cons, List.take_succ_cons, Side.alignments, replay_append, alignment_replay, Option.bind_some]
      exact others

end Replay

namespace InputPin

/-- A pin stays connected as it is. Its literal stays with the type, and goes with it. -/
structure Kept (old new : InputPin) : Prop where
  source : new.source = old.source
  slot : new.slot = old.slot
  setting : new.literalOnly = old.literalOnly
  literal : new.literal = if new.type = old.type then old.literal else new.type.defaultValue

theorem Kept.refl (pin : InputPin) : pin.Kept pin := ⟨rfl, rfl, rfl, (if_pos rfl).symm⟩

theorem align_kept (index : Nat) (parameter : Parameter) (pin : InputPin) : pin.Kept (pin.align index parameter).1 := by
  by_cases same : pin.type = parameter.type
  · rw [align, if_pos same]
    exact ⟨rfl, rfl, rfl, (if_pos rfl).symm⟩
  · rw [align, if_neg same]
    exact ⟨rfl, rfl, rfl, (if_neg (Ne.symm same)).symm⟩

theorem align_all_kept (parameters : List Parameter) (pins : List InputPin) (start index : Nat) (old new : InputPin)
    (was : pins[index]? = some old) (is : ((alignAll start parameters pins).map (·.1))[index]? = some new) : old.Kept new := by
  induction parameters generalizing pins start index with
  | nil => cases is
  | cons parameter rest ih =>
    cases pins with
    | nil => cases was
    | cons pin pins =>
      cases index with
      | zero =>
        cases was
        cases is
        exact align_kept start parameter old
      | succ index => exact ih pins (start + 1) index was is

theorem align_actions (index : Nat) (parameter : Parameter) (pin : InputPin) :
    (pin.align index parameter).2 = Side.inputs.alignment index parameter pin.parameter := by
  unfold align Side.alignment
  by_cases same : pin.type = parameter.type
  · have still : pin.parameter.type = parameter.type := same
    rw [if_pos same, if_pos still, List.append_nil]
    rfl
  · have other : pin.parameter.type ≠ parameter.type := same
    rw [if_neg same, if_neg other]
    rfl

theorem align_all_actions (parameters : List Parameter) (pins : List InputPin) (index : Nat) :
    (alignAll index parameters pins).flatMap (·.2) = Side.inputs.alignments index parameters (pins.map (·.parameter)) := by
  induction parameters generalizing pins index with
  | nil => rfl
  | cons parameter rest ih =>
    cases pins with
    | nil => exact congrArg (NodeAction.pinInserted (.input index) :: ·) (ih [] (index + 1))
    | cons pin pins => exact congrArg₂ List.append (align_actions index parameter pin) (ih pins (index + 1))

theorem align_settled (index : Nat) (pin : InputPin) : pin.align index pin.parameter = (pin, []) := by
  have name : pin.name = pin.parameter.name := rfl
  have type : pin.type = pin.parameter.type := rfl
  rw [align, if_pos type, if_pos name]
  rfl

theorem align_all_settled (pins : List InputPin) (index : Nat) :
    alignAll index (pins.map (·.parameter)) pins = pins.map (·, []) := by
  induction pins generalizing index with
  | nil => rfl
  | cons pin pins ih => exact congrArg₂ List.cons (align_settled index pin) (ih (index + 1))

end InputPin

namespace OutputPin

theorem align_all_actions (parameters : List Parameter) (pins : List OutputPin) (index : Nat) :
    (alignAll index parameters pins).flatMap (·.2) = Side.outputs.alignments index parameters (pins.map (·.parameter)) := by
  induction parameters generalizing pins index with
  | nil => rfl
  | cons parameter rest ih =>
    cases pins with
    | nil => exact congrArg (NodeAction.pinInserted (.output index) :: ·) (ih [] (index + 1))
    | cons pin pins => exact congrArg (Side.outputs.alignment index parameter pin.parameter ++ ·) (ih pins (index + 1))

theorem align_settled (index : Nat) (pin : OutputPin) : pin.align index pin.parameter = (pin, []) := by
  have name : pin.name = pin.parameter.name := rfl
  have type : pin.type = pin.parameter.type := rfl
  rw [align, if_pos type, if_pos name]
  rfl

theorem align_all_settled (pins : List OutputPin) (index : Nat) :
    alignAll index (pins.map (·.parameter)) pins = pins.map (·, []) := by
  induction pins generalizing index with
  | nil => rfl
  | cons pin pins ih => exact congrArg₂ List.cons (align_settled index pin) (ih (index + 1))

end OutputPin

namespace Node

variable (side : Side) (parameters : List Parameter) (node : Node)

theorem sync_shape : (node.sync side parameters).1.pins side = parameters := by
  cases side with
  | inputs => exact align_all_inputs parameters node.inputs 0
  | outputs => exact align_all_outputs parameters node.outputs 0

theorem inputs_counted : (node.pins .inputs).length = node.inputs.length := List.length_map _

theorem outputs_counted : (node.pins .outputs).length = node.outputs.length := List.length_map _

theorem sync_actions : (node.sync side parameters).2 =
    side.removals parameters.length (node.pins side).length ++ side.alignments 0 parameters (node.pins side) := by
  cases side with
  | inputs =>
    rw [inputs_counted]
    exact congrArg (Side.inputs.removals _ _ ++ ·) (InputPin.align_all_actions parameters node.inputs 0)
  | outputs =>
    rw [outputs_counted]
    exact congrArg (Side.outputs.removals _ _ ++ ·) (OutputPin.align_all_actions parameters node.outputs 0)

theorem sync_replay : replay? side parameters (node.pins side) (node.sync side parameters).2 = some parameters := by
  rw [sync_actions, replay_append, removals_replay, Option.bind_some]
  exact alignments_replay side parameters (node.pins side) []

theorem sync_settled : node.sync side (node.pins side) = (node, []) := by
  cases side with
  | inputs =>
    have same : InputPin.alignAll 0 (node.pins .inputs) node.inputs = node.inputs.map (·, []) :=
      InputPin.align_all_settled node.inputs 0
    simp [sync, syncInputs, same, inputs_counted, surplus_none, Function.comp_def]
  | outputs =>
    have same : OutputPin.alignAll 0 (node.pins .outputs) node.outputs = node.outputs.map (·, []) :=
      OutputPin.align_all_settled node.outputs 0
    simp [sync, syncOutputs, same, outputs_counted, surplus_none, Function.comp_def]

theorem sync_kept (index : Nat) (old new : InputPin) (was : node.inputs[index]? = some old)
    (is : (node.sync side parameters).1.inputs[index]? = some new) : old.Kept new := by
  cases side with
  | inputs => exact InputPin.align_all_kept parameters node.inputs 0 index old new was is
  | outputs =>
    cases was.symm.trans is
    exact .refl old

theorem sync_frame : (∀ other, other ≠ side → (node.sync side parameters).1.pins other = node.pins other) ∧
    { (node.sync side parameters).1 with inputs := node.inputs, outputs := node.outputs } = node := by
  cases side with
  | inputs =>
    refine ⟨fun other apart => ?_, rfl⟩
    cases other with
    | inputs => exact absurd rfl apart
    | outputs => rfl
  | outputs =>
    refine ⟨fun other apart => ?_, rfl⟩
    cases other with
    | inputs => rfl
    | outputs => exact absurd rfl apart

/-- The pins of one side come to be those of the parameters, in their order. Input pins that stay keep their connections, and
their literals as long as the type stays. A display that starts from the pins as they were can follow all actions, and then
shows the pins as they are. Nothing else of the node changes, and doing it again neither changes nor reports anything. -/
theorem sync_reports_exactly (side : Side) (parameters : List Parameter) (node : Node) :
    let synced := (node.sync side parameters).1
    synced.pins side = parameters ∧
      (∀ (index : Nat) (old new : InputPin), node.inputs[index]? = some old → synced.inputs[index]? = some new →
        old.Kept new) ∧
      replay? side (synced.pins side) (node.pins side) (node.sync side parameters).2 = some (synced.pins side) ∧
      synced.sync side parameters = (synced, []) ∧
      (∀ other, other ≠ side → synced.pins other = node.pins other) ∧
      { synced with inputs := node.inputs, outputs := node.outputs } = node := by
  intro synced
  have shape : synced.pins side = parameters := node.sync_shape side parameters
  refine ⟨shape, node.sync_kept side parameters, ?_, ?_, node.sync_frame side parameters⟩
  · rw [shape]
    exact node.sync_replay side parameters
  · have settled := synced.sync_settled side
    rwa [shape] at settled

theorem return_sync_reported :
    let node := { Node.functionReturn [⟨"A", .int⟩, ⟨"B", .int⟩] with
      inputs := [{ InputPin.fresh "A" .int with source := some ⟨3, 0⟩ }, .fresh "B" .int] }
    let parameters := [⟨"A", .int⟩, ⟨"Total", .float⟩, ⟨"C", .bool⟩]
    let synced := (node.syncInputs parameters).1
    let actions := (node.syncInputs parameters).2
    actions = [.pinRenamed (.input 1) "Total", .pinTypeChanged (.input 1) .float, .pinInserted (.input 2)] ∧
      replay? .inputs parameters [⟨"A", .int⟩, ⟨"B", .int⟩] actions = some parameters ∧
      (synced.inputs[0]?).map (·.source) = some (some ⟨3, 0⟩) ∧
      (synced.inputs[1]?).map (·.literal) = some PinType.float.defaultValue ∧
      synced.syncInputs parameters = (synced, []) := by
  intro node parameters synced actions
  obtain ⟨shape, kept, replayed, again, _⟩ := sync_reports_exactly .inputs parameters node
  rw [shape] at replayed
  refine ⟨by decide, replayed, ?_, ?_, again⟩
  · exact congrArg some (kept 0 _ _ rfl rfl).source
  · exact congrArg some (kept 1 _ _ rfl rfl).literal

end Node

end Patchbay
