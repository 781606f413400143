import Patchbay.Proofs.CompiledFlag
import Patchbay.Proofs.References
import Patchbay.Proofs.Stackless

set_option autoImplicit false

namespace Patchbay

variable {layouts : List NodeLayout} {entry : NodeLayout} {locals index slot base : Nat} {size : Option Nat}
  {values stack : List Value}

theorem widths_take_succ (index : Nat)
    (found : layouts[index]? = some entry) : widths (layouts.take (index + 1)) = widths (layouts.take index) + entry.width := by
  induction layouts generalizing index with
  | nil => simp at found
  | cons head rest ih =>
    have unfolded : ∀ count, widths ((head :: rest).take (count + 1)) = head.width + widths (rest.take count) := fun _ => rfl
    cases index with
    | zero =>
      obtain rfl : head = entry := by simpa using found
      rw [unfolded]
      exact Nat.add_comm _ _
    | succ index => rw [unfolded, unfolded, ih index (by simpa using found), Nat.add_assoc]

theorem widths_take_le (layouts : List NodeLayout) (index : Nat) : widths (layouts.take index) ≤ widths layouts := by
  induction layouts generalizing index with
  | nil => simp
  | cons head rest ih =>
    cases index with
    | zero => exact Nat.zero_le _
    | succ index => exact Nat.add_le_add_left (ih index) head.width

theorem region_before (placed : Placed locals size layouts)
    {a b : Nat} {first second : NodeLayout} (atA : layouts[a]? = some first) (atB : layouts[b]? = some second)
    (lt : a < b) : first.base + first.width ≤ second.base := by
  have step := widths_take_succ a atA
  have mono := widths_take_le (layouts.take b) (a + 1)
  rw [List.take_take, Nat.min_eq_left (show a + 1 ≤ b from lt)] at mono
  have baseA := placed.bases a first atA
  have baseB := placed.bases b second atB
  omega

theorem region_inside (placed : Placed locals size layouts) (found : layouts[index]? = some entry) :
    locals ≤ entry.base ∧ entry.base + entry.width ≤ locals + widths layouts := by
  have step := widths_take_succ index found
  have whole := widths_take_le layouts (index + 1)
  have base := placed.bases index entry found
  omega

theorem slot_found {nodes : List Node} {source : PinSource} (found : slotOf? nodes source = some slot) :
    ∃ node, nodes[source.node]? = some node ∧ source.parameter < node.outputs.length ∧
      slot = node.base + source.parameter := by
  unfold slotOf? at found
  split at found
  · cases found
  · next node there =>
      split at found
      · next inside => exact ⟨node, there, inside, (Option.some.inj found).symm⟩
      · cases found

theorem write_slots_inside
    (fits : base + values.length ≤ stack.length) (low : base ≤ slot) (high : slot < base + values.length) :
    (writeSlots base values stack)[slot]? = values[slot - base]? := by
  have front : (stack.take base).length = base := by rw [List.length_take]; omega
  rw [writeSlots, List.append_assoc, List.getElem?_append_right (by omega), front, List.getElem?_append_left (by omega)]

theorem write_slots_outside
    (fits : base + values.length ≤ stack.length) (outside : slot < base ∨ base + values.length ≤ slot) :
    (writeSlots base values stack)[slot]? = stack[slot]? := by
  have front : (stack.take base).length = base := by rw [List.length_take]; omega
  rw [writeSlots, List.append_assoc]
  cases outside with
  | inl below => rw [List.getElem?_append_left (by omega), List.getElem?_take_of_lt below]
  | inr =>
    rw [List.getElem?_append_right (by omega), front, List.getElem?_append_right (by omega), List.getElem?_drop]
    congr 1
    omega

/-- The stack holds what the store has: the variables come first, and every output stands in its slot. -/
structure Holds (graph : Graph) (stack : List Value) (store : Stackless.Store) : Prop where
  length : stack.length = graph.locals.length + widths graph.layouts
  locals : store.locals = stack.take graph.locals.length
  outputs : ∀ source slot, slotOf? graph.nodes source = some slot →
    stack[slot]? = some (store.outputs source.node source.parameter)

theorem slot_layout {graph : Graph} {node : Node} (found : graph.nodes[index]? = some node) :
    graph.layouts[index]? = some node.layout := by
  simp [Graph.layouts, found]

namespace Holds

variable {graph : Graph} {stack : List Value} {store : Stackless.Store}

theorem initial (laid : graph.LaidOut) (size : Nat) (sized : graph.size = some size) :
    Holds graph (Graph.initialStack graph.locals size) (Stackless.Store.initial graph.locals) := by
  obtain rfl : size = graph.locals.length + widths graph.layouts := Option.some.inj (sized.symm.trans laid.size)
  have front : (graph.locals.map (·.value)).take (graph.locals.length + widths graph.layouts) =
      graph.locals.map (·.value) := List.take_of_length_le (by simp)
  unfold Graph.initialStack
  rw [front, Nat.add_sub_cancel_left]
  refine ⟨by simp, ?_, ?_⟩
  · rw [List.take_left' (by simp)]
    rfl
  · intro source slot place
    obtain ⟨node, found, inside, rfl⟩ := slot_found place
    have region := region_inside laid (slot_layout found)
    simp only [Node.layout] at region
    rw [List.getElem?_append_right (by simp; omega), List.getElem?_replicate_of_lt (by simp; omega)]
    rfl

variable {index : Nat}

theorem read_local (held : Holds graph stack store) (inside : index < graph.locals.length) :
    stack[index]? = store.locals[index]? := by
  rw [held.locals, List.getElem?_take_of_lt inside]

theorem set_local (held : Holds graph stack store) (laid : graph.LaidOut)
    (inside : index < graph.locals.length) (value : Value) :
    Holds graph (stack.set index value) (store.setLocal index value) := by
  refine ⟨by simpa using held.length, ?_, ?_⟩
  · simp only [Stackless.Store.setLocal, held.locals, List.take_set]
  · intro source slot place
    obtain ⟨node, found, _, rfl⟩ := slot_found place
    have region := region_inside laid (slot_layout found)
    simp only [Node.layout] at region
    rw [List.getElem?_set_ne (by omega)]
    exact held.outputs source _ place

theorem set_outputs (held : Holds graph stack store) (laid : graph.LaidOut) {node : Node}
    (found : graph.nodes[index]? = some node) {values : List Value} (count : values.length = node.outputs.length) :
    node.base + values.length ≤ stack.length ∧
      Holds graph (writeSlots node.base values stack) (store.setOutputs index values) := by
  have here := slot_layout found
  have region := region_inside laid here
  simp only [Node.layout] at region
  have fits : node.base + values.length ≤ stack.length := by rw [held.length]; omega
  refine ⟨fits, ?_, ?_, ?_⟩
  · rw [FrameStable.length_write_slots fits, held.length]
  · rw [writeSlots, List.append_assoc, List.take_append_of_le_length (by rw [List.length_take]; omega),
      List.take_take, Nat.min_eq_left region.1]
    exact held.locals
  · intro source slot place
    obtain ⟨other, there, inside, rfl⟩ := slot_found place
    have elsewhere := slot_layout there
    -- One node overwrites its own region only; the regions of two nodes do not meet.
    by_cases same : source.node = index
    · obtain rfl : other = node := Option.some.inj (there.symm.trans (same ▸ found))
      rw [write_slots_inside fits (by omega) (by omega), Nat.add_sub_cancel_left]
      simp only [Stackless.Store.setOutputs, same, if_true]
      rw [List.getElem?_eq_getElem (by omega), Option.getD_some]
    · have apart : other.base + other.outputs.length ≤ node.base ∨ node.base + node.outputs.length ≤ other.base := by
        cases Nat.lt_or_gt_of_ne same with
        | inl before => exact .inl (region_before laid elsewhere here before)
        | inr after => exact .inr (region_before laid here elsewhere after)
      rw [write_slots_outside fits (by omega), held.outputs source _ place]
      simp only [Stackless.Store.setOutputs, same, if_false]

end Holds

def Graph.unstacked (graph : Graph) : Graph := { graph with stack := [] }

def Body.unstacked (body : Body) : Body := { body with graph := body.graph.unstacked }

def Function.unstacked (function : Function) : Function := { function with body := function.body.unstacked }

def Env.unstacked {σ : Type} (env : Env σ) : Env σ := { env with functions := env.functions.map Function.unstacked }

def Env.Fresh {σ : Type} (env : Env σ) : Prop := ∀ function ∈ env.functions, function.body.graph.Fresh

variable {σ : Type}

/-- What lies outside is the same on both sides, but for the values that lie on the stacks of
functions between their calls. -/
structure Env.Alike (a b : Env σ) : Prop where
  vars : a.vars = b.vars
  functions : a.functions.map Function.unstacked = b.functions.map Function.unstacked
  callStack : a.callStack = b.callStack
  steps : a.steps = b.steps
  world : a.world = b.world
  trace : a.trace = b.trace
  fresh : a.Fresh

theorem alike_refl {env : Env σ} (fresh : env.Fresh) : env.Alike env := ⟨rfl, rfl, rfl, rfl, rfl, rfl, fresh⟩

variable {a b : Env σ} {α : Type} {graph : Graph} {node : Node} {run : Run σ} {state : Stackless.State σ}
  {act : Activate σ} {direct : Stackless.Activate σ} {body : Body} {runner : Runner σ}

theorem alike_unstacked (alike : a.Alike b) : a.unstacked = b.unstacked := by
  simp only [Env.unstacked, Env.mk.injEq]
  exact ⟨alike.vars, alike.functions, alike.callStack, alike.steps, alike.world, alike.trace⟩

theorem alike_note (alike : a.Alike b) (entry : TraceEntry) : (a.note entry).Alike (b.note entry) :=
  { alike with trace := congrArg (entry :: ·) alike.trace }

def Agrees {α S T : Type} (Rel : S → T → Prop) (a : Except ScriptError α × S) (b : Except ScriptError α × T) : Prop :=
  a.1 = b.1 ∧ Rel a.2 b.2

theorem agrees_cases {S T : Type} {Rel : S → T → Prop} {a : Except ScriptError α × S} {b : Except ScriptError α × T}
    (agrees : Agrees Rel a b) :
    (∃ cause s t, a = (.error cause, s) ∧ b = (.error cause, t) ∧ Rel s t) ∨
      (∃ value s t, a = (.ok value, s) ∧ b = (.ok value, t) ∧ Rel s t) := by
  obtain ⟨result, s⟩ := a
  obtain ⟨result', t⟩ := b
  obtain ⟨same, related⟩ := agrees
  cases same
  cases result with
  | error cause => exact .inl ⟨cause, s, t, rfl, rfl, related⟩
  | ok value => exact .inr ⟨value, s, t, rfl, rfl, related⟩

variable (limits : Limits) (arguments : List Value) (host : Host σ)

theorem alike_step (alike : a.Alike b) :
    Agrees Env.Alike (a.step limits) (b.step limits) := by
  unfold Env.step
  rw [alike.steps]
  exact ⟨rfl, { alike with steps := rfl }⟩

structure Matches (graph : Graph) (run : Run σ) (state : Stackless.State σ) : Prop where
  progress : run.frame.progress = state.progress
  points : run.frame.returnPoints = state.returnPoints
  returned : run.frame.returned = state.returned
  store : Holds graph run.frame.stack state.store
  env : run.env.Alike state.env

def Graph.job (graph : Graph) (arguments : List Value) : Job := ⟨graph.nodes, graph.locals, arguments⟩

def Graph.plainJob (graph : Graph) (arguments : List Value) : Job := ⟨graph.nodes.map Node.plain, graph.locals, arguments⟩

theorem plain_job_node (graph : Graph) (arguments : List Value) (index : Nat) :
    (graph.plainJob arguments).nodes[index]? = ((graph.job arguments).nodes[index]?).map Node.plain := by
  simp [Graph.plainJob, Graph.job]

theorem plain_job_pulls (graph : Graph) (arguments : List Value) (source : Nat) :
    (graph.plainJob arguments).pulls source = (graph.job arguments).pulls source := by
  simp only [Job.pulls, plain_job_node, Option.map_map]
  rfl

theorem read_input_agrees (laid : graph.LaidOut)
    (pull : Nat → Run σ → Except ScriptError (Option Nat) × Run σ)
    (direct : Nat → Stackless.State σ → Except ScriptError (Option Nat) × Stackless.State σ)
    (pulls : ∀ source run state, Matches graph run state →
      Agrees (Matches graph) (pull source run) (direct source state))
    (depth : Nat) (inside : node ∈ graph.nodes) {pin : InputPin} (pinIn : pin ∈ node.inputs) (matched : Matches graph run state) :
    Agrees (Matches graph) (readInput limits (graph.job arguments) pull depth pin run)
      (Stackless.readInput limits (graph.plainJob arguments) direct depth pin.plain state) := by
  obtain ⟨resolved, slotted⟩ := laid_out_input laid inside pinIn
  unfold readInput Stackless.readInput
  cases source : pin.source with
  | none =>
    simp only [InputPin.plain, source]
    exact ⟨rfl, matched⟩
  | some source' =>
    rw [source] at resolved slotted
    obtain ⟨slot, placed⟩ := Option.isSome_iff_exists.mp (slotted rfl)
    have there : slotOf? graph.nodes source' = some slot := resolved.symm.trans placed
    have read : ∀ run state, Matches graph run state →
        ((run : Run σ).frame.stack[slot]?).getD .null =
          (state : Stackless.State σ).store.outputs source'.node source'.parameter := by
      intro run state matched
      rw [matched.store.outputs source' slot there, Option.getD_some]
    simp only [InputPin.plain, source, placed, plain_job_pulls]
    split
    · split
      · exact ⟨rfl, matched⟩
      · obtain ⟨cause, next, next', left, right, after⟩ | ⟨_, next, next', left, right, after⟩ :=
          agrees_cases (pulls source'.node run state matched)
        · rw [left, right]
          exact ⟨rfl, after⟩
        · rw [left, right]
          exact ⟨congrArg Except.ok (read next next' after), after⟩
    · exact ⟨congrArg Except.ok (read run state matched), matched⟩

theorem gather_agrees (laid : graph.LaidOut)
    (pull : Nat → Run σ → Except ScriptError (Option Nat) × Run σ)
    (direct : Nat → Stackless.State σ → Except ScriptError (Option Nat) × Stackless.State σ)
    (pulls : ∀ source run state, Matches graph run state →
      Agrees (Matches graph) (pull source run) (direct source state))
    (depth : Nat) (inside : node ∈ graph.nodes) (pins : List InputPin) (pinsIn : ∀ pin ∈ pins, pin ∈ node.inputs)
    (run : Run σ) (state : Stackless.State σ) (matched : Matches graph run state) :
    Agrees (Matches graph) (gather limits (graph.job arguments) pull depth pins run)
      (Stackless.gather limits (graph.plainJob arguments) direct depth (pins.map (·.plain)) state) := by
  induction pins generalizing run state with
  | nil => exact ⟨rfl, matched⟩
  | cons pin rest ih =>
    obtain ⟨pinIn, restIn⟩ := List.forall_mem_cons.mp pinsIn
    have first := read_input_agrees limits arguments laid pull direct pulls depth inside pinIn matched
    simp only [gather, List.map_cons, Stackless.gather]
    obtain ⟨cause, next, next', left, right, after⟩ | ⟨value, next, next', left, right, after⟩ := agrees_cases first
    · rw [left, right]
      exact ⟨rfl, after⟩
    · rw [left, right]
      obtain ⟨cause, last, last', left, right, done⟩ | ⟨values, last, last', left, right, done⟩ :=
        agrees_cases (ih restIn next next' after)
      · dsimp only
        rw [left, right]
        exact ⟨rfl, done⟩
      · dsimp only
        rw [left, right]
        exact ⟨rfl, done⟩

theorem read_variable_agrees (reference : Reference) (matched : Matches graph run state) :
    run.readVariable (graph.job arguments) reference = state.readVariable (graph.plainJob arguments) reference := by
  unfold Stackless.State.readVariable
  rw [Run.read_resolved, matched.env.vars]
  simp only [Graph.job, Graph.plainJob]
  cases resolved : reference.resolve? graph.locals state.env.vars with
  | none => rfl
  | some place =>
    obtain ⟨isLocal, index⟩ := place
    cases isLocal with
    | false => rfl
    | true =>
      dsimp only
      rw [matched.store.read_local (reference.resolve_local _ _ resolved)]

theorem write_variable_agrees (laid : graph.LaidOut) (reference : Reference)
    (value : Value) (matched : Matches graph run state) :
    (∃ cause, run.writeVariable (graph.job arguments) reference value = .error cause ∧
      state.writeVariable (graph.plainJob arguments) reference value = .error cause) ∨
    (∃ next next', run.writeVariable (graph.job arguments) reference value = .ok next ∧
      state.writeVariable (graph.plainJob arguments) reference value = .ok next' ∧ Matches graph next next') := by
  unfold Stackless.State.writeVariable
  rw [Run.write_resolved, matched.env.vars]
  simp only [Graph.job, Graph.plainJob]
  cases resolved : reference.resolve? graph.locals state.env.vars with
  | none => exact .inl ⟨_, rfl, rfl⟩
  | some place =>
    obtain ⟨isLocal, index⟩ := place
    cases isLocal with
    | false => exact .inr ⟨_, _, rfl, rfl, { matched with env := { matched.env with vars := rfl } }⟩
    | true =>
      have inside := reference.resolve_local _ _ resolved
      exact .inr ⟨_, _, rfl, rfl, { matched with store := matched.store.set_local laid inside _ }⟩

theorem consult_related (host : Host σ) (Rel : Env σ → Env σ → Prop) (worlds : ∀ a b, Rel a b → a.world = b.world)
    (changed : ∀ a b world, Rel a b → Rel { a with world := world } { b with world := world }) (call direct : Call σ)
    (calls : ∀ guid arguments a b, Rel a b → Agrees Rel (call guid arguments a) (direct guid arguments b))
    (kind : NodeKind) (inputs : List Value) (related : Rel a b) :
    Agrees Rel (consult host call kind inputs a) (consult host direct kind inputs b) := by
  unfold consult
  rw [worlds a b related]
  cases kind with
  | setMember =>
    dsimp only
    split
    · exact ⟨rfl, related⟩
    · exact ⟨rfl, changed a b _ related⟩
  | callNative =>
    dsimp only
    split
    · exact ⟨rfl, changed a b _ related⟩
    · exact ⟨rfl, changed a b _ related⟩
  | callFunction function =>
    dsimp only
    obtain ⟨cause, _, _, left, right, after⟩ | ⟨outputs, _, _, left, right, after⟩ :=
      agrees_cases (calls function inputs a b related)
    all_goals
      rw [left, right]
      exact ⟨rfl, after⟩
  | _ => exact ⟨rfl, related⟩

theorem consult_agrees (call direct : Call σ)
    (calls : ∀ guid arguments a b, Env.Alike a b → Agrees Env.Alike (call guid arguments a) (direct guid arguments b))
    (kind : NodeKind) (inputs : List Value) (alike : a.Alike b) :
    Agrees Env.Alike (consult host call kind inputs a) (consult host direct kind inputs b) :=
  consult_related host Env.Alike (fun _ _ alike => alike.world) (fun _ _ _ alike => { alike with world := rfl }) call direct
    calls kind inputs alike

theorem apply_effect_matches (index : Nat) (effect : Effect) (matched : Matches graph run state) :
    Matches graph { run with frame := run.frame.applyEffect index effect } (state.applyEffect index effect) := by
  refine { matched with progress := ?_, points := ?_ }
  · exact congrArg (List.set · index effect.progress) matched.progress
  · exact congrArg (effect.points.apply index ·) matched.points

theorem perform_agrees (call direct : Call σ)
    (calls : ∀ guid arguments a b, Env.Alike a b → Agrees Env.Alike (call guid arguments a) (direct guid arguments b))
    (arguments : List Value) (laid : graph.LaidOut) (index : Nat) (node : Node) (activation : Activation)
    (inputs : List Value) (matched : Matches graph run state) :
    Agrees (Matches graph) (perform host call (graph.job arguments) index node activation inputs run)
      (Stackless.perform host direct (graph.plainJob arguments) index node.plain activation inputs state) := by
  have progress : state.progressOf index = run.frame.progressOf index := by
    rw [Stackless.State.progressOf, Frame.progressOf, matched.progress]
  have effects : Effect.ofNode? node.plain activation (state.progressOf index) (graph.plainJob arguments).arguments inputs =
      Effect.ofNode? node activation (run.frame.progressOf index) (graph.job arguments).arguments inputs := by
    rw [progress]
    rfl
  unfold perform Stackless.perform
  rw [effects]
  cases applies : Effect.ofNode? node activation (run.frame.progressOf index) (graph.job arguments).arguments inputs with
  | some effect =>
    have after := apply_effect_matches index effect matched
    by_cases returns : node.kind = .functionReturn
    · simp only [Node.plain, returns, if_true]
      exact ⟨rfl, { after with returned := rfl }⟩
    · simp only [Node.plain, returns, if_false]
      exact ⟨rfl, after⟩
  | none =>
    simp only [Node.plain]
    cases node.kind with
    | getVariable reference =>
      exact ⟨congrArg (yieldOne none) (read_variable_agrees arguments reference matched), matched⟩
    | setVariable reference =>
      dsimp only
      obtain ⟨cause, left, right⟩ | ⟨next, next', left, right, after⟩ :=
        write_variable_agrees arguments laid reference (Node.input inputs 0) matched
      · rw [left, right]
        exact ⟨rfl, matched⟩
      · rw [left, right]
        exact ⟨congrArg (yieldOne (some 0)) (read_variable_agrees arguments reference after), after⟩
    | _ =>
      obtain ⟨same, after⟩ := consult_agrees host call direct calls _ inputs matched.env
      exact ⟨same, { matched with env := after }⟩

theorem store_outputs_agrees (laid : graph.LaidOut) {index : Nat} (found : graph.nodes[index]? = some node)
    (outputs : List Value) (matched : Matches graph run state) :
    Agrees (Matches graph) (storeOutputs index node outputs run) (Stackless.storeOutputs index node.plain outputs state) := by
  have plain : node.plain.outputs.length = node.outputs.length := rfl
  unfold storeOutputs Stackless.storeOutputs
  rw [plain]
  by_cases count : outputs.length = node.outputs.length
  · obtain ⟨fits, stored⟩ := matched.store.set_outputs laid found count
    have equal : ¬ outputs.length ≠ node.outputs.length := not_not_intro count
    rw [if_neg equal, if_neg equal, if_neg (Nat.not_lt_of_le fits)]
    exact ⟨rfl, { matched with store := stored }⟩
  · rw [if_pos count, if_pos count]
    exact ⟨rfl, matched⟩

theorem successor_plain (graph : Graph) (arguments : List Value) (index : Nat) (next : Option Nat) (points : List Nat) :
    successor (graph.plainJob arguments) index next points = successor (graph.job arguments) index next points := by
  have pins : ∀ pin, (graph.plainJob arguments).execPin? index pin = (graph.job arguments).execPin? index pin := by
    intro pin
    unfold Job.execPin?
    rw [plain_job_node]
    cases (graph.job arguments).nodes[index]? <;> rfl
  unfold successor
  simp only [pins]

def ActivateAgrees (act : Activate σ) (direct : Stackless.Activate σ) : Prop :=
  ∀ graph arguments index activation depth run state, graph.LaidOut → Matches graph run state →
    Agrees (Matches graph) (act (graph.job arguments) index activation depth run)
      (direct (graph.plainJob arguments) index activation depth state)

theorem follow_agrees (acts : ActivateAgrees act direct) (arguments : List Value) (laid : graph.LaidOut) (fuel index : Nat)
    (activation : Activation) (run : Run σ) (state : Stackless.State σ) (matched : Matches graph run state) :
    Agrees (Matches graph) (follow host act (graph.job arguments) fuel index activation run)
      (Stackless.follow host direct (graph.plainJob arguments) fuel index activation state) := by
  induction fuel generalizing index activation run state with
  | zero => exact ⟨rfl, matched⟩
  | succ fuel ih =>
    unfold follow Stackless.follow
    obtain ⟨cause, next, next', left, right, after⟩ | ⟨pin, next, next', left, right, after⟩ :=
      agrees_cases (acts graph arguments index activation 0 run state laid matched)
    · rw [left, right]
      exact ⟨rfl, after⟩
    · rw [left, right]
      dsimp only
      rw [successor_plain, after.points]
      cases successor (graph.job arguments) index pin next'.returnPoints with
      | error => exact ⟨rfl, after⟩
      | ok way =>
        cases way with
        | none => exact ⟨rfl, after⟩
        | some way => exact ih way.1 way.2 next next' after

def Graph.bare (graph : Graph) : Graph := ⟨graph.nodes.map Node.plain, graph.locals, [], graph.returnPoints, none⟩

theorem unstacked_fields {a b : Graph} (same : a.unstacked = b.unstacked) :
    a.nodes = b.nodes ∧ a.locals = b.locals ∧ a.returnPoints = b.returnPoints ∧ a.size = b.size := by
  simpa only [Graph.unstacked, Graph.mk.injEq, true_and] using same

theorem unstacked_bare {a b : Graph} (same : a.unstacked = b.unstacked) : a.bare = b.bare := by
  obtain ⟨nodes, locals, points, _⟩ := unstacked_fields same
  rw [Graph.bare, Graph.bare, nodes, locals, points]

theorem settle_bare (failed : Bool) (graph : Graph) (state : Stackless.State σ) :
    (state.settle failed graph).bare = state.settle failed graph.bare := by
  simp only [Graph.bare, Stackless.State.settle, List.map_zipWith, List.zipWith_map_left]
  rfl

/-- Without a stack a run sees no more of a graph than what is left without its layout. A view of
the graph that does not hide its progress shows the same of two such runs. -/
theorem stackless_run_bare (direct : Stackless.Activate σ) (start : Nat) (arguments : List Value)
    (view : Graph → Graph) (shows : ∀ failed graph (state : Stackless.State σ),
      view (state.settle failed graph) = state.settle failed (view graph))
    {a b : Graph} (bare : a.bare = b.bare) (same : view a = view b) (env : Env σ) :
    Agrees (fun left right => view left.1 = view right.1 ∧ left.2 = right.2)
      (Stackless.runWith host direct start arguments a env) (Stackless.runWith host direct start arguments b env) := by
  obtain ⟨nodes, locals, points⟩ :
      a.nodes.map Node.plain = b.nodes.map Node.plain ∧ a.locals = b.locals ∧ a.returnPoints = b.returnPoints := by
    simpa only [Graph.bare, Graph.mk.injEq, true_and, and_true] using bare
  have length : a.nodes.length = b.nodes.length := by simpa using congrArg List.length nodes
  have initial : Stackless.State.initial a env = Stackless.State.initial b env := by
    have progress : ∀ graph : Graph, graph.nodes.map (·.progress) = (graph.nodes.map Node.plain).map (·.progress) := by
      intro graph
      rw [List.map_map]
      rfl
    rw [Stackless.State.initial, Stackless.State.initial, progress a, progress b, nodes, locals, points]
  unfold Stackless.runWith
  rw [length, nodes, locals, initial]
  split
  · exact ⟨rfl, same, rfl⟩
  · dsimp only
    split
    · exact ⟨rfl, by rw [shows, shows, same], rfl⟩
    · exact ⟨rfl, by rw [shows, shows, same], rfl⟩

structure GraphsAlike (left right : Graph × Env σ) : Prop where
  graph : left.1.unstacked = right.1.unstacked
  env : left.2.Alike right.2

theorem run_with_agrees (acts : ActivateAgrees act direct) (start : Nat) (arguments : List Value) (laid : graph.LaidOut) (alike : a.Alike b) :
    Agrees GraphsAlike (graph.runWith host act start arguments a)
      (Stackless.runWith host direct start arguments graph b) := by
  unfold Graph.runWith Stackless.runWith
  split
  · exact ⟨rfl, rfl, alike⟩
  · have sized := laid.size
    have ready : graph.prepare = (.ok (), { graph with
        stack := Graph.initialStack graph.locals (graph.locals.length + widths graph.layouts) }) := by
      simp only [Graph.prepare, sized]
    rw [ready]
    have begun : Matches graph ⟨⟨graph.nodes.map (·.progress),
        Graph.initialStack graph.locals (graph.locals.length + widths graph.layouts), graph.returnPoints, none⟩, a⟩
        (Stackless.State.initial graph b) :=
      ⟨rfl, rfl, rfl, Holds.initial laid _ sized, alike⟩
    have settled : ∀ failed run (state : Stackless.State σ), Matches graph run state →
        (graph.absorb run.frame failed).unstacked = (state.settle failed graph).unstacked := by
      intro failed run state matched
      simp only [Graph.unstacked, Graph.absorb, Stackless.State.settle, matched.progress, matched.points]
    obtain ⟨cause, run, state, left, right, after⟩ | ⟨last, run, state, left, right, after⟩ := agrees_cases
      (follow_agrees host acts arguments laid (host.limits.maxSteps + 1) start (.entered 0) _ _ begun)
    · simp only [Graph.job, Graph.plainJob] at left right
      simp only [Graph.frame, left, right]
      exact ⟨rfl, settled true run state after, after.env⟩
    · simp only [Graph.job, Graph.plainJob] at left right
      simp only [Graph.frame, left, right]
      exact ⟨by rw [after.returned], settled false run state after, after.env⟩

structure BodiesAlike (left right : Body × Env σ) : Prop where
  body : left.1.unstacked = right.1.unstacked
  fresh : left.1.graph.Fresh
  env : left.2.Alike right.2

def RunnerAgrees (runner direct : Runner σ) : Prop :=
  ∀ arguments graph graph' a b, entryNode < graph.nodes.length → graph.Fresh → graph.unstacked = graph'.unstacked →
    Env.Alike a b →
    Agrees GraphsAlike (runner arguments graph a) (direct arguments graph' b) ∧ (runner arguments graph a).2.1.Fresh

theorem runner_agrees {host : Host σ} {level : Nat}
    (acts : ActivateAgrees (activate host level) (Stackless.activate host level)) :
    RunnerAgrees (Graph.runWith host (activate host level) entryNode)
      (Stackless.runner host (Stackless.activate host level)) := by
  intro arguments graph graph' a b there fresh same alike
  refine ⟨?_, run_with_fresh host level entryNode arguments a fresh⟩
  obtain ⟨_, _, _, size⟩ := unstacked_fields same
  unfold Stackless.runner
  by_cases compiled : graph.isCompiled = true
  · have counted : graph'.isCompiled = true := by rwa [Graph.isCompiled, ← size]
    rw [if_pos counted]
    obtain ⟨result, left⟩ := run_with_agrees host acts entryNode arguments (fresh compiled) alike
    obtain ⟨result', graphs, envs⟩ := stackless_run_bare host (Stackless.activate host level) entryNode arguments
      Graph.unstacked (fun _ _ _ => rfl) (unstacked_bare same) same b
    exact ⟨result.trans result', left.graph.trans graphs, envs ▸ left.env⟩
  · have refused : ¬ graph'.isCompiled = true := by rwa [Graph.isCompiled, ← size]
    have unsized : graph.size = none := by simpa [Graph.isCompiled] using compiled
    rw [if_neg refused, Graph.runWith, if_neg (Nat.not_le_of_lt there), Graph.prepare, unsized]
    exact ⟨rfl, same, alike⟩

theorem check_structure_entry (checked : body.checkStructure = .ok ()) :
    entryNode < body.graph.nodes.length := by
  cases found : body.graph.nodes[entryNode]? with
  | some node => exact (List.getElem?_eq_some_iff.mp found).1
  | none => simp [Body.checkStructure, expectKind, found, bind, Except.bind] at checked

theorem call_with_agrees {direct : Runner σ} (runners : RunnerAgrees runner direct) (arguments : List Value)
    (body' : Body) (same : body.unstacked = body'.unstacked) (fresh : body.graph.Fresh) (alike : a.Alike b) :
    Agrees BodiesAlike (body.callWith runner arguments a) (body'.callWith direct arguments b) := by
  obtain ⟨graph, inputs, outputs⟩ := body
  obtain ⟨graph', inputs', outputs'⟩ := body'
  obtain ⟨graphs, rfl, rfl⟩ : graph.unstacked = graph'.unstacked ∧ inputs = inputs' ∧ outputs = outputs' := by
    simpa only [Body.unstacked, Body.mk.injEq] using same
  obtain ⟨nodes, _⟩ := unstacked_fields graphs
  have structures : (Body.mk graph' inputs outputs).checkStructure = (Body.mk graph inputs outputs).checkStructure := by
    simp only [Body.checkStructure, expectKind, nodes]
  have rebuilt : ∀ left right : Graph, left.unstacked = right.unstacked →
      (Body.mk left inputs outputs).unstacked = (Body.mk right inputs outputs).unstacked := by
    intro left right same
    simp only [Body.unstacked, same]
  unfold Body.callWith
  rw [structures]
  cases checked : (Body.mk graph inputs outputs).checkStructure with
  | error => exact ⟨rfl, same, fresh, alike⟩
  | ok done =>
    dsimp only
    split
    · exact ⟨rfl, same, fresh, alike⟩
    · obtain ⟨agrees, stays⟩ := runners arguments graph graph' a b (check_structure_entry checked) fresh graphs alike
      obtain ⟨cause, next, next', left, right, after⟩ | ⟨outcome, next, next', left, right, after⟩ :=
        agrees_cases agrees
      all_goals
        rw [left] at stays ⊢
        rw [right]
        exact ⟨rfl, rebuilt _ _ after.graph, stays, after.env⟩

theorem all_set (items : List α) (P : α → Prop) (position : Nat) (item : α)
    (all : ∀ entry ∈ items, P entry) (own : P item) : ∀ entry ∈ items.set position item, P entry := by
  intro entry member
  cases List.mem_or_eq_of_mem_set member with
  | inl old => exact all entry old
  | inr new => exact new ▸ own

theorem with_body_unstacked {a b : Function} (same : a.unstacked = b.unstacked) {left right : Body}
    (bodies : left.unstacked = right.unstacked) :
    ({ a with body := left } : Function).unstacked = ({ b with body := right } : Function).unstacked := by
  obtain ⟨guids, names, _⟩ : a.guid = b.guid ∧ a.name = b.name ∧ a.body.unstacked = b.body.unstacked := by
    simpa only [Function.unstacked, Function.mk.injEq] using same
  simp only [Function.unstacked, guids, names, bodies]

theorem call_function_agrees {direct : Runner σ} (runners : RunnerAgrees runner direct)
    (guid : Guid) (arguments : List Value) (a b : Env σ) (alike : a.Alike b) :
    Agrees Env.Alike (callFunctionWith limits runner guid arguments a)
      (callFunctionWith limits direct guid arguments b) := by
  have places : a.functions.findIdx? (·.guid == guid) = b.functions.findIdx? (·.guid == guid) := by
    have guids : ∀ functions : List Function, functions.findIdx? (·.guid == guid) =
        (functions.map Function.unstacked).findIdx? (·.guid == guid) := by
      intro functions
      rw [List.findIdx?_map]
      rfl
    rw [guids a.functions, guids b.functions, alike.functions]
  unfold callFunctionWith
  rw [alike.callStack, places]
  split
  · exact ⟨rfl, alike⟩
  · split
    · exact ⟨rfl, alike⟩
    · cases b.functions.findIdx? (·.guid == guid) with
      | none => exact ⟨rfl, alike⟩
      | some position =>
        have entries := congrArg (·[position]?) alike.functions
        simp only [List.getElem?_map] at entries
        dsimp only
        cases ours : a.functions[position]? with
        | none =>
          rw [ours, Option.map_none] at entries
          rw [Option.map_eq_none_iff.mp entries.symm]
          exact ⟨rfl, alike⟩
        | some callee =>
          rw [ours, Option.map_some] at entries
          obtain ⟨callee', theirs, same⟩ := Option.map_eq_some_iff.mp entries.symm
          rw [theirs]
          dsimp only
          have inside : Env.Alike
              { a with functions := a.functions.set position Function.placeholder, callStack := guid :: b.callStack }
              { b with functions := b.functions.set position Function.placeholder, callStack := guid :: b.callStack } :=
            { alike with
              functions := by simp only [List.map_set, alike.functions]
              callStack := rfl
              fresh := all_set _ _ _ _ alike.fresh (uncompile_fresh _) }
          have member : callee ∈ a.functions := List.mem_of_getElem? ours
          obtain ⟨result, after⟩ := call_with_agrees runners arguments callee'.body
            (congrArg Function.body same).symm (alike.fresh callee member) inside
          exact ⟨result, { after.env with
            functions := by simp only [List.map_set, after.env.functions, with_body_unstacked same.symm after.body]
            callStack := congrArg List.tail after.env.callStack
            fresh := all_set _ _ _ _ after.env.fresh after.fresh }⟩

theorem activate_agrees (level : Nat) :
    ActivateAgrees (activate host level) (Stackless.activate host level) := by
  induction level with
  | zero => exact fun _ _ _ _ _ _ _ _ matched => ⟨rfl, matched⟩
  | succ level ih =>
    intro graph arguments index activation depth run state laid matched
    unfold activate Stackless.activate
    obtain ⟨cause, env, env', left, right, counted⟩ | ⟨_, env, env', left, right, counted⟩ :=
      agrees_cases (alike_step host.limits matched.env)
    · rw [left, right]
      exact ⟨rfl, { matched with env := counted }⟩
    · rw [left, right, plain_job_node]
      dsimp only
      cases found : (graph.job arguments).nodes[index]? with
      | none => exact ⟨rfl, { matched with env := counted }⟩
      | some node =>
        have inside : node ∈ graph.nodes := List.mem_of_getElem? found
        have begun : Matches graph ((run.withEnv env).note (.began ⟨env.callStack, index, activation⟩))
            ((state.withEnv env').note (.began ⟨env'.callStack, index, activation⟩)) := by
          rw [counted.callStack]
          exact { matched with env := alike_note counted _ }
        have gathered := gather_agrees host.limits arguments laid (pullAt host level (graph.job arguments) depth)
          (fun source state => Stackless.activate host level (graph.plainJob arguments) source .pulled (depth + 1) state)
          (fun source run state => ih graph arguments source .pulled (depth + 1) run state laid)
          depth inside node.inputs (fun _ member => member) _ _ begun
        dsimp only [Option.map_some]
        obtain ⟨cause, ready, ready', left, right, after⟩ | ⟨inputs, ready, ready', left, right, after⟩ :=
          agrees_cases gathered
        · simp only [Node.plain, left, right]
          exact ⟨rfl, after⟩
        · have performed := perform_agrees host _ _
            (call_function_agrees host.limits (runner_agrees ih)) arguments laid index node
            activation inputs after
          have inputs' : node.plain.inputs = node.inputs.map (·.plain) := rfl
          rw [inputs', left, right]
          dsimp only
          obtain ⟨cause, done, done', left, right, after⟩ | ⟨given, done, done', left, right, after⟩ :=
            agrees_cases performed
          · rw [left, right]
            exact ⟨rfl, after⟩
          · rw [left, right]
            dsimp only
            obtain ⟨cause, last, last', left, right, after⟩ | ⟨_, last, last', left, right, after⟩ :=
              agrees_cases (store_outputs_agrees laid found given.1 after)
            · rw [left, right]
              exact ⟨rfl, after⟩
            · rw [left, right, counted.callStack]
              exact ⟨rfl, { after with env := alike_note after.env _ }⟩

theorem linked_bare (graph : Graph) : graph.linked.bare = graph.bare := by
  have nodes : graph.linked.nodes.map Node.plain = graph.nodes.map Node.plain := by
    apply List.ext_getElem?
    intro index
    simp only [Graph.linked, List.getElem?_map, placed_get]
    cases graph.nodes[index]? with
    | none => rfl
    | some node =>
      simp only [Option.map_some, Node.plain, Node.linked, List.map_map]
      rfl
  rw [Graph.bare, nodes]
  rfl

/-- A compiled graph runs on its stack as the graph runs without one: with the same result, the same
notes on every activation and the same effects outside, and it comes as far. -/
theorem compile_preserves_meaning (host : Host σ) (graph compiled : Graph) (start : Nat) (arguments : List Value)
    (env : Env σ) (compiles : graph.compile = (.ok (), compiled)) (fresh : env.Fresh) :
    (compiled.run host start arguments env).1 = (Stackless.run host start arguments graph env).1 ∧
      (compiled.run host start arguments env).2.1.bare = (Stackless.run host start arguments graph env).2.1.bare ∧
      (compiled.run host start arguments env).2.2.unstacked = (Stackless.run host start arguments graph env).2.2.unstacked ∧
      (compiled.run host start arguments env).2.2.trace = (Stackless.run host start arguments graph env).2.2.trace := by
  have laid := compile_laid_out graph compiled compiles
  obtain ⟨_, rfl⟩ := (compile_ok_iff graph compiled).mp compiles
  have acts := activate_agrees host (host.limits.maxSteps + 1)
  obtain ⟨result, left⟩ := run_with_agrees host acts start arguments laid (alike_refl fresh)
  obtain ⟨result', graphs, envs⟩ := stackless_run_bare host (Stackless.activate host (host.limits.maxSteps + 1)) start
    arguments Graph.bare settle_bare (linked_bare graph) (linked_bare graph) env
  have outside := envs ▸ left.env
  exact ⟨result.trans result', (unstacked_bare left.graph).trans graphs, alike_unstacked outside, outside.trace⟩

/-- A loop that calls a function on its index. -/
theorem compile_preserves_meaning_of_calls :
    let echo := (Edit.connect 0 0 1 0 (Edit.connectExec 0 0 1 0 (Body.fresh [⟨"x", .int⟩] [⟨"y", .int⟩]).graph).2).2
    let function : Function := ⟨Guid.zero, "Echo", ⟨echo.compile.2, [⟨"x", .int⟩], [⟨"y", .int⟩]⟩⟩
    let nodes := ((Graph.empty.addNode (Node.functionEntry [])).addNode Node.forLoop).addNode
      (Node.callFunction Guid.zero "Echo" [⟨"x", .int⟩] [⟨"y", .int⟩])
    let wired := (Edit.connect 1 0 2 0 (Edit.connectExec 1 0 2 0 (Edit.connectExec 0 0 1 0 nodes).2).2).2
    let graph := (Edit.setLiteral 1 1 (.int 2) wired).2
    let host : Host Unit := ⟨Catalog.empty, none, ⟨100, 4, 4⟩⟩
    let env := Env.start [] [function] ()
    graph.compile.1.isOk = true ∧ (graph.compile.2.run host 0 [] env).1.isOk = true ∧
      (graph.compile.2.run host 0 [] env).2.2.trace.length = 28 ∧
      (graph.compile.2.run host 0 [] env).2.2.trace = (Stackless.run host 0 [] graph env).2.2.trace := by
  intro echo function nodes wired graph host env
  have fresh : env.Fresh := by
    intro entry member
    obtain rfl : entry = function := by simpa [env, Env.start] using member
    exact compile_fresh echo
  exact ⟨by decide +kernel, by decide +kernel, by decide +kernel,
    (compile_preserves_meaning host graph graph.compile.2 0 [] env rfl fresh).2.2.2⟩

end Patchbay
