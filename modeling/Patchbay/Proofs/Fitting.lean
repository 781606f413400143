import Patchbay.Proofs.Arity
import Patchbay.Proofs.Assembly
import Patchbay.Proofs.InRange
import Patchbay.Proofs.Traversal

set_option autoImplicit false

namespace Patchbay

open Effect

variable {σ : Type}

def ScriptError.isMisfit : ScriptError → Bool
  | .outputCountMismatch _ _ _ | .pinNotFound _ _ | .notCompiled => true
  | _ => false

theorem ScriptError.outside_fits (cause : ScriptError) (outside : cause.isOutside = true) : cause.isMisfit = false := by
  cases cause with
  | outputCountMismatch | pinNotFound | notCompiled => cases outside
  | _ => rfl

/-- What the function of this key gives are as many values as it is said to have outputs. -/
def Host.Honours (host : Host σ) (info : FunctionInfo) : Prop :=
  ∀ inputs world outputs after, host.catalog.invoke info.key inputs world = (.ok outputs, after) →
    outputs.length = info.outputs.length

structure Node.Takes (node : Node) (outputs : List Value) (next : Option Nat) : Prop where
  outputs : outputs.length = node.outputs.length
  next : ∀ pin, next = some pin → pin < node.execOut.length

section Effects

structure Effect.Counts (values exits : Nat) (effect : Effect) : Prop where
  outputs : effect.outputs.length = values
  next : ∀ pin, effect.next = some pin → pin < exits

theorem branch_counts (inputs : List Value) : (branch inputs).Counts 0 2 := by
  refine ⟨rfl, fun pin goes => ?_⟩
  cases goes
  split <;> decide

theorem sequence_counts (count : Nat) (activation : Activation) (progress : Progress) :
    (sequence count activation progress).Counts 0 count := by
  have turns (next : Nat) (points : PointChange) : Effect.Counts 0 count
      (if next < count then ⟨[], some next, .stepping (next + 1), points⟩ else ⟨[], none, .stepping next, .release⟩) := by
    by_cases inside : next < count
    · rw [if_pos inside]
      exact ⟨rfl, fun pin goes => by cases goes; exact inside⟩
    · rw [if_neg inside]
      exact ⟨rfl, fun pin goes => by cases goes⟩
  exact turns _ _

theorem for_loop_counts (activation : Activation) (progress : Progress) (inputs : List Value) :
    (forLoop activation progress inputs).Counts 1 2 := by
  unfold forLoop
  split
  · split <;> exact ⟨rfl, fun pin goes => by cases goes; decide⟩
  · exact ⟨rfl, fun pin goes => by cases goes; decide⟩

theorem for_each_counts (activation : Activation) (progress : Progress) (inputs : List Value) :
    (forEach activation progress inputs).Counts 2 2 := by
  unfold forEach
  split
  · split <;> exact ⟨rfl, fun pin goes => by cases goes; decide⟩
  · exact ⟨rfl, fun pin goes => by cases goes; decide⟩

theorem while_loop_counts (activation : Activation) (progress : Progress) (inputs : List Value) :
    (whileLoop activation progress inputs).Counts 0 2 := by
  unfold whileLoop
  split <;> exact ⟨rfl, fun pin goes => by cases goes; decide⟩

theorem switch_counts {pins : List ExecPin} (first : 0 < pins.length) (inputs : List Value) :
    (switch pins inputs).Counts 0 pins.length := by
  refine ⟨rfl, fun pin goes => ?_⟩
  cases goes
  cases found : pins.findIdx? fun pin => (pin.case.map (·.accepts (Node.input inputs 0))).getD false with
  | none => exact first
  | some => exact (List.findIdx?_eq_some_iff_getElem.mp found).1

theorem cast_counts (target : PinType) (inputs : List Value) : (Effect.cast target inputs).Counts 1 2 := by
  unfold Effect.cast
  split <;> exact ⟨rfl, fun pin goes => by cases goes; decide⟩

theorem implicit_cast_counts (target : PinType) (inputs : List Value) : (implicitCast target inputs).Counts 2 0 := by
  unfold implicitCast
  split <;> exact ⟨rfl, fun pin goes => by cases goes⟩

end Effects

def NodeKind.isStart : NodeKind → Bool
  | .functionEntry | .receiveEvent _ _ => true
  | _ => false

theorem NodeKind.start_pins (kind : NodeKind) (isStart : kind.isStart = true) :
    kind.entrances = 0 ∧ kind.exits = 1 ∧ kind.takesTurns = false := by
  cases kind with
  | functionEntry | receiveEvent => exact ⟨rfl, rfl, rfl⟩
  | _ => cases isStart

variable {node : Node} {activation : Activation} {inputs : List Value} {next : Option Nat}

theorem effect_taken (known : FunctionInfo → Prop) (fitted : node.Fitted known)
    {progress : Progress} {arguments : List Value} {effect : Effect}
    (started : node.kind.isStart = true → arguments.length = node.outputs.length)
    (applies : ofNode? node activation progress arguments inputs = some effect) : node.Takes effect.outputs effect.next := by
  have counts (count needed : Nat) (told : node.outputs.length = count) (room : needed ≤ node.execOut.length)
      (fits : effect.Counts count needed) : node.Takes effect.outputs effect.next :=
    ⟨fits.outputs.trans told.symm, fun pin leaves => Nat.lt_of_lt_of_le (fits.next pin leaves) room⟩
  have exits := fitted.exits
  have tells := fitted.outputs
  unfold ofNode? at applies
  cases kind : node.kind with
  | functionEntry | receiveEvent =>
    rw [kind] at exits started applies
    cases applies
    refine ⟨started rfl, fun pin leaves => ?_⟩
    cases leaves
    exact exits
  | functionReturn =>
    rw [kind] at tells applies
    cases applies
    exact counts 0 0 (tells 0 rfl) (Nat.zero_le _) ⟨rfl, fun pin leaves => by cases leaves⟩
  | branch =>
    rw [kind] at exits tells applies
    cases applies
    exact counts 0 2 (tells 0 rfl) exits (branch_counts inputs)
  | sequence =>
    rw [kind] at tells applies
    cases applies
    exact counts 0 _ (tells 0 rfl) (Nat.le_refl _) (sequence_counts _ activation progress)
  | forLoop =>
    rw [kind] at exits tells applies
    cases applies
    exact counts 1 2 (tells 1 rfl) exits (for_loop_counts activation progress inputs)
  | forEach =>
    rw [kind] at exits tells applies
    cases applies
    exact counts 2 2 (tells 2 rfl) exits (for_each_counts activation progress inputs)
  | whileLoop =>
    rw [kind] at exits tells applies
    cases applies
    exact counts 0 2 (tells 0 rfl) exits (while_loop_counts activation progress inputs)
  | switch =>
    rw [kind] at exits tells applies
    cases applies
    exact counts 0 _ (tells 0 rfl) (Nat.le_refl _) (switch_counts exits inputs)
  | cast target =>
    rw [kind] at exits tells applies
    cases applies
    exact counts 1 2 (tells 1 rfl) exits (cast_counts target inputs)
  | implicitCast target =>
    rw [kind] at tells applies
    cases applies
    exact counts 2 0 (tells 2 rfl) (Nat.zero_le _) (implicit_cast_counts target inputs)
  | makeArray =>
    rw [kind] at tells applies
    cases applies
    exact counts 1 0 (tells 1 rfl) (Nat.zero_le _) ⟨rfl, fun pin leaves => by cases leaves⟩
  | _ =>
    rw [kind] at applies
    cases applies

theorem yield_one {pin : Option Nat} {result : Except ScriptError Value} (outputs : List Value)
    (yields : yieldOne next result = .ok (outputs, pin)) : outputs.length = 1 ∧ pin = next := by
  cases result with
  | error => cases yields
  | ok =>
    cases yields
    exact ⟨rfl, rfl⟩

theorem performed_taken {host : Host σ} {call : Call σ} {job : Job} {index : Nat}
    (fitted : node.Fitted host.Honours) {outputs : List Value}
    {run given : Run σ} (started : node.kind.isStart = true → job.arguments.length = node.outputs.length)
    (called : ∀ guid values after, node.kind = .callFunction guid → call guid inputs run.env = (.ok values, after) →
      values.length = node.outputs.length)
    (performed : perform host call job index node activation inputs run = (.ok (outputs, next), given)) :
    node.Takes outputs next := by
  have exits := fitted.exits
  have tells := fitted.outputs
  have quiet (pin : Nat) (none : (none : Option Nat) = some pin) : pin < node.execOut.length := by cases none
  have first (room : 1 ≤ node.execOut.length) (pin : Nat) (zero : some 0 = some pin) : pin < node.execOut.length := by
    cases zero
    exact room
  cases applies : ofNode? node activation (run.frame.progressOf index) job.arguments inputs with
  | some =>
    obtain ⟨rfl, rfl, _⟩ := perform_effect host call job index node activation inputs applies performed
    exact effect_taken host.Honours fitted started applies
  | none =>
    rw [perform, applies] at performed
    dsimp only at performed
    cases kind : node.kind with
    | getVariable =>
      rw [kind] at tells performed
      obtain ⟨one, rfl⟩ := yield_one outputs (congrArg Prod.fst performed)
      exact ⟨one.trans (tells 1 rfl).symm, quiet⟩
    | setVariable =>
      rw [kind] at exits tells performed
      dsimp only at performed
      split at performed
      · cases performed
      · obtain ⟨one, rfl⟩ := yield_one outputs (congrArg Prod.fst performed)
        exact ⟨one.trans (tells 1 rfl).symm, first exits⟩
    | getMember | selfReference | getComponent =>
      rw [kind] at tells performed
      obtain ⟨one, rfl⟩ := yield_one outputs (congrArg Prod.fst performed)
      exact ⟨one.trans (tells 1 rfl).symm, quiet⟩
    | setMember =>
      rw [kind] at exits tells performed
      dsimp only [consult] at performed
      split at performed
      · cases performed
      · cases performed
        exact ⟨(tells 1 rfl).symm, first exits⟩
    | callNative key isPure =>
      obtain ⟨info, honours, rfl, count⟩ := fitted.native key isPure kind
      rw [kind] at exits performed
      dsimp only [consult] at performed
      split at performed
      · next values world invoked =>
          cases performed
          refine ⟨(honours inputs run.env.world outputs world invoked).trans count.symm, fun pin leaves => ?_⟩
          cases isPure with
          | true => cases leaves
          | false => exact first exits pin leaves
      · cases performed
    | callFunction guid =>
      rw [kind] at exits performed
      dsimp only [consult] at performed
      split at performed
      · next values after answered =>
          cases performed
          exact ⟨called guid outputs after kind answered, first exits⟩
      · cases performed
    | _ =>
      rw [ofNode?, kind] at applies
      cases applies

def Graph.Meets (functions : List Function) (graph : Graph) : Prop :=
  ∀ node ∈ graph.nodes, ∀ guid, node.kind = .callFunction guid → ∀ callee, functions.find? (·.guid == guid) = some callee →
    node.outputs.length = callee.body.outputs.length

theorem meets_wiped {graph : Graph} {before after : List Function}
    (same : before.map Function.wiped = after.map Function.wiped) (meets : graph.Meets before) : graph.Meets after := by
  intro node inside guid kind callee found
  have alike := congrArg (List.find? fun function => function.guid == guid) same
  rw [List.find?_map, List.find?_map] at alike
  have twin : (before.find? (·.guid == guid)).map Function.wiped = some callee.wiped :=
    alike.trans (congrArg (Option.map Function.wiped) found)
  obtain ⟨original, there, wiped⟩ := Option.map_eq_some_iff.mp twin
  have outputs : original.wiped.body.outputs = callee.wiped.body.outputs := by rw [wiped]
  refine Eq.trans ?_ (congrArg List.length outputs)
  exact meets node inside guid kind original there

structure Poised (graph : Graph) (frame : Frame) : Prop where
  held : Held graph frame
  disciplined : Disciplined graph.nodes frame

theorem poised_stable (graph : Graph) (arguments : List Value) :
    FrameStable (graph.job arguments) (fun _ _ => True) fun a b => Poised graph a → Poised graph b where
  refl _ := id
  trans first second := second ∘ first
  pulls _ _ := trivial
  effect frame index node activation inputs effect _ found applies poised :=
    ⟨(held_stable graph arguments).effect frame index node activation inputs effect trivial found applies poised.held,
      (disciplined_stable (graph.job arguments)).effect frame index node activation inputs effect trivial found applies
        poised.disciplined⟩
  returned frame values poised :=
    ⟨(held_stable graph arguments).returned frame values poised.held,
      (disciplined_stable (graph.job arguments)).returned frame values poised.disciplined⟩
  stack frame stack same poised :=
    ⟨(held_stable graph arguments).stack frame stack same poised.held,
      (disciplined_stable (graph.job arguments)).stack frame stack same poised.disciplined⟩

section Runs

variable (host : Host σ) (graph : Graph) (start : Nat) (arguments : List Value)

/-- An entry or an event is come to as the start alone. -/
def Graph.Admits (index : Nat) : Prop :=
  ∀ node, graph.nodes[index]? = some node → node.kind.isStart = true → index = start

def Stage.Belongs : Stage σ → Prop
  | .activates _ job index _ _ run | .follows _ job _ index _ run =>
    job = graph.job arguments ∧ graph.Admits start index ∧ Poised graph run.frame
  | .reads _ job _ _ run => job = graph.job arguments ∧ Poised graph run.frame
  | .calls _ guid _ _ => ∃ node ∈ graph.nodes, node.kind = .callFunction guid
  | .enters _ _ _ _ => False
  | .runs _ first values other _ => first = start ∧ values = arguments ∧ other = graph

variable (fitted : ∀ node ∈ graph.nodes, node.Fitted host.Honours)

include fitted in
theorem pulled_admits {source : Nat} (implicit : (graph.job arguments).pulls source = true) : graph.Admits start source := by
  intro node found isStart
  have none : node.isImplicit = true := by
    rwa [Job.pulls, show (graph.job arguments).nodes[source]? = some node from found, Option.map_some, Option.getD_some] at implicit
  have exits := (fitted node (List.mem_of_getElem? found)).exits
  obtain ⟨_, empty⟩ := Bool.and_eq_true_iff.mp none
  rw [List.isEmpty_iff.mp empty, (node.kind.start_pins isStart).2.1] at exits
  cases exits

variable (sound : graph.Sound) (laid : graph.LaidOut)

include fitted laid in
theorem successor_admits {index node : Nat} {next : Option Nat} {frame : Frame} (poised : Poised graph frame) {way : Activation}
    (leads : successor (graph.job arguments) index next frame.returnPoints = .ok (some (node, way))) :
    graph.Admits start node := by
  intro other found isStart
  obtain ⟨origin, pin, exec, target, there, out, goes, rfl, rfl⟩ | ⟨_, member⟩ :=
    successor_ways leads
  · -- Control enters by an in-pin, and a start has none.
    obtain ⟨entered, here, inside⟩ := laid_out_enters laid index pin target ⟨origin, exec, there, out, goes⟩
    cases found.symm.trans here
    have shaped := (fitted other (List.mem_of_getElem? found)).shaped
    rw [shaped, (other.kind.start_pins isStart).1] at inside
    cases inside
  · obtain ⟨awaiting, here, awaits⟩ := poised.disciplined.awaited node member
    cases found.symm.trans here
    have turns := awaits_takes_turns awaits
    rw [(other.kind.start_pins isStart).2.2] at turns
    cases turns

include fitted sound laid in
theorem set_off_belongs {outer inner : Stage σ} (leads : SetsOff host outer [] inner)
    (belongs : outer.Belongs graph start arguments) : inner.Belongs graph start arguments := by
  have stable := poised_stable graph arguments
  have pulls (level depth source : Nat) (run : Run σ) (_ : (graph.job arguments).pulls source = true) :=
    stable.activate host level source .pulled (depth + 1) run trivial
  cases leads with
  | reads => exact ⟨belongs.1, belongs.2.2⟩
  | calls _ _ _ _ _ _ _ _ node _ function _ found _ kind =>
    obtain ⟨rfl, _⟩ := belongs
    exact ⟨node, List.mem_of_getElem? found, kind⟩
  | pulls _ _ _ _ _ _ source _ _ _ implicit _ =>
    obtain ⟨rfl, poised⟩ := belongs
    exact ⟨rfl, pulled_admits host graph start arguments fitted implicit, poised⟩
  | next level _ depth pin _ run ready _ read =>
    obtain ⟨rfl, poised⟩ := belongs
    have kept := stable.read_input host.limits _ depth pin run (pulls level depth)
    rw [read] at kept
    exact ⟨rfl, kept poised⟩
  | enters => exact belongs.elim
  | begins _ _ _ _ ready _ _ prepared =>
    obtain ⟨rfl, rfl, rfl⟩ := belongs
    have held := (prepared_held sound prepared).2
    have disciplined := (prepared_disciplined sound.rests prepared).1
    obtain ⟨size, _, rfl⟩ := prepare_ok prepared
    exact ⟨rfl, fun _ _ _ => rfl, held, disciplined⟩
  | visits => exact belongs
  | goes level _ _ index activation run after next node way acted leads =>
    obtain ⟨rfl, _, poised⟩ := belongs
    have kept := stable.activate host level index activation 0 run trivial
    rw [acted] at kept
    exact ⟨rfl, successor_admits host graph start arguments fitted laid (kept poised) leads, kept poised⟩

theorem set_off_meets {outer inner : Stage σ} (leads : SetsOff host outer [] inner) (meets : graph.Meets outer.env.functions) :
    graph.Meets inner.env.functions := by
  obtain ⟨_, kept⟩ | ⟨_, _, _, _, _, _, _, opened, _⟩ := (undisturbed_stable host).set_off leads
  · exact meets_wiped kept.functions meets
  · cases opened

variable (env : Env σ) (meets : graph.Meets env.functions)

include fitted sound laid meets in
theorem within_belongs (level : Nat) (calls : List ActiveCall) (part : Stage σ)
    (within : Within host (.runs level start arguments graph env) calls part) (own : calls = []) :
    part.Belongs graph start arguments ∧ graph.Meets part.env.functions := by
  induction within with
  | whole => exact ⟨⟨rfl, rfl, rfl⟩, meets⟩
  | part calls opened outer inner _ leads ih =>
    obtain ⟨rfl, rfl⟩ := List.append_eq_nil_iff.mp own
    obtain ⟨belongs, still⟩ := ih rfl
    exact ⟨set_off_belongs host graph start arguments fitted sound laid leads belongs,
      set_off_meets host graph leads still⟩

include fitted sound laid meets in
/-- Only a call of the graph leads into a function. -/
theorem within_calls (level : Nat) (calls : List ActiveCall) (part : Stage σ)
    (within : Within host (.runs level start arguments graph env) calls part) :
    calls = [] ∨ ∃ node ∈ graph.nodes, ∃ guid, node.kind = .callFunction guid := by
  induction within with
  | whole => exact .inl rfl
  | part calls opened outer inner within leads ih =>
    obtain rfl | found := ih
    · obtain ⟨belongs, _⟩ := within_belongs host graph start arguments fitted sound laid env meets level [] outer within rfl
      cases leads with
      | takes level guid =>
        obtain ⟨node, inside, kind⟩ := belongs
        exact .inr ⟨node, inside, guid, kind⟩
      | _ => exact .inl rfl
    · exact .inr found

variable (given : ∀ node, graph.nodes[start]? = some node → node.kind.isStart = true →
  arguments.length = node.outputs.length)

include fitted given in
theorem activation_taken (level : Nat) (job : Job) (index : Nat) (activation : Activation) (depth : Nat)
    (run ready left : Run σ) (counted : Env σ) (node : Node) (inputs outputs : List Value) (next : Option Nat)
    (belongs : (Stage.activates (level + 1) job index activation depth run).Belongs graph start arguments)
    (meets : graph.Meets run.env.functions)
    (readied : Readied host level job index activation depth run counted node inputs ready)
    (performed : perform host (callAt host level) job index node activation inputs ready = (.ok (outputs, next), left)) :
    graph.nodes[index]? = some node ∧ node.Takes outputs next ∧ Poised graph left.frame := by
  obtain ⟨rfl, admits, poised⟩ := belongs
  have found : graph.nodes[index]? = some node := readied.found
  have inside := List.mem_of_getElem? found
  refine ⟨found, ?_, ?_⟩
  · refine performed_taken (fitted node inside)
      (fun isStart => given node (admits node found isStart ▸ found) isStart) (fun guid values after kind called => ?_) performed
    -- When the function is called, the functions are still those that the calls meet.
    have leads : SetsOff host (.activates (level + 1) (graph.job arguments) index activation depth run) []
        (.calls level guid inputs ready.env) :=
      .calls level _ index activation depth run ready counted node inputs guid readied.counted readied.found readied.gathered kind
    have still : graph.Meets ready.env.functions := set_off_meets host graph leads meets
    obtain ⟨place, callee, _, first, there, count⟩ := call_gives called
    refine count.trans (still node inside guid kind callee ?_).symm
    rw [List.find?_eq_bind_findIdx?_getElem?, first]
    exact there
  · have stable := poised_stable graph arguments
    have read := stable.gather host.limits (pullAt host level (graph.job arguments) depth) depth node.inputs
      ((run.withEnv counted).note (.began ⟨counted.callStack, index, activation⟩))
      fun source run _ => stable.activate host level source .pulled (depth + 1) run trivial
    rw [readied.gathered] at read
    have worked := stable.perform host (callAt host level) activation inputs ready trivial found
    rw [performed] at worked
    exact worked (read poised)

theorem stores_taken {index : Nat} {node : Node} (found : graph.nodes[index]? = some node) {outputs : List Value}
    {next : Option Nat} (takes : node.Takes outputs next) (laid : graph.LaidOut) {run : Run σ} (held : Held graph run.frame) :
    ∃ after, storeOutputs index node outputs run = (.ok (), after) := by
  have region := region_inside laid (slot_layout found)
  simp only [Node.layout] at region
  have size := held.stack
  have same := takes.outputs
  have room : ¬ run.frame.stack.length < node.base + outputs.length := by omega
  rw [storeOutputs, if_neg (not_not_intro same), if_neg room]
  exact ⟨_, rfl⟩

include fitted laid given in
theorem misfits_elsewhere (compiled : graph.isCompiled = true) (part : Stage σ) (belongs : part.Belongs graph start arguments)
    (meets : graph.Meets part.env.functions) (cause : ScriptError) (misfit : cause.isMisfit = true) :
    ¬ Originates host cause part := by
  intro originates
  cases originates with
  | outside _ _ _ _ _ _ _ outside =>
    rw [cause.outside_fits outside] at misfit
    cases misfit
  | stores _ level job index activation depth run ready given' left counted node inputs outputs next readied performed refused =>
    obtain ⟨found, takes, poised⟩ := activation_taken host graph start arguments fitted given level job index activation depth
      run ready given' counted node inputs outputs next belongs meets readied performed
    obtain ⟨after, stored⟩ := stores_taken graph found takes laid poised.held
    cases stored.symm.trans refused
  | unprepared _ _ _ _ _ left _ refused =>
    obtain ⟨_, _, rfl⟩ := belongs
    rw [Graph.isCompiled] at compiled
    obtain ⟨size, sized⟩ := Option.isSome_iff_exists.mp compiled
    rw [Graph.prepare, sized] at refused
    cases refused
  | stuck _ level job fuel index activation run after next acted refused =>
    cases level with
    | zero => cases acted
    | succ level =>
      obtain ⟨counted, node, inputs, ready, outputs, left, stored, steps, found, gathered, performed, _, _⟩ :=
        activate_ok acted
      obtain ⟨here, takes, _⟩ := activation_taken host graph start arguments fitted given level job index activation 0 run
        ready left counted node inputs outputs next belongs meets ⟨steps, found, gathered⟩ performed
      unfold successor Job.execPin? at refused
      rw [found] at refused
      cases next with
      | none => cases refused
      | some pin =>
        dsimp only at refused
        rw [List.getElem?_eq_getElem (takes.next pin rfl)] at refused
        dsimp only at refused
        split at refused <;> cases refused
  | misshapen => exact belongs
  | _ => cases misfit

end Runs

/-- A graph that is put together from nodes as they are made, whatever is done to it in between, fits together when it runs,
if its calls have the outputs of their functions, native functions give what they say, and a start gets the arguments that it
hands on. Every activation of the run gives a value for each output of its node and goes on at a pin that exists, and no error
of a graph that does not fit comes up in it. So the run fails with such an error only where it came up in a function that was
called, and not at all if there are no calls. -/
theorem assembled_runs_fit (host : Host σ) (graph : Graph) (start : Nat) (arguments : List Value) (env : Env σ)
    (assembled : graph.Assembled host.Honours) (compiled : graph.isCompiled = true) (meets : graph.Meets env.functions)
    (given : ∀ node, graph.nodes[start]? = some node → node.kind.isStart = true → arguments.length = node.outputs.length) :
    let whole : Stage σ := .runs (host.limits.maxSteps + 1) start arguments graph env
    (∀ level job index activation depth run counted node inputs ready outputs next left,
      Within host whole [] (.activates (level + 1) job index activation depth run) →
      Readied host level job index activation depth run counted node inputs ready →
      perform host (callFunctionWith host.limits (Graph.runWith host (activate host level) entryNode)) job index node activation
        inputs ready = (.ok (outputs, next), left) →
      graph.nodes[index]? = some node ∧ outputs.length = node.outputs.length ∧
        ∀ pin, next = some pin → pin < node.execOut.length) ∧
    (∀ cause part, cause.isMisfit = true → Within host whole [] part → ¬ Originates host cause part) ∧
    (∀ cause, cause.isMisfit = true → (graph.run host start arguments env).1 = .error cause →
      (∃ node ∈ graph.nodes, ∃ guid, node.kind = .callFunction guid) ∧
        ∃ calls part, calls ≠ [] ∧ Within host whole calls part ∧ Originates host cause part) := by
  intro whole
  have built := assembled_built host.Honours graph assembled
  have fitted := assembled_fitted host.Honours graph assembled
  have sound : graph.Sound := ⟨built_fresh graph built, built_at_rest graph built⟩
  have laid := sound.fresh compiled
  have parts := within_belongs host graph start arguments fitted sound laid env meets (host.limits.maxSteps + 1)
  have elsewhere (cause : ScriptError) (part : Stage σ) (misfit : cause.isMisfit = true) (within : Within host whole [] part) :
      ¬ Originates host cause part := by
    obtain ⟨belongs, still⟩ := parts [] part within rfl
    exact misfits_elsewhere host graph start arguments fitted laid given compiled part belongs still cause misfit
  refine ⟨?_, elsewhere, ?_⟩
  · intro level job index activation depth run counted node inputs ready outputs next left within readied performed
    obtain ⟨belongs, still⟩ := parts [] _ within rfl
    obtain ⟨found, takes, _⟩ := activation_taken host graph start arguments fitted given level job index activation depth run
      ready left counted node inputs outputs next belongs still readied performed
    exact ⟨found, takes.outputs, takes.next⟩
  · intro cause misfit failed
    obtain ⟨calls, part, within, originates⟩ := failure_originates host cause whole (congrArg failureOf failed)
    have deeper : calls ≠ [] := by
      rintro rfl
      exact elsewhere cause part misfit within originates
    obtain none | found := within_calls host graph start arguments fitted sound laid env meets _ calls part within
    · exact absurd none deeper
    · exact ⟨found, calls, part, deeper, within, originates⟩

def tally : FunctionInfo := ⟨"tally", "Tally", "Test", false, none, [⟨"Index", .int⟩], [⟨"Sum", .int⟩]⟩

def tallying : Host Unit := ⟨Catalog.empty.register ⟨tally, fun _ _ => (.ok [.int 7], ())⟩, none, ⟨100, 4, 4⟩⟩

theorem tally_honoured : tallying.Honours tally := by
  intro inputs world outputs after invoked
  have found : tallying.catalog.find? tally.key = some ⟨tally, fun _ _ => (.ok [.int 7], ())⟩ := rfl
  rw [Catalog.invoke, found] at invoked
  dsimp only at invoked
  split at invoked
  · cases invoked
  · cases invoked
    rfl

/-- An event starts a sequence of two: a loop that tallies, and a cast that leads on to a switch and from there to a function.
The sequence and the switch have got a pin, the switch the type of the event's number, and the cast another target. -/
def ticker : Graph :=
  let made := [Factory.receiveEvent "Tick" none [⟨"Count", .int⟩], .sequence 1, .forLoop, .callNative tally, .cast .int,
    .switch .any, .callFunction ⟨1⟩ "Ask" [] [⟨"Answer", .bool⟩]].foldl
    (fun graph factory => graph.addNode (factory.build.placedAt (Float32.ofBits 0) (Float32.ofBits 0))) Graph.empty
  [Operation.addOutput 1, .addOutput 5, .setLiteral 4 castTypePin (.string "String"), .connect 0 0 2 1, .connect 2 0 3 0,
    .connect 3 0 4 0, .connect 0 0 5 0, .connectExec 0 0 1 0, .connectExec 1 0 2 0, .connectExec 2 0 3 0, .connectExec 1 1 4 0,
    .connectExec 4 0 5 0, .connectExec 4 1 5 0, .connectExec 5 0 6 0, .compile].foldl Operation.apply made

theorem ticker_assembled : ticker.Assembled tallying.Honours := by
  refine edits_assembled _ rfl _ (makes_assembled _ _ (fun info inside => ?_) _ .empty)
  obtain rfl : info = tally := by simpa using inside
  exact tally_honoured

/-- The function is not compiled, which only comes out where it is called. -/
theorem ticker_fits :
    let env : Env Unit := Env.start [] [⟨⟨1⟩, "Ask", Body.fresh [] [⟨"Answer", .bool⟩]⟩] ()
    let whole : Stage Unit := .runs 101 0 [.int 2] ticker env
    ticker.Assembled tallying.Honours ∧ ticker.isCompiled = true ∧ ticker.Meets env.functions ∧
      failureOf (ticker.run tallying 0 [.int 2] env).1 = some .notCompiled ∧
      (∀ part, Within tallying whole [] part → ¬ Originates tallying .notCompiled part) ∧
      ∃ calls part, calls ≠ [] ∧ Within tallying whole calls part ∧ Originates tallying .notCompiled part := by
  intro env whole
  have compiled : ticker.isCompiled = true := by decide +kernel
  have meets : ticker.Meets env.functions := by
    have calls : ∀ node ∈ ticker.nodes, node.kind = .callFunction ⟨1⟩ ∧ node.outputs.length = 1 ∨ node.kind.isStart = true ∨
        node.kind.follows = false := by decide +kernel
    intro node inside guid kind callee found
    obtain ⟨same, one⟩ | starts | other := calls node inside
    · cases same.symm.trans kind
      cases found
      exact one
    · rw [kind] at starts
      cases starts
    · rw [kind] at other
      cases other
  have count : (ticker.nodes[0]?).map (·.outputs.length) = some 1 := by decide +kernel
  have failed : failureOf (ticker.run tallying 0 [.int 2] env).1 = some .notCompiled := by decide +kernel
  obtain ⟨_, elsewhere, inside⟩ := assembled_runs_fit tallying ticker 0 [.int 2] env ticker_assembled compiled meets
    fun node found _ => by
      rw [found] at count
      exact (Option.some.inj count).symm
  exact ⟨ticker_assembled, compiled, meets, failed, fun part => elsewhere .notCompiled part rfl,
    (inside .notCompiled rfl (failure_of_error failed)).2⟩

end Patchbay
