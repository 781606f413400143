import Patchbay.Proofs.Independence
import Patchbay.Proofs.Stages
import Patchbay.Script.Run

set_option autoImplicit false

namespace Patchbay

variable {σ : Type}

theorem uncompiled_unrun (host : Host σ) (act : Activate σ) (start : Nat) (arguments : List Value) (graph : Graph)
    (env : Env σ) (uncompiled : graph.size = none) : (graph.runWith host act start arguments env).2.1 = graph := by
  unfold Graph.runWith Graph.prepare
  rw [uncompiled]
  split <;> rfl

/-- Two surroundings with the same calls under way and the same functions, but for what runs left behind in them. A place that
is empty is still empty. -/
structure Undisturbed (a b : Env σ) : Prop where
  stack : b.callStack = a.callStack
  functions : a.functions.map Function.wiped = b.functions.map Function.wiped
  empty : ∀ place : Nat, a.functions[place]? = some Function.placeholder → b.functions[place]? = some Function.placeholder

theorem undisturbed_stable (host : Host σ) :
    EnvStable host (fun a b => a.wiped = b.wiped ∧ (a.size = none → b = a)) Undisturbed where
  refl _ := ⟨rfl, rfl, fun _ => id⟩
  trans first second :=
    ⟨second.stack.trans first.stack, first.functions.trans second.functions, fun place => second.empty place ∘ first.empty place⟩
  counted _ _ := ⟨rfl, rfl, fun _ => id⟩
  noted _ _ := ⟨rfl, rfl, fun _ => id⟩
  assigned _ _ _ := ⟨rfl, rfl, fun _ => id⟩
  changed _ _ _ := ⟨rfl, rfl, fun _ => id⟩
  still _ := ⟨rfl, fun _ => rfl⟩
  ran level arguments graph env :=
    ⟨(wiped_stable host).ran level arguments graph env, uncompiled_unrun host _ entryNode arguments graph env⟩
  called env after guid position callee graph idle found there ran kept := by
    refine ⟨(balanced_stable host).called env after guid position callee graph idle found there trivial kept.stack,
      (wiped_stable host).called env after guid position callee graph idle found there ran.1 kept.functions, ?_⟩
    intro place empty
    by_cases same : place = position
    · -- An empty place holds no compiled graph, so that the call leaves it as it was.
      subst same
      obtain rfl : callee = Function.placeholder := Option.some.inj (there.symm.trans empty)
      have inside : place < after.functions.length := by
        have lengths := congrArg List.length kept.functions
        simp only [List.length_map, List.length_set] at lengths
        exact lengths ▸ (List.getElem?_eq_some_iff.mp there).1
      rw [List.getElem?_set_self inside, ran.2 rfl]
    · have other := kept.empty place (by simpa [List.getElem?_set_ne (Ne.symm same)] using empty)
      rwa [List.getElem?_set_ne (Ne.symm same)]

theorem after_undisturbed (host : Host σ) (part : Stage σ) : Undisturbed part.env (part.after host) := by
  have stable := undisturbed_stable host
  cases part with
  | activates level job index activation depth run => exact stable.activate level job index activation depth run
  | reads level job depth pins run =>
    exact stable.gather host.limits job _ depth pins run fun source run => stable.activate level job source .pulled (depth + 1) run
  | calls level guid arguments env => exact stable.call_function level (stable.activate level) guid arguments env
  | enters level arguments body env =>
    obtain ⟨_, _, _, kept⟩ := stable.call_with level (stable.activate level) arguments body env
    exact kept
  | runs level start arguments graph env => exact stable.run_with _ (stable.activate level) start arguments graph env
  | follows level job fuel index activation run => exact stable.follow _ (stable.activate level) job fuel index activation run

/-- What lies outside the graphs when a part sets another off: it has been kept since, unless the part is a call that takes
its function out. -/
theorem EnvStable.set_off {host : Host σ} {Ran : Graph → Graph → Prop} {Kept : Env σ → Env σ → Prop}
    (stable : EnvStable host Ran Kept) {outer inner : Stage σ} {opened : List ActiveCall}
    (leads : SetsOff host outer opened inner) :
    opened = [] ∧ Kept outer.env inner.env ∨
      ∃ guid place callee, guid ∉ outer.env.callStack ∧ outer.env.callStack.length < host.limits.maxCallDepth ∧
        outer.env.functions.findIdx? (·.guid == guid) = some place ∧ outer.env.functions[place]? = some callee ∧
        opened = [⟨guid, place⟩] ∧ inner.env = outer.env.without guid place := by
  have counts : ∀ (run : Run σ) (env : Env σ) entry, run.env.step host.limits = (.ok (), env) →
      Kept run.env ((run.withEnv env).note entry).env := by
    intro run env entry counted
    have stepped : Kept run.env (run.env.step host.limits).2 := stable.counted run.env _
    rw [counted] at stepped
    exact stable.trans stepped (stable.noted env entry)
  have pulls : ∀ level job depth source (run : Run σ),
      Kept run.env (Patchbay.activate host level job source .pulled (depth + 1) run).2.env :=
    fun level job depth source run => stable.activate level job source .pulled (depth + 1) run
  cases leads with
  | reads level job index activation depth run env node counted _ => exact .inl ⟨rfl, counts run env _ counted⟩
  | calls level job index activation depth run ready env node inputs function counted _ gathered _ =>
    have read := stable.gather host.limits job _ depth node.inputs
      ((run.withEnv env).note (.began ⟨env.callStack, index, activation⟩)) (pulls level job depth)
    rw [gathered] at read
    exact .inl ⟨rfl, stable.trans (counts run env _ counted) read⟩
  | next level job depth pin rest run ready value read =>
    have kept := stable.read_input host.limits job _ depth pin run (pulls level job depth)
    rw [read] at kept
    exact .inl ⟨rfl, kept⟩
  | goes level job fuel index activation run after next node way acted _ =>
    have kept := stable.activate level job index activation 0 run
    rw [acted] at kept
    exact .inl ⟨rfl, kept⟩
  | takes level guid arguments env place callee idle shallow found there =>
    exact .inr ⟨guid, place, callee, idle, shallow, found, there, rfl, rfl⟩
  | pulls | enters | begins | visits => exact .inl ⟨rfl, stable.refl _⟩

theorem first_place_iff (functions : List Function) (guid : Guid) (place : Nat) :
    functions.findIdx? (·.guid == guid) = some place ↔
      (functions[place]?).map (·.guid) = some guid ∧ ∀ earlier < place, (functions[earlier]?).map (·.guid) ≠ some guid := by
  rw [List.findIdx?_eq_some_iff_getElem]
  constructor
  · rintro ⟨within, named, first⟩
    refine ⟨by simpa [within] using named, fun earlier before => ?_⟩
    have inside := Nat.lt_trans before within
    simpa [inside] using first earlier before
  · rintro ⟨named, first⟩
    obtain ⟨function, there, same⟩ := Option.map_eq_some_iff.mp named
    obtain ⟨within, spot⟩ := List.getElem?_eq_some_iff.mp there
    refine ⟨within, by simp [spot, same], fun earlier before => ?_⟩
    have inside := Nat.lt_trans before within
    simpa [inside] using first earlier before

/-- The calls under way in an execution that began with these functions and none of them active. The places of the active
calls are empty, and every other place holds its own function. An active call took the first function with its identifier out;
only the identifier that is all zero may have led to a place that was empty before. -/
structure InCalls (limits : Limits) (functions : List Function) (calls : List ActiveCall) (env : Env σ) : Prop where
  stack : env.callStack = calls.map (·.guid)
  distinct : env.callStack.Nodup
  bounded : env.callStack.length ≤ limits.maxCallDepth
  length : env.functions.length = functions.length
  taken : ∀ call ∈ calls, env.functions[call.place]? = some Function.placeholder
  others : ∀ place : Nat, place ∉ calls.map (·.place) →
    (env.functions[place]?).map Function.wiped = (functions[place]?).map Function.wiped
  owned : ∀ call ∈ calls, ∃ owner ∈ calls, owner.place = call.place ∧
    functions.findIdx? (·.guid == owner.guid) = some owner.place
  own : ∀ call ∈ calls, call.guid ≠ Guid.zero → functions.findIdx? (·.guid == call.guid) = some call.place

namespace InCalls

variable {limits : Limits} {functions : List Function} {calls : List ActiveCall} {env other : Env σ}

theorem start (env : Env σ) (idle : env.callStack = []) : InCalls limits env.functions [] env where
  stack := idle
  distinct := idle ▸ List.nodup_nil
  bounded := by simp [idle]
  length := rfl
  taken _ member := absurd member List.not_mem_nil
  others _ _ := rfl
  owned _ member := absurd member List.not_mem_nil
  own _ member := absurd member List.not_mem_nil

theorem undisturbed (inside : InCalls limits functions calls env) (same : Undisturbed env other) :
    InCalls limits functions calls other where
  stack := same.stack.trans inside.stack
  distinct := same.stack ▸ inside.distinct
  bounded := same.stack ▸ inside.bounded
  length := by
    have lengths := congrArg List.length same.functions
    simp only [List.length_map] at lengths
    exact lengths.symm.trans inside.length
  taken call member := same.empty call.place (inside.taken call member)
  others place free := by
    have alike := congrArg (·[place]?) same.functions
    simp only [List.getElem?_map] at alike
    exact alike.symm.trans (inside.others place free)
  owned := inside.owned
  own := inside.own

variable {place : Nat} {guid : Guid}

theorem active_at (inside : InCalls limits functions calls env) (empty : place ∈ calls.map (·.place))
    (named : (functions[place]?).map (·.guid) = some guid) : guid ∈ env.callStack := by
  obtain ⟨call, member, rfl⟩ := List.mem_map.mp empty
  obtain ⟨owner, among, same, first⟩ := inside.owned call member
  obtain ⟨named', _⟩ := (first_place_iff functions owner.guid owner.place).mp first
  rw [same, named] at named'
  rw [inside.stack, Option.some.inj named']
  exact List.mem_map_of_mem among

theorem guid_at (inside : InCalls limits functions calls env) (free : place ∉ calls.map (·.place)) :
    (env.functions[place]?).map (·.guid) = (functions[place]?).map (·.guid) := by
  have same := congrArg (Option.map Function.guid) (inside.others place free)
  rw [Option.map_map, Option.map_map] at same
  exact same

theorem guid_at_empty (inside : InCalls limits functions calls env) (empty : place ∈ calls.map (·.place)) :
    (env.functions[place]?).map (·.guid) = some Guid.zero := by
  obtain ⟨call, member, rfl⟩ := List.mem_map.mp empty
  rw [inside.taken call member]
  rfl

theorem lookup (inside : InCalls limits functions calls env) (idle : guid ∉ env.callStack)
    (found : env.functions.findIdx? (·.guid == guid) = some place) :
    guid = Guid.zero ∧ place ∈ calls.map (·.place) ∨
      place ∉ calls.map (·.place) ∧ functions.findIdx? (·.guid == guid) = some place := by
  rw [first_place_iff] at found ⊢
  obtain ⟨named, first⟩ := found
  by_cases empty : place ∈ calls.map (·.place)
  · rw [inside.guid_at_empty empty] at named
    exact .inl ⟨(Option.some.inj named).symm, empty⟩
  · refine .inr ⟨empty, inside.guid_at empty ▸ named, fun earlier before named' => ?_⟩
    by_cases gone : earlier ∈ calls.map (·.place)
    · exact idle (inside.active_at gone named')
    · exact first earlier before ((inside.guid_at gone).trans named')

theorem taken_out (inside : InCalls limits functions calls env) (idle : guid ∉ env.callStack)
    (shallow : env.callStack.length < limits.maxCallDepth) {callee : Function}
    (found : env.functions.findIdx? (·.guid == guid) = some place) (there : env.functions[place]? = some callee) :
    InCalls limits functions (⟨guid, place⟩ :: calls) (env.without guid place) := by
  have within : place < env.functions.length := (List.getElem?_eq_some_iff.mp there).1
  have looked := inside.lookup idle found
  constructor
  case stack => exact congrArg (guid :: ·) inside.stack
  case distinct => exact List.nodup_cons.mpr ⟨idle, inside.distinct⟩
  case bounded => exact shallow
  case length => exact (List.length_set ..).trans inside.length
  case taken =>
    intro call member
    by_cases same : call.place = place
    · rw [same]
      exact List.getElem?_set_self within
    · obtain rfl | later := List.mem_cons.mp member
      · exact absurd rfl same
      · exact (List.getElem?_set_ne (Ne.symm same)).trans (inside.taken call later)
  case others =>
    intro other free
    obtain ⟨apart, free⟩ : other ≠ place ∧ other ∉ calls.map (·.place) := by simpa using free
    exact (congrArg _ (List.getElem?_set_ne (Ne.symm apart))).trans (inside.others other free)
  case owned =>
    intro call member
    obtain rfl | later := List.mem_cons.mp member
    · obtain ⟨_, empty⟩ | ⟨_, first⟩ := looked
      · obtain ⟨call, among, same⟩ := List.mem_map.mp empty
        obtain ⟨owner, among, spot, first⟩ := inside.owned call among
        exact ⟨owner, List.mem_cons_of_mem _ among, spot.trans same, first⟩
      · exact ⟨_, List.mem_cons_self, rfl, first⟩
    · obtain ⟨owner, among, rest⟩ := inside.owned call later
      exact ⟨owner, List.mem_cons_of_mem _ among, rest⟩
  case own =>
    intro call member named
    obtain rfl | later := List.mem_cons.mp member
    · obtain ⟨zero, _⟩ | ⟨_, first⟩ := looked
      · exact absurd zero named
      · exact first
    · exact inside.own call later named

/-- Every part keeps the discipline for those that it sets off: a call takes its function out, and all else leaves the
functions and the calls alone. -/
theorem set_off {host : Host σ} {outer inner : Stage σ} {opened : List ActiveCall} (leads : SetsOff host outer opened inner)
    (inside : InCalls host.limits functions calls outer.env) : InCalls host.limits functions (opened ++ calls) inner.env := by
  obtain ⟨rfl, kept⟩ | ⟨guid, place, callee, idle, shallow, found, there, rfl, without⟩ :=
    (undisturbed_stable host).set_off leads
  · exact inside.undisturbed kept
  · rw [without]
    exact inside.taken_out idle shallow found there

end InCalls

theorem within_in_calls {host : Host σ} {whole part : Stage σ} (idle : whole.env.callStack = []) {calls : List ActiveCall}
    (within : Within host whole calls part) : InCalls host.limits whole.env.functions calls part.env := by
  induction within with
  | whole => exact .start whole.env idle
  | part calls opened outer inner _ leads ih => exact .set_off leads ih

/-- In every moment of an execution the active calls are distinct and within the limit, and it is their functions that are
taken out. A call leaves with the same calls under way and all functions back, however it ends. A part of the execution fails
with a recursive call exactly if it comes to the call of a function that is active, which is refused. -/
theorem calls_disciplined (host : Host σ) (whole : Stage σ) (idle : whole.env.callStack = []) :
    (∀ calls env, Moment host whole calls env → InCalls host.limits whole.env.functions calls env) ∧
    (∀ calls level guid arguments env, Within host whole calls (.calls level guid arguments env) →
      let outcome := callFunctionWith host.limits (Graph.runWith host (activate host level) entryNode) guid arguments env
      outcome.2.callStack = env.callStack ∧ outcome.2.functions.map Function.wiped = env.functions.map Function.wiped ∧
      (guid ∈ env.callStack → outcome = (.error (.recursiveCall guid), env))) ∧
    (∀ calls part guid, Within host whole calls part → (part.failure host = some (.recursiveCall guid) ↔
      ∃ further level arguments env, Within host part further (.calls level guid arguments env) ∧ guid ∈ env.callStack)) := by
  refine ⟨?_, ?_, ?_⟩
  · rintro calls env ⟨part, within, rfl | rfl⟩
    · exact within_in_calls idle within
    · exact (within_in_calls idle within).undisturbed (after_undisturbed host part)
  · intro calls level guid arguments env _ outcome
    have same := after_undisturbed host (.calls level guid arguments env)
    exact ⟨same.stack, same.functions.symm, reentry_refused host level guid arguments env⟩
  · intro calls part guid _
    rw [recursive_call_iff]
    constructor
    · rintro ⟨further, _, within, level, arguments, env, active⟩
      exact ⟨further, level, arguments, env, within, active⟩
    · rintro ⟨further, level, arguments, env, within, active⟩
      exact ⟨further, _, within, .call level arguments env active⟩

def callingBody (guid : Guid) : Body :=
  let graph := [Operation.addNode (Node.callFunction guid "Call" [] []), .connectExec 0 0 2 0, .connectExec 2 0 1 0,
    .compile].foldl Operation.apply (Body.fresh [] []).graph
  ⟨graph, [], []⟩

/-- Two functions that call each other. -/
theorem calls_disciplined_in_recursion :
    let host : Host Unit := ⟨Catalog.empty, none, ⟨100, 4, 4⟩⟩
    let env : Env Unit := Env.start [] [⟨⟨1⟩, "Ping", callingBody ⟨2⟩⟩, ⟨⟨2⟩, "Pong", callingBody ⟨1⟩⟩] ()
    let whole : Stage Unit := .calls 101 ⟨1⟩ [] env
    whole.env.callStack = [] ∧ whole.failure host = some (.recursiveCall ⟨1⟩) ∧
      ∃ calls level arguments inner, Within host whole calls (.calls level ⟨1⟩ arguments inner) ∧ ⟨1⟩ ∈ inner.callStack ∧
        InCalls host.limits env.functions calls inner ∧
        (callFunctionWith host.limits (Graph.runWith host (activate host level) entryNode) ⟨1⟩ arguments inner).1 =
          .error (.recursiveCall ⟨1⟩) := by
  intro host env whole
  obtain ⟨moments, returns, recursion⟩ := calls_disciplined host whole rfl
  have failed : whole.failure host = some (.recursiveCall ⟨1⟩) := by decide +kernel
  obtain ⟨calls, level, arguments, inner, within, active⟩ := (recursion [] whole ⟨1⟩ .whole).mp failed
  have refused := (returns calls level ⟨1⟩ arguments inner within).2.2 active
  exact ⟨rfl, failed, calls, level, arguments, inner, within, active, moments calls inner ⟨_, within, .inl rfl⟩,
    congrArg Prod.fst refused⟩

namespace InCalls

variable {limits : Limits} {functions : List Function} {calls : List ActiveCall} {env : Env σ}

theorem found (inside : InCalls limits functions calls env) {guid : Guid} (idle : guid ∉ env.callStack) {place : Nat}
    (first : functions.findIdx? (·.guid == guid) = some place)
    (clear : guid = Guid.zero → ∀ call ∈ calls, place ≤ call.place) :
    env.functions.findIdx? (·.guid == guid) = some place := by
  rw [first_place_iff] at first ⊢
  obtain ⟨named, first⟩ := first
  have free : place ∉ calls.map (·.place) := fun empty => idle (inside.active_at empty named)
  refine ⟨(inside.guid_at free).trans named, fun earlier before named' => ?_⟩
  by_cases empty : earlier ∈ calls.map (·.place)
  · rw [inside.guid_at_empty empty] at named'
    obtain ⟨call, member, rfl⟩ := List.mem_map.mp empty
    exact Nat.not_le_of_lt before (clear (Option.some.inj named').symm call member)
  · exact first earlier before ((inside.guid_at empty).symm.trans named')

/-- An empty place before the function with the identifier that is all zero comes first. -/
theorem shadowed (inside : InCalls limits functions calls env) (idle : Guid.zero ∉ env.callStack) {place : Nat}
    (first : functions.findIdx? (·.guid == Guid.zero) = some place) {call : ActiveCall} (member : call ∈ calls)
    (before : call.place < place) :
    ∃ empty, env.functions.findIdx? (·.guid == Guid.zero) = some empty ∧
      env.functions[empty]? = some Function.placeholder := by
  have named := inside.guid_at_empty (List.mem_map_of_mem member)
  cases looked : env.functions.findIdx? (·.guid == Guid.zero) with
  | none =>
    have absent := List.findIdx?_eq_none_iff.mp looked Function.placeholder (List.mem_of_getElem? (inside.taken call member))
    cases absent
  | some empty =>
    obtain ⟨_, gone⟩ | ⟨_, own⟩ := inside.lookup idle looked
    · obtain ⟨other, among, rfl⟩ := List.mem_map.mp gone
      exact ⟨other.place, rfl, inside.taken other among⟩
    · obtain rfl : empty = place := Option.some.inj (own.symm.trans first)
      exact absurd named (((first_place_iff _ _ _).mp looked).2 call.place before)

end InCalls

theorem placeholder_called (host : Host σ) (level : Nat) (arguments : List Value) (env : Env σ) :
    Function.placeholder.body.callWith (Graph.runWith host (activate host level) entryNode) arguments env =
      (.error (if arguments = [] then .notCompiled else .parameterCountMismatch 0 arguments.length), Function.placeholder.body,
        env) := by
  cases arguments <;> rfl

variable {host : Host σ} {guid : Guid} {env : Env σ} {place : Nat}

theorem empty_place_called (level : Nat) (arguments : List Value)
    (idle : guid ∉ env.callStack) (shallow : env.callStack.length < host.limits.maxCallDepth)
    (found : env.functions.findIdx? (·.guid == guid) = some place)
    (empty : env.functions[place]? = some Function.placeholder) :
    callFunctionWith host.limits (Graph.runWith host (activate host level) entryNode) guid arguments env =
      (.error (if arguments = [] then .notCompiled else .parameterCountMismatch 0 arguments.length), env) := by
  obtain ⟨within, same⟩ := List.getElem?_eq_some_iff.mp empty
  rw [call_function_found level arguments idle shallow found empty, placeholder_called]
  dsimp only [Env.without]
  rw [List.set_set, ← same, List.set_getElem_self, List.tail_cons]

/-- A call that finds its function sets off the body of that function, and gives what the body gives. -/
structure Finds (host : Host σ) (level : Nat) (guid : Guid) (arguments : List Value) (env : Env σ) (place : Nat)
    (callee : Function) : Prop where
  there : env.functions[place]? = some callee
  sets : ∀ opened inner, SetsOff host (.calls level guid arguments env) opened inner ↔
    opened = [⟨guid, place⟩] ∧ inner = .enters level arguments callee.body (env.without guid place)
  gives : (callFunctionWith host.limits (Graph.runWith host (activate host level) entryNode) guid arguments env).1 =
    (callee.body.callWith (Graph.runWith host (activate host level) entryNode) arguments (env.without guid place)).1

theorem call_finds (level : Nat) (arguments : List Value)
    (idle : guid ∉ env.callStack) (shallow : env.callStack.length < host.limits.maxCallDepth)
    {callee : Function} (found : env.functions.findIdx? (·.guid == guid) = some place)
    (there : env.functions[place]? = some callee) : Finds host level guid arguments env place callee := by
  refine ⟨there, fun opened inner => ⟨fun leads => ?_, ?_⟩, ?_⟩
  · cases leads with
    | takes _ _ _ _ other function _ _ found' there' =>
      obtain rfl : place = other := Option.some.inj (found.symm.trans found')
      obtain rfl : callee = function := Option.some.inj (there.symm.trans there')
      exact ⟨rfl, rfl⟩
  · rintro ⟨rfl, rfl⟩
    exact .takes level guid arguments env place callee idle shallow found there
  · rw [call_function_found level arguments idle shallow found there]

/-- A call inside others finds the function that a call from outside finds, as earlier runs left it: the first with its
identifier. Only the identifier that is all zero is also that of an empty place; if there is an empty place before the
function, the call fails. -/
theorem nested_calls_find_first_function (host : Host σ) (script : Script) (world : σ) (whole : Stage σ)
    (begins : whole.env = script.env world) (calls : List ActiveCall) (level : Nat) (guid : Guid) (arguments : List Value)
    (env : Env σ) (within : Within host whole calls (.calls level guid arguments env)) (idle : guid ∉ calls.map (·.guid))
    (shallow : calls.length < host.limits.maxCallDepth) (place : Nat) (function : Function)
    (first : script.functions.findIdx? (·.guid == guid) = some place) (there : script.functions[place]? = some function) :
    (∀ outside, Finds host outside guid arguments (script.env world) place function) ∧
      if guid = Guid.zero ∧ ∃ call ∈ calls, call.place < place then
        callFunctionWith host.limits (Graph.runWith host (activate host level) entryNode) guid arguments env =
          (.error (if arguments = [] then .notCompiled else .parameterCountMismatch 0 arguments.length), env)
      else ∃ callee, callee.wiped = function.wiped ∧ Finds host level guid arguments env place callee := by
  have inside := within_in_calls (by rw [begins]; rfl) within
  rw [begins] at inside
  have idle' : guid ∉ env.callStack := inside.stack ▸ idle
  have shallow' : env.callStack.length < host.limits.maxCallDepth := by
    rw [show env.callStack = calls.map (·.guid) from inside.stack, List.length_map]
    exact shallow
  refine ⟨fun outside => call_finds outside arguments List.not_mem_nil
    (Nat.lt_of_le_of_lt (Nat.zero_le _) shallow) first there, ?_⟩
  split
  · next hidden =>
      obtain ⟨rfl, call, member, before⟩ := hidden
      obtain ⟨empty, found, stands⟩ := inside.shadowed idle' first member before
      exact empty_place_called level arguments idle' shallow' found stands
  · next clear =>
      have free : place ∉ calls.map (·.place) := fun empty =>
        idle' (inside.active_at empty ((first_place_iff _ _ _).mp first).1)
      have found := inside.found idle' first fun zero call member =>
        Nat.le_of_not_lt fun before => clear ⟨zero, call, member, before⟩
      have same := inside.others place free
      rw [show (script.env world).functions = script.functions from rfl, there] at same
      obtain ⟨callee, there', alike⟩ := Option.map_eq_some_iff.mp same
      exact ⟨callee, alike, call_finds level arguments idle' shallow' found there'⟩

def nested (inner : Guid) : Script :=
  let passing : Body := ⟨(Edit.connectExec 0 0 1 0 (Body.fresh [] []).graph).2.compile.2, [], []⟩
  { Script.empty "Nested" with
    functions := [⟨⟨1⟩, "Outer", callingBody inner⟩, ⟨inner, "Inner", passing⟩]
    limits := some ⟨100, 4, 4⟩ }

theorem outer_calls_inner :
    let host : Host Unit := ⟨Catalog.empty, none, ⟨100, 4, 4⟩⟩
    ∃ env, Within host (.calls 3 ⟨1⟩ [] ((nested ⟨2⟩).env ())) [⟨⟨1⟩, 0⟩] (.calls 2 ⟨2⟩ [] env) := by
  intro host
  have taken : Within host _ _ _ := .part [] _ (.calls 3 ⟨1⟩ [] ((nested ⟨2⟩).env ())) _ .whole
    (.takes 3 ⟨1⟩ [] _ 0 _ (by decide) (by decide) rfl rfl)
  have entered := Within.part _ _ _ _ taken (.enters 3 [] _ _ rfl rfl)
  have begun := Within.part _ _ _ _ entered (.begins 3 0 [] _ _ _ (by decide) rfl)
  have gone := Within.part _ _ _ _ begun (.goes 3 _ _ 0 _ _ _ _ _ _ rfl rfl)
  have visited := Within.part _ _ _ _ gone (.visits 3 _ _ _ _ _)
  exact ⟨_, Within.part _ _ _ _ visited (.calls 2 _ _ _ _ _ _ _ _ _ _ rfl rfl rfl rfl)⟩

theorem nested_call_finds_inner :
    let host : Host Unit := ⟨Catalog.empty, none, ⟨100, 4, 4⟩⟩
    ∃ env callee, Within host (.calls 3 ⟨1⟩ [] ((nested ⟨2⟩).env ())) [⟨⟨1⟩, 0⟩] (.calls 2 ⟨2⟩ [] env) ∧
      callee.name = "Inner" ∧ Finds host 2 ⟨2⟩ [] env 1 callee := by
  intro host
  obtain ⟨env, within⟩ := outer_calls_inner
  obtain ⟨_, nested⟩ := nested_calls_find_first_function host (nested ⟨2⟩) () _ rfl _ 2 ⟨2⟩ [] env within (by decide)
    (by decide) 1 _ rfl rfl
  rw [if_neg (by decide)] at nested
  obtain ⟨callee, alike, finds⟩ := nested
  exact ⟨env, callee, within, (congrArg Function.name alike :), finds⟩

/-- The same with the identifier that is all zero: called from outside the function runs, called from the other it does
not. -/
theorem zero_function_hidden :
    let services : Services Unit := ⟨Catalog.empty, fun _ _ => none⟩
    (nested Guid.zero).functions.all (·.body.graph.isCompiled) = true ∧
      ((nested Guid.zero).call services Guid.zero [] ()).1 = .ok [] ∧
      ((nested Guid.zero).call services ⟨1⟩ [] ()).1 = .error .notCompiled :=
  ⟨by decide +kernel, rfl, rfl⟩

end Patchbay
