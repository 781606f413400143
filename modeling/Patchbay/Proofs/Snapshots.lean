import Patchbay.Event

set_option autoImplicit false

namespace Patchbay.Event

variable {η σ τ : Type}

/-- The numbers of the handlers grow in the order of subscription, and the next one is above them all. -/
structure Numbered (event : Event η) : Prop where
  increasing : (event.handlers.map (·.1)).Pairwise (· < ·)
  below : ∀ entry ∈ event.handlers, entry.1 < event.nextId

variable {event after : Event η}

theorem empty_numbered (none : event.handlers = []) : event.Numbered :=
  ⟨by simp [none], by simp [none]⟩

theorem subscribe_numbered (event : Event η) (handler : η) (numbered : event.Numbered) :
    (event.subscribe handler).2.Numbered := by
  constructor
  · simp only [subscribe, List.map_append, List.map_cons, List.map_nil]
    refine List.pairwise_append.mpr ⟨numbered.increasing, List.pairwise_singleton _ _, ?_⟩
    intro id member last isLast
    obtain ⟨entry, inside, rfl⟩ := List.mem_map.mp member
    rw [List.mem_singleton.mp isLast]
    exact numbered.below entry inside
  · intro entry member
    rcases List.mem_append.mp member with before | added
    · exact Nat.lt_succ_of_lt (numbered.below entry before)
    · rw [List.mem_singleton.mp added]
      exact Nat.lt_succ_self _

theorem unsubscribe_numbered (event : Event η) (id : Nat) (numbered : event.Numbered) :
    (event.unsubscribe id).2.Numbered := by
  have fewer : (event.handlers.filter (·.1 != id)).Sublist event.handlers := List.filter_sublist
  exact ⟨numbered.increasing.sublist (fewer.map _), fun entry member => numbered.below entry (fewer.subset member)⟩

theorem unsubscribe_found (event : Event η) (id : Nat) :
    (event.unsubscribe id).1 = true ↔ id ∈ event.handlers.map (·.1) := by
  simp [unsubscribe]

theorem unsubscribe_absent (event : Event η) (id : Nat) (absent : id ∉ event.handlers.map (·.1)) :
    (event.unsubscribe id).2 = event := by
  have all : event.handlers.filter (·.1 != id) = event.handlers := by
    refine List.filter_eq_self.mpr fun entry member => ?_
    have other : entry.1 ≠ id := fun same => absent (same ▸ List.mem_map_of_mem member)
    simpa using other
  simp only [unsubscribe, all]

theorem unsubscribe_split (numbered : event.Numbered) {before after : List (Nat × η)} {id : Nat} {handler : η}
    (there : event.handlers = before ++ (id, handler) :: after) :
    (event.unsubscribe id).2 = { event with handlers := before ++ after } := by
  -- No two handlers have one number, so that what goes is one handler.
  have increasing := numbered.increasing
  rw [there, List.map_append, List.map_cons, List.pairwise_append, List.pairwise_cons] at increasing
  obtain ⟨_, ⟨above, _⟩, across⟩ := increasing
  have kept : (before ++ (id, handler) :: after).filter (·.1 != id) = before ++ after := by
    rw [List.filter_append, List.filter_cons_of_neg (by simp), List.filter_eq_self.mpr, List.filter_eq_self.mpr]
    · intro entry member
      have less := above entry.1 (List.mem_map_of_mem member)
      simpa using Nat.ne_of_gt less
    · intro entry member
      have less := across entry.1 (List.mem_map_of_mem member) id List.mem_cons_self
      simpa using Nat.ne_of_lt less
  simp only [unsubscribe, there, kept]

/-- What becomes of an event by subscriptions that come and go. -/
inductive Edited (event : Event η) : Event η → Prop where
  | still : Edited event event
  | subscribes (after : Event η) (handler : η) (edited : Edited event after) : Edited event (after.subscribe handler).2
  | unsubscribes (after : Event η) (id : Nat) (edited : Edited event after) : Edited event (after.unsubscribe id).2

theorem Edited.trans {a b c : Event η} (first : Edited a b) (second : Edited b c) : Edited a c := by
  induction second with
  | still => exact first
  | subscribes after handler _ ih => exact .subscribes after handler ih
  | unsubscribes after id _ ih => exact .unsubscribes after id ih

theorem edited_numbered (edited : Edited event after) (numbered : event.Numbered) : after.Numbered := by
  induction edited with
  | still => exact numbered
  | subscribes after handler _ ih => exact subscribe_numbered after handler ih
  | unsubscribes after id _ ih => exact unsubscribe_numbered after id ih

theorem edited_parameters (edited : Edited event after) : after.parameters = event.parameters := by
  induction edited with
  | still => rfl
  | subscribes after handler _ ih => exact ih
  | unsubscribes after id _ ih => exact ih

/-- How the handlers of an event behave. A handler sees all of the state and changes what lies outside the event as it likes.
The event itself it changes by subscriptions, of whatever handlers and with whatever numbers. -/
structure Behaviour (η τ : Type) where
  handle : η → List Value → Event η × τ → Except ScriptError Unit × Event η × τ
  edits : ∀ handler arguments state, Edited state.1 (handle handler arguments state).2.1

variable (behaviour : Behaviour η τ) (arguments : List Value)

theorem run_all_edited (handlers : List η) (state : Event η × τ) :
    Edited state.1 (runAll behaviour.handle arguments handlers state).2.1 := by
  induction handlers generalizing state with
  | nil => exact .still
  | cons handler rest ih => exact (behaviour.edits handler arguments state).trans (ih _)

theorem invoke_edited (state : Event η × τ) :
    Edited state.1 (state.1.invoke behaviour.handle arguments state).2.1 := by
  unfold invoke
  split
  · exact .still
  · exact run_all_edited behaviour arguments _ state

inductive Use (η : Type) where
  | subscribe (handler : η)
  | unsubscribe (id : Nat)
  | invoke (arguments : List Value)

def Use.apply (behaviour : Behaviour η τ) (state : Event η × τ) : Use η → Event η × τ
  | .subscribe handler => ((state.1.subscribe handler).2, state.2)
  | .unsubscribe id => ((state.1.unsubscribe id).2, state.2)
  | .invoke arguments => (state.1.invoke behaviour.handle arguments state).2

theorem uses_edited (uses : List (Use η)) (state : Event η × τ) :
    Edited state.1 (uses.foldl (Use.apply behaviour) state).1 := by
  induction uses generalizing state with
  | nil => exact .still
  | cons use rest ih =>
    have first : Edited state.1 (use.apply behaviour state).1 := by
      cases use with
      | subscribe handler => exact .subscribes _ handler .still
      | unsubscribe id => exact .unsubscribes _ id .still
      | invoke arguments => exact invoke_edited behaviour arguments state
    exact first.trans (ih _)

structure Delivery (η : Type) where
  handler : η
  arguments : List Value
  result : Except ScriptError Unit

/-- The same handlers, with a record of those that are run. -/
def recorded (handle : η → List Value → σ → Except ScriptError Unit × σ) (handler : η) (arguments : List Value)
    (state : σ × List (Delivery η)) : Except ScriptError Unit × σ × List (Delivery η) :=
  let (result, after) := handle handler arguments state.1
  (result, after, state.2 ++ [⟨handler, arguments, result⟩])

def firstFailure (results : List (Except ScriptError Unit)) : Except ScriptError Unit :=
  (results.find? fun result => !result.isOk).getD (.ok ())

theorem first_failure_cons (result : Except ScriptError Unit) (rest : List (Except ScriptError Unit)) :
    firstFailure (result :: rest) = firstError result (firstFailure rest) := by
  cases result with
  | error => rfl
  | ok done => rfl

theorem run_all_recorded (handle : η → List Value → σ → Except ScriptError Unit × σ) (arguments : List Value)
    (handlers : List η) (state : σ) (earlier : List (Delivery η)) :
    ∃ deliveries, runAll (recorded handle) arguments handlers (state, earlier) =
        ((runAll handle arguments handlers state).1, (runAll handle arguments handlers state).2, earlier ++ deliveries) ∧
      deliveries.map (fun delivery => (delivery.handler, delivery.arguments)) = handlers.map (fun handler => (handler, arguments)) ∧
      (runAll handle arguments handlers state).1 = firstFailure (deliveries.map (·.result)) := by
  -- The list of handlers is fixed when the run begins: whatever they do, each of them gets its turn.
  induction handlers generalizing state earlier with
  | nil => exact ⟨[], by simp [runAll], rfl, rfl⟩
  | cons handler rest ih =>
    let first : Delivery η := ⟨handler, arguments, (handle handler arguments state).1⟩
    obtain ⟨deliveries, ran, all, result⟩ := ih (handle handler arguments state).2 (earlier ++ [first])
    refine ⟨first :: deliveries, ?_, ?_, ?_⟩
    · simp only [runAll, recorded]
      rw [ran]
      simp
    · simp [first, all]
    · simp only [runAll, List.map_cons, first_failure_cons, result, first]

/-- To unsubscribe takes away the one handler with the number, and says whether there was one. -/
structure RemovesOne (event : Event η) (id : Nat) : Prop where
  found : (event.unsubscribe id).1 = true ↔ id ∈ event.handlers.map (·.1)
  one : ∀ before handler after, event.handlers = before ++ (id, handler) :: after →
    (event.unsubscribe id).2 = { event with handlers := before ++ after }
  none : id ∉ event.handlers.map (·.1) → (event.unsubscribe id).2 = event

theorem numbered_removes_one (numbered : event.Numbered) (id : Nat) : event.RemovesOne id :=
  ⟨unsubscribe_found event id, fun _ _ _ there => unsubscribe_split numbered there,
    unsubscribe_absent event id⟩

/-- An invocation runs the handlers that there are when it begins, each once, in order and on the same arguments, and comes to
the first error among theirs. With another number of arguments than declared it runs none. -/
structure OnSnapshot (parameters : List Parameter) (handlers : List (Nat × η)) (arguments : List Value)
    (state : σ) (outcome : Except ScriptError Unit × σ × List (Delivery η)) : Prop where
  delivered : arguments.length = parameters.length →
    outcome.2.2.map (fun delivery => (delivery.handler, delivery.arguments)) = handlers.map fun entry => (entry.2, arguments)
  first : arguments.length = parameters.length → outcome.1 = firstFailure (outcome.2.2.map (·.result))
  refused : arguments.length ≠ parameters.length →
    outcome = (.error (.parameterCountMismatch parameters.length arguments.length), state, [])

theorem invoke_recorded (handle : η → List Value → σ → Except ScriptError Unit × σ) (arguments : List Value) (event : Event η)
    (state : σ) :
    let outcome := event.invoke (recorded handle) arguments (state, [])
    (outcome.1, outcome.2.1) = event.invoke handle arguments state ∧
      OnSnapshot event.parameters event.handlers arguments state outcome := by
  unfold invoke
  by_cases count : arguments.length = event.parameters.length
  · rw [if_neg (not_not_intro count), if_neg (not_not_intro count)]
    obtain ⟨deliveries, ran, all, result⟩ := run_all_recorded handle arguments (event.handlers.map (·.2)) state []
    rw [ran]
    rw [List.map_map] at all
    exact ⟨rfl, fun _ => all, fun _ => result, fun other => absurd count other⟩
  · rw [if_pos count, if_pos count]
    exact ⟨rfl, fun same => absurd same count, fun same => absurd same count, fun _ => rfl⟩

/-- An event after any use of it, by others and by its own handlers while it was fired: its handlers are numbered in order, so
that none goes but the one that is meant, and the next invocation runs on the handlers of its beginning. -/
theorem invocation_on_snapshot (behaviour : Behaviour η τ) (name : String) (parameters : List Parameter) (event : Event η)
    (created : create name parameters = .ok event) (outside : τ) (uses : List (Use η)) :
    let state := uses.foldl (Use.apply behaviour) (event, outside)
    state.1.Numbered ∧ (∀ id, state.1.RemovesOne id) ∧
      ∀ arguments, let outcome := state.1.invoke (recorded behaviour.handle) arguments (state, [])
        (outcome.1, outcome.2.1) = state.1.invoke behaviour.handle arguments state ∧
          OnSnapshot parameters state.1.handlers arguments state outcome := by
  intro state
  have fresh : event.handlers = [] ∧ event.parameters = parameters := by
    unfold create at created
    split at created <;> cases created
    exact ⟨rfl, rfl⟩
  have edited := uses_edited behaviour uses (event, outside)
  have numbered := edited_numbered edited (empty_numbered fresh.1)
  have declared : state.1.parameters = parameters := (edited_parameters edited).trans fresh.2
  refine ⟨numbered, numbered_removes_one numbered, fun arguments => ?_⟩
  obtain ⟨same, snapshot⟩ := invoke_recorded behaviour.handle arguments state.1 state
  exact ⟨same, declared ▸ snapshot⟩

/-- Handler 0 takes away the one with number 2, handler 1 subscribes another and fails, handler 2 takes away number 0 and
fails. -/
def restless : Behaviour Nat Unit where
  handle handler _ state :=
    match handler with
    | 0 => (.ok (), (state.1.unsubscribe 2).2, state.2)
    | 1 => (.error .busy, (state.1.subscribe 7).2, state.2)
    | _ => (.error .noOwner, (state.1.unsubscribe 0).2, state.2)
  edits handler _ state := by
    match handler with
    | 0 => exact .unsubscribes _ 2 .still
    | 1 => exact .subscribes _ 7 .still
    | _ + 2 => exact .unsubscribes _ 0 .still

/-- The handler that another one took away still runs. -/
theorem removed_handler_still_runs :
    let event : Event Nat := ⟨"tick", [⟨"by", .int⟩], [], 0⟩
    let state := [Use.subscribe 0, .subscribe 1, .subscribe 2].foldl (Use.apply restless) (event, ())
    let outcome := state.1.invoke (recorded restless.handle) [.int 3] (state, [])
    outcome.2.2.map (fun delivery => (delivery.handler, delivery.arguments)) = [(0, [.int 3]), (1, [.int 3]), (2, [.int 3])] ∧
      outcome.1 = .error .busy ∧ outcome.2.1.1.handlers = [(1, 1), (3, 7)] ∧ outcome.2.1.1.Numbered ∧
      (outcome.1, outcome.2.1) = state.1.invoke restless.handle [.int 3] state := by
  intro event state outcome
  have created : create "tick" [⟨"by", .int⟩] = .ok event := rfl
  obtain ⟨_, _, invoked⟩ := invocation_on_snapshot restless "tick" _ event created () [.subscribe 0, .subscribe 1, .subscribe 2]
  obtain ⟨numbered, _⟩ := invocation_on_snapshot restless "tick" _ event created ()
    [.subscribe 0, .subscribe 1, .subscribe 2, .invoke [.int 3]]
  obtain ⟨same, snapshot⟩ := invoked [.int 3]
  exact ⟨snapshot.delivered rfl, snapshot.first rfl, rfl, numbered, same⟩

end Patchbay.Event
