import Patchbay.Error

set_option autoImplicit false

namespace Patchbay

/-- An event and its handlers. The next identifier is the number of subscriptions ever made to the
event, which 64 bits hold. -/
structure Event (η : Type) where
  name : String
  parameters : List Parameter
  handlers : List (Nat × η)
  nextId : Nat

namespace Event

variable {η σ : Type}

def maxArguments : Nat := 10

def create (name : String) (parameters : List Parameter) : Except ScriptError (Event η) :=
  if maxArguments < parameters.length then .error (.eventArgumentCount maxArguments parameters.length)
  else .ok ⟨name, parameters, [], 0⟩

def subscribe (handler : η) (event : Event η) : Nat × Event η :=
  (event.nextId, { event with handlers := event.handlers ++ [(event.nextId, handler)], nextId := event.nextId + 1 })

def unsubscribe (id : Nat) (event : Event η) : Bool × Event η :=
  (event.handlers.any (·.1 == id), { event with handlers := event.handlers.filter (·.1 != id) })

def firstError (first second : Except ScriptError Unit) : Except ScriptError Unit :=
  match first with
  | .error cause => .error cause
  | .ok () => second

/-- Run handlers one after the other. All of them run, and the first error counts. -/
def runAll (handle : η → List Value → σ → Except ScriptError Unit × σ) (arguments : List Value) :
    List η → σ → Except ScriptError Unit × σ
  | [], state => (.ok (), state)
  | handler :: rest, state =>
    let (result, state) := handle handler arguments state
    let (others, state) := runAll handle arguments rest state
    (firstError result others, state)

/-- Hand the arguments to the handlers there are now; those that come or go meanwhile do not count. -/
def invoke (handle : η → List Value → σ → Except ScriptError Unit × σ) (arguments : List Value) (event : Event η)
    (state : σ) : Except ScriptError Unit × σ :=
  if arguments.length ≠ event.parameters.length then
    (.error (.parameterCountMismatch event.parameters.length arguments.length), state)
  else runAll handle arguments (event.handlers.map (·.2)) state

end Event

end Patchbay
