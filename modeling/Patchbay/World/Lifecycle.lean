import Patchbay.World

set_option autoImplicit false

namespace Patchbay.World

variable {ε : Type}

def unsubscribe (graph : EventGraph) (world : World ε) : EventGraph × World ε :=
  match graph.subscription with
  | none => (graph, world)
  | some subscription =>
    let remove (event : Event Binding) : Event Binding := (event.unsubscribe subscription.id).2
    ({ graph with subscription := none },
      world.modifyEntity subscription.entity (·.modifyEvent subscription.component subscription.event remove))

def misfit? : List OutputPin → List Parameter → Option ScriptError
  | output :: outputs, parameter :: parameters =>
    if output.type.assignable parameter.type then misfit? outputs parameters
    else some (.incompatiblePinTypes parameter.type output.type)
  | _, _ => none

def findEvent (graph : EventGraph) (entity : Entity) : Except ScriptError (String × Option Guid) := do
  let (name, component) ← graph.event
  match component with
  | some guid => if (entity.component? guid).isNone then .error (.componentNotFound guid)
  | none => .ok ()
  match entity.event? component name with
  | none => .error (.eventNotFound name)
  | some event =>
    let outputs := graph.receiveOutputs
    if outputs.length ≠ event.parameters.length then
      .error (.parameterCountMismatch event.parameters.length outputs.length)
    else
      match misfit? outputs event.parameters with
      | some error => .error error
      | none => .ok (name, component)

/-- Subscribe an event graph of a script to its event. An earlier subscription is undone. -/
def subscribe (script entity : Nat) (graph : EventGraph) (world : World ε) :
    Except ScriptError Unit × EventGraph × World ε :=
  match world.entity? entity with
  | none => (.error .noOwner, graph, world)
  | some owner =>
    match findEvent graph owner with
    | .error cause => (.error cause, graph, world)
    | .ok (name, component) =>
      let (graph, world) := world.unsubscribe graph
      let id := (((world.entity? entity).bind (·.event? component name)).map (·.nextId)).getD 0
      let add (event : Event Binding) : Event Binding := (event.subscribe ⟨script, graph.guid⟩).2
      (.ok (), { graph with subscription := some ⟨entity, component, name, id⟩ },
        world.modifyEntity entity (·.modifyEvent component name add))

def subscribeAll (script entity : Nat) :
    List EventGraph → World ε → Except ScriptError Unit × List EventGraph × World ε
  | [], world => (.ok (), [], world)
  | graph :: rest, world =>
    match world.subscribe script entity graph with
    | (.error cause, graph, world) => (.error cause, graph :: rest, world)
    | (.ok (), graph, world) =>
      let (result, rest, world) := subscribeAll script entity rest world
      (result, graph :: rest, world)

def unsubscribeAll : List EventGraph → World ε → List EventGraph × World ε
  | [], world => ([], world)
  | graph :: rest, world =>
    let (graph, world) := world.unsubscribe graph
    let (rest, world) := unsubscribeAll rest world
    (graph :: rest, world)

/-- Undo all subscriptions of a script and let its owner go. Its limits stay. -/
def detach (script : Script) (world : World ε) : Script × World ε :=
  let (graphs, world) := unsubscribeAll script.eventGraphs world
  ({ script with eventGraphs := graphs, owner := none }, world)

/-- Start a script on an entity: subscribe every event graph, then compile every graph. A failure
leaves it detached. -/
def attach (index entity : Nat) (limits : Limits) (script : Script) (world : World ε) :
    Except ScriptError Unit × Script × World ε :=
  let (script, world) := world.detach script
  let (subscribed, graphs, world) := world.subscribeAll index entity script.eventGraphs
  let script := { script with eventGraphs := graphs }
  let (result, script) : Except ScriptError Unit × Script := match subscribed with
    | .error cause => (.error cause, script)
    | .ok () => script.compileAll
  match result with
  | .error cause =>
    let (script, world) := world.detach script
    (.error cause, script, world)
  | .ok () => (.ok (), { script with owner := some entity, limits := some limits }, world)

def init (index entity : Nat) (limits : Limits) (world : World ε) : Except ScriptError Unit × World ε :=
  world.withScript index (.error .busy) (attach index entity limits)

def shutdown (index : Nat) (world : World ε) : World ε :=
  match world.script? index with
  | none => world
  | some script =>
    let (script, world) := world.detach script
    world.setScript index script

def dropScript (index : Nat) (world : World ε) : World ε :=
  match world.script? index with
  | none => world
  | some script => ((world.detach script).2).setSlot index .gone

/-- Put another script in the place of one, whose subscriptions end. -/
def replaceScript (index : Nat) (script : Script) (world : World ε) : World ε :=
  (world.dropScript index).setScript index script

end Patchbay.World
