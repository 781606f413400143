import Patchbay.Run.Machine
import Patchbay.Script

set_option autoImplicit false

namespace Patchbay

variable {σ : Type}

structure Services (σ : Type) where
  catalog : Catalog σ
  owner? : Nat → σ → Option (Owner σ)

namespace Script

def compileGraphs {α : Type} (compile : α → Except ScriptError Unit × α) : List α → Except ScriptError Unit × List α
  | [] => (.ok (), [])
  | item :: rest =>
    match compile item with
    | (.error cause, item) => (.error cause, item :: rest)
    | (.ok (), item) =>
      let (result, rest) := compileGraphs compile rest
      (result, item :: rest)

def compileEvent (graph : EventGraph) : Except ScriptError Unit × EventGraph :=
  let (result, compiled) := graph.graph.compile
  (result, { graph with graph := compiled })

def compileBody (body : Body) : Except ScriptError Unit × Body :=
  let (result, compiled) := body.graph.compile
  (result, { body with graph := compiled })

def compileInterface (function : InterfaceFunction) : Except ScriptError Unit × InterfaceFunction :=
  let (result, body) := compileBody function.body
  (result, { function with body := body })

def compileFunction (function : Function) : Except ScriptError Unit × Function :=
  let (result, body) := compileBody function.body
  (result, { function with body := body })

def compileAll (script : Script) : Except ScriptError Unit × Script :=
  match compileGraphs compileEvent script.eventGraphs with
  | (.error cause, graphs) => (.error cause, { script with eventGraphs := graphs })
  | (.ok (), graphs) =>
    let script := { script with eventGraphs := graphs }
    match compileGraphs compileInterface script.interfaceFunctions with
    | (.error cause, functions) => (.error cause, { script with interfaceFunctions := functions })
    | (.ok (), functions) =>
      let script := { script with interfaceFunctions := functions }
      let (result, functions) := compileGraphs compileFunction script.functions
      (result, { script with functions := functions })

def host (services : Services σ) (world : σ) (script : Script) : Except ScriptError (Host σ) :=
  match script.limits with
  | none => .error .notInitialized
  | some limits => .ok ⟨services.catalog, script.owner.bind fun owner => services.owner? owner world, limits⟩

def env (world : σ) (script : Script) : Env σ := Env.start script.vars script.functions world

def absorb (env : Env σ) (script : Script) : Script :=
  { script with vars := env.vars, functions := env.functions }

def runEventGraph (services : Services σ) (index : Nat) (arguments : List Value) (script : Script) (world : σ) :
    Except ScriptError Unit × Script × σ :=
  match script.host services world with
  | .error cause => (.error cause, script, world)
  | .ok host =>
    match script.eventGraphs[index]? with
    | none => (.error (.graphNotFound (.eventIndex index)), script, world)
    | some event =>
      match event.event with
      | .error cause => (.error cause, script, world)
      | .ok _ =>
        let (result, graph, env) := event.graph.run host receiveNode arguments (script.env world)
        let script := { script.absorb env with
          eventGraphs := script.eventGraphs.set index { event with graph := graph } }
        (result.map fun _ => (), script, env.world)

def runEventGraphOf (services : Services σ) (guid : Guid) (arguments : List Value) (script : Script) (world : σ) :
    Except ScriptError Unit × Script × σ :=
  match script.eventGraphs.findIdx? (·.guid == guid) with
  | none => (.error (.graphNotFound (.eventGuid guid)), script, world)
  | some index => script.runEventGraph services index arguments world

def call (services : Services σ) (guid : Guid) (arguments : List Value) (script : Script) (world : σ) :
    Except ScriptError (List Value) × Script × σ :=
  match script.host services world with
  | .error cause => (.error cause, script, world)
  | .ok host =>
    let (result, env) := callFunction host guid arguments (script.env world)
    (result, script.absorb env, env.world)

def callByName (services : Services σ) (name : String) (arguments : List Value) (script : Script) (world : σ) :
    Except ScriptError (List Value) × Script × σ :=
  match script.functions.find? (·.name == name) with
  | none => (.error (.functionNotFound (.byName name)), script, world)
  | some function => script.call services function.guid arguments world

def callInterface (services : Services σ) (interface name : String) (arguments : List Value) (script : Script)
    (world : σ) : Except ScriptError (List Value) × Script × σ :=
  match script.host services world with
  | .error cause => (.error cause, script, world)
  | .ok host =>
    let isWanted (function : InterfaceFunction) : Bool := function.interface == interface && function.name == name
    let missing := ScriptError.functionNotFound (.ofInterface interface name)
    match script.interfaceFunctions.findIdx? isWanted with
    | none => (.error missing, script, world)
    | some index =>
      match script.interfaceFunctions[index]? with
      | none => (.error missing, script, world)
      | some function =>
        let (result, body, env) := function.body.call host arguments (script.env world)
        let script := { script.absorb env with
          interfaceFunctions := script.interfaceFunctions.set index { function with body := body } }
        (result, script, env.world)

end Script

end Patchbay
