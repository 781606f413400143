import Patchbay.Project.Load
import Patchbay.World.Lifecycle

set_option autoImplicit false

namespace Patchbay

structure ScriptSummary where
  name : String
  vars : Nat
  eventGraphs : Nat
  functions : Nat
  interfaceFunctions : Nat
  nodes : Nat
deriving DecidableEq

namespace ScriptSummary

def of (script : Script) : ScriptSummary :=
  ⟨script.name, script.vars.length, script.eventGraphs.length, script.functions.length,
    script.interfaceFunctions.length, script.nodeCount⟩

def toDocument (summary : ScriptSummary) : Document :=
  .object [("name", .string summary.name), ("variables", .ofNat summary.vars),
    ("event_graphs", .ofNat summary.eventGraphs), ("function_graphs", .ofNat summary.functions),
    ("interface_graphs", .ofNat summary.interfaceFunctions), ("nodes", .ofNat summary.nodes)]

end ScriptSummary

inductive DeployError where
  | load (cause : LoadError)
  | scriptNotFound (name : String)
  | eventNotFound (name : String)
  | script (name : String) (cause : ScriptError)
  | event (name : String) (cause : ScriptError)
deriving DecidableEq

def DeployError.message : DeployError → String
  | .load cause => cause.message
  | .scriptNotFound name => "Script '" ++ name ++ "' not found"
  | .eventNotFound name => "Event '" ++ name ++ "' not found on the entity"
  | .script name cause => "Script '" ++ name ++ "' failed: " ++ cause.message
  | .event name cause => "Event '" ++ name ++ "' failed: " ++ cause.message

def DeployError.cause? : DeployError → Option ScriptError
  | .script _ cause | .event _ cause => some cause
  | _ => none

/-- A running project: the place of its entity in the world, and those of its scripts by name. -/
structure Deployment where
  entity : Nat
  scripts : Fields Nat

namespace Deployment

variable {ε : Type}

def startScripts (entity : Nat) (limits : Limits) :
    Fields Nat → Fields Script → World ε → Except DeployError (Fields Nat) × World ε
  | places, [], world => (.ok places, world)
  | places, (name, script) :: rest, world =>
    let (place, world) := world.addScript script
    match world.init place entity limits with
    | (.error cause, world) => (.error (.script name cause), world)
    | (.ok (), world) => startScripts entity limits (Fields.insert name place places) rest world

def start (fresh : Nat → Guid) (project : Project) (world : World ε) : Except DeployError Deployment × World ε :=
  match project.manifest.entity.build fresh with
  | .error cause => (.error (.load (.badEntity cause)), world)
  | .ok entity =>
    let (place, world) := world.addEntity entity
    let (result, world) := startScripts place project.manifest.limits [] project.scripts world
    (result.map fun places => ⟨place, places⟩, world)

def names (deployment : Deployment) : List String := deployment.scripts.map (·.1)

def script? (name : String) (deployment : Deployment) (world : World ε) : Option Script :=
  (Fields.find? name deployment.scripts).bind world.script?

def summaries (deployment : Deployment) (world : World ε) : List ScriptSummary :=
  (deployment.scripts.filterMap fun (_, place) => world.script? place).map ScriptSummary.of

def fire (catalog : Catalog (World ε)) (component : Option Guid) (event : String) (arguments : List Value)
    (deployment : Deployment) (world : World ε) : Except DeployError Unit × World ε :=
  match world.fire catalog deployment.entity component event arguments with
  | none => (.error (.eventNotFound event), world)
  | some (.ok (), world) => (.ok (), world)
  | some (.error cause, world) => (.error (.event event cause), world)

def withScript {α : Type} (name : String) (action : Script → World ε → Except ScriptError α × Script × World ε)
    (deployment : Deployment) (world : World ε) : Except DeployError α × World ε :=
  match Fields.find? name deployment.scripts with
  | none => (.error (.scriptNotFound name), world)
  | some place =>
    match world.withScript place (.error .busy) action with
    | (.ok result, world) => (.ok result, world)
    | (.error cause, world) => (.error (.script name cause), world)

def call (catalog : Catalog (World ε)) (script function : String) (arguments : List Value) (deployment : Deployment)
    (world : World ε) : Except DeployError (List Value) × World ε :=
  deployment.withScript script (fun object => object.callByName (World.services catalog) function arguments) world

def callInterface (catalog : Catalog (World ε)) (script interface function : String) (arguments : List Value)
    (deployment : Deployment) (world : World ε) : Except DeployError (List Value) × World ε :=
  deployment.withScript script
    (fun object => object.callInterface (World.services catalog) interface function arguments) world

def shutdown (deployment : Deployment) (world : World ε) : World ε :=
  deployment.scripts.foldl (fun world (_, place) => world.shutdown place) world

end Deployment

end Patchbay
