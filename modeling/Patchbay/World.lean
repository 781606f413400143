import Patchbay.Entity
import Patchbay.Script.Run

set_option autoImplicit false

namespace Patchbay

/-- A place for a script. While a script runs or is held its place is busy. -/
inductive Slot where
  | idle (script : Script)
  | busy
  | gone

/-- Entities and scripts, which are known by their place, and whatever else `ε` a host keeps. -/
structure World (ε : Type) where
  entities : List Entity
  scripts : List Slot
  extra : ε

namespace World

variable {ε : Type}

def modifyExtra (change : ε → ε) (world : World ε) : World ε := { world with extra := change world.extra }

def entity? (index : Nat) (world : World ε) : Option Entity := world.entities[index]?

def setEntity (index : Nat) (entity : Entity) (world : World ε) : World ε :=
  { world with entities := world.entities.set index entity }

def modifyEntity (index : Nat) (change : Entity → Entity) (world : World ε) : World ε :=
  { world with entities := world.entities.modify index change }

def addEntity (entity : Entity) (world : World ε) : Nat × World ε :=
  (world.entities.length, { world with entities := world.entities ++ [entity] })

def script? (index : Nat) (world : World ε) : Option Script :=
  match world.scripts[index]? with
  | some (.idle script) => some script
  | _ => none

def setSlot (index : Nat) (slot : Slot) (world : World ε) : World ε :=
  { world with scripts := world.scripts.set index slot }

def setScript (index : Nat) (script : Script) (world : World ε) : World ε := world.setSlot index (.idle script)

def addScript (script : Script) (world : World ε) : Nat × World ε :=
  (world.scripts.length, { world with scripts := world.scripts ++ [.idle script] })

def owner (index : Nat) (entity : Entity) : Owner (World ε) where
  handle := entity.handle
  component? guid := (entity.component? guid).map (·.handle)
  property? object name world := (world.entity? index).bind (·.property? object name)
  setProperty? object name value world :=
    match world.entity? index with
    | none => none
    | some entity => (entity.setProperty? object name value).map fun changed => world.setEntity index changed

def services (catalog : Catalog (World ε)) : Services (World ε) :=
  ⟨catalog, fun index world => (world.entity? index).map (owner index)⟩

def withScript {α : Type} (index : Nat) (missing : Except ScriptError α)
    (action : Script → World ε → Except ScriptError α × Script × World ε) (world : World ε) :
    Except ScriptError α × World ε :=
  match world.scripts[index]? with
  | some (.idle script) =>
    let (result, script, world) := action script (world.setSlot index .busy)
    (result, world.setScript index script)
  | some .busy => (.error .busy, world)
  | _ => (missing, world)

/-- Run the event graph that a binding names. A script that is gone takes no notice. -/
def deliver (catalog : Catalog (World ε)) (binding : Binding) (arguments : List Value) (world : World ε) :
    Except ScriptError Unit × World ε :=
  world.withScript binding.script (.ok ()) fun script world =>
    script.runEventGraphOf (services catalog) binding.graph arguments world

def fire (catalog : Catalog (World ε)) (entity : Nat) (component : Option Guid) (name : String)
    (arguments : List Value) (world : World ε) : Option (Except ScriptError Unit × World ε) :=
  match (world.entity? entity).bind (·.event? component name) with
  | none => none
  | some event => some (event.invoke (deliver catalog) arguments world)

/-- Catalogs for scripts whose native functions fire events themselves: at level `n + 1` an event
runs scripts at level `n`. A script never runs inside itself, so as many levels as there are scripts
are enough. -/
def nestedCatalog (make : (Binding → List Value → World ε → Except ScriptError Unit × World ε) → Catalog (World ε)) :
    Nat → Catalog (World ε)
  | 0 => make fun _ _ world => (.error .busy, world)
  | level + 1 => make (deliver (nestedCatalog make level))

end World

end Patchbay
