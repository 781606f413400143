import Patchbay.Catalog
import Patchbay.Function
import Patchbay.Run.Trace

set_option autoImplicit false

namespace Patchbay

/-- Bounds of one run: node activations, nested function calls, and reads of implicit nodes through
each other. -/
structure Limits where
  maxSteps : Nat
  maxCallDepth : Nat
  maxImplicitDepth : Nat
deriving DecidableEq

def Limits.default : Limits := ⟨1000000, 64, 256⟩

structure Owner (σ : Type) where
  handle : Handle
  component? : Guid → Option Handle
  property? : Guid → String → σ → Option Value
  setProperty? : Guid → String → Value → σ → Option σ

structure Host (σ : Type) where
  catalog : Catalog σ
  owner : Option (Owner σ)
  limits : Limits

/-- What a run reaches outside its graph: the variables and functions of the script, the calls under
way, the activations so far, the world, and the notes on the run, the latest first. A run stops as
soon as the activations pass their limit, so that they need no more bits than it does. -/
structure Env (σ : Type) where
  vars : List Variable
  functions : List Function
  callStack : List Guid
  steps : Nat
  world : σ
  trace : List TraceEntry

namespace Env

variable {σ : Type}

def start (vars : List Variable) (functions : List Function) (world : σ) : Env σ :=
  ⟨vars, functions, [], 0, world, []⟩

def note (entry : TraceEntry) (env : Env σ) : Env σ := { env with trace := entry :: env.trace }

def step (limits : Limits) (env : Env σ) : Except ScriptError Unit × Env σ :=
  let env := { env with steps := env.steps + 1 }
  (if limits.maxSteps < env.steps then .error (.stepLimitExceeded limits.maxSteps) else .ok (), env)

end Env

end Patchbay
