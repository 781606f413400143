import Patchbay.Run.Env
import Patchbay.Run.Flow

set_option autoImplicit false

namespace Patchbay

structure Job where
  nodes : List Node
  locals : List Variable
  arguments : List Value

/-- The changing part of a run of one graph. Return points are innermost first. -/
structure Frame where
  progress : List Progress
  stack : List Value
  returnPoints : List Nat
  returned : Option (List Value)

/-- State of a run: the frame of the graph and what lies outside. -/
structure Run (σ : Type) where
  frame : Frame
  env : Env σ

inductive Location where
  | stack (index : Nat)
  | script (index : Nat)
deriving DecidableEq

def writeSlots (base : Nat) (values stack : List Value) : List Value :=
  stack.take base ++ values ++ stack.drop (base + values.length)

namespace Frame

def progressOf (frame : Frame) (index : Nat) : Progress := (frame.progress[index]?).getD .idle

def applyEffect (index : Nat) (effect : Effect) (frame : Frame) : Frame :=
  { frame with
    progress := frame.progress.set index effect.progress
    returnPoints := effect.points.apply index frame.returnPoints }

end Frame

namespace Run

variable {σ : Type}

def withEnv (run : Run σ) (env : Env σ) : Run σ := { run with env := env }

def note (entry : TraceEntry) (run : Run σ) : Run σ := run.withEnv (run.env.note entry)

/-- Find a variable. Those of the graph, which live on the stack, come first. -/
def locate (job : Job) (reference : Reference) (run : Run σ) : Except ScriptError Location :=
  let found : Option Location := match reference with
    | .live guid | .byGuid guid =>
      match Variable.position? guid job.locals with
      | some index => some (.stack index)
      | none => (Variable.position? guid run.env.vars).map .script
    | .indexed true index => if index < job.locals.length then some (.stack index) else none
    | .indexed false index => if index < run.env.vars.length then some (.script index) else none
  match found with
  | some location => .ok location
  | none => .error (.variableNotFound reference)

def readVariable (job : Job) (reference : Reference) (run : Run σ) : Except ScriptError Value :=
  match run.locate job reference with
  | .error cause => .error cause
  | .ok (.stack index) => .ok ((run.frame.stack[index]?).getD .null)
  | .ok (.script index) => .ok (((run.env.vars[index]?).map (·.value)).getD .null)

def coerceTo (vars : List Variable) (index : Nat) (value : Value) : Value :=
  match vars[index]? with
  | some entry => entry.type.coerce value
  | none => value

def writeVariable (job : Job) (reference : Reference) (value : Value) (run : Run σ) : Except ScriptError (Run σ) :=
  match run.locate job reference with
  | .error cause => .error cause
  | .ok (.stack index) =>
    let stack := run.frame.stack.set index (coerceTo job.locals index value)
    .ok { run with frame := { run.frame with stack := stack } }
  | .ok (.script index) =>
    let vars := run.env.vars.modify index fun entry => { entry with value := entry.type.coerce value }
    .ok { run with env := { run.env with vars := vars } }

end Run

end Patchbay
