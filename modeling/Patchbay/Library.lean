import Patchbay.Library.Text

set_option autoImplicit false

namespace Patchbay

inductive LogLevel where
  | error
  | warn
  | info
  | debug
deriving DecidableEq

def LogLevel.ofName : String → LogLevel
  | "error" => .error
  | "warn" => .warn
  | "debug" => .debug
  | _ => .info

def LogLevel.name : LogLevel → String
  | .error => "ERROR"
  | .warn => "WARN"
  | .info => "INFO"
  | .debug => "DEBUG"

namespace Library

variable {σ : Type}

def printFunction (log : LogLevel → String → σ → σ) : Native σ where
  info := ⟨"debug/print", "Print", "Debug", false, some "Log a message; Level is one of error, warn, debug or info",
    [⟨"Message", .any⟩, ⟨"Level", .string⟩], []⟩
  call arguments state :=
    match argument .value 0 arguments, argument .string 1 arguments with
    | .ok message, .ok level => (.ok [], log (LogLevel.ofName level) (Value.display message) state)
    | .error cause, _ => (.error cause, state)
    | _, .error cause => (.error cause, state)

def catalog (log : LogLevel → String → σ → σ) : Catalog σ :=
  Catalog.empty.registerAll
    (mathFunctions ++ logicFunctions ++ textFunctions ++ arrayFunctions ++ [printFunction log])

end Library

end Patchbay
