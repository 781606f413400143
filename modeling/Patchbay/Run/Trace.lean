import Patchbay.Run.Flow

set_option autoImplicit false

namespace Patchbay

/-- An activation of a node. `calls` are the function calls that it lies in, the innermost first. -/
structure Visit where
  calls : List Guid
  node : Nat
  activation : Activation

/-- What a run notes down: that an activation began, or that it ended with the values that it read
and gave and with the out-pin that control leaves by. -/
inductive TraceEntry where
  | began (visit : Visit)
  | ended (visit : Visit) (inputs outputs : List Value) (next : Option Nat)

end Patchbay
