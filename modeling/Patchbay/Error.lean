import Patchbay.NativeType
import Patchbay.Variable

set_option autoImplicit false

namespace Patchbay

inductive InvokeError where
  | missingArgument (index : Nat)
  | invalidArgument (index : Nat) (cause : ReadError)
  | failed (text : String)
deriving DecidableEq

def InvokeError.message : InvokeError → String
  | .missingArgument index => "Missing argument " ++ toString index
  | .invalidArgument index cause => "Invalid argument " ++ toString index ++ ": " ++ cause.message
  | .failed text => text

inductive ConnectionFault where
  | feedsItself (node : Nat)
  | literalOnly (input : String) (node : Nat)
  | implicitTarget (node : Nat)
  | missingOutput (input : String) (node parameter source : Nat)
  | missingPin (output : String) (node pin target : Nat)
deriving DecidableEq

def ConnectionFault.message : ConnectionFault → String
  | .feedsItself node => "node " ++ toString node ++ " cannot feed itself"
  | .literalOnly input node => "input '" ++ input ++ "' of node " ++ toString node ++ " only takes a literal"
  | .implicitTarget node => "implicit node " ++ toString node ++ " cannot be an execution target"
  | .missingOutput input node parameter source =>
    "input '" ++ input ++ "' of node " ++ toString node ++ " reads missing output " ++ toString parameter
      ++ " of node " ++ toString source
  | .missingPin output node pin target =>
    "execution pin '" ++ output ++ "' of node " ++ toString node ++ " targets missing pin " ++ toString pin
      ++ " of node " ++ toString target

inductive GraphAddress where
  | event (index : Nat)
  | interface (index : Nat)
  | function (guid : Guid)
deriving DecidableEq

def GraphAddress.text : GraphAddress → String
  | .event index => "Event(" ++ toString index ++ ")"
  | .interface index => "Interface(" ++ toString index ++ ")"
  | .function guid => "Function(" ++ guid.text ++ ")"

inductive MissingGraph where
  | eventIndex (index : Nat)
  | eventGuid (guid : Guid)
  | within (address : GraphAddress)
deriving DecidableEq

def MissingGraph.text : MissingGraph → String
  | .eventIndex index => "event graph " ++ toString index
  | .eventGuid guid => guid.text
  | .within address => address.text

inductive MissingFunction where
  | byGuid (guid : Guid)
  | byName (name : String)
  | ofInterface (interface name : String)
deriving DecidableEq

def MissingFunction.text : MissingFunction → String
  | .byGuid guid => guid.text
  | .byName name => name
  | .ofInterface interface name => interface ++ "::" ++ name

inductive ScriptError where
  | unexpectedNode (index : Nat) (expected : String) (found : Option String)
  | parameterCountMismatch (expected actual : Nat)
  | eventNotFound (name : String)
  | eventArgumentCount (max actual : Nat)
  | componentNotFound (component : Guid)
  | memberNotFound (name : String)
  | noOwner
  | unknownFunction (key : String)
  | functionNotFound (function : MissingFunction)
  | recursiveCall (function : Guid)
  | callDepthExceeded (limit : Nat)
  | stepLimitExceeded (limit : Nat)
  | implicitDepthExceeded (limit : Nat)
  | nativeCall (key : String) (cause : InvokeError)
  | outputCountMismatch (node expected actual : Nat)
  | invalidConnection (fault : ConnectionFault)
  | incompatiblePinTypes (source target : PinType)
  | variableNotFound (reference : Reference)
  | nodeNotFound (node : Nat)
  | nodeNotDeletable (node : Nat)
  | pinNotFound (node pin : Nat)
  | notCompiled
  | graphNotFound (graph : MissingGraph)
  | notInitialized
  | busy
  | serialization
deriving DecidableEq

def ScriptError.message : ScriptError → String
  | .unexpectedNode index expected found =>
    "Expected " ++ expected ++ " node at index " ++ toString index ++ ", found " ++ found.getD "nothing"
  | .parameterCountMismatch expected actual =>
    "Parameter count mismatch: expected " ++ toString expected ++ ", got " ++ toString actual
  | .eventNotFound name => "Event '" ++ name ++ "' not found"
  | .eventArgumentCount max actual =>
    "Event takes at most " ++ toString max ++ " arguments, got " ++ toString actual
  | .componentNotFound component => "Component " ++ component.text ++ " not found"
  | .memberNotFound name => "Member '" ++ name ++ "' not found"
  | .noOwner => "Script has no owner"
  | .unknownFunction key => "Unknown native function '" ++ key ++ "'"
  | .functionNotFound function => "Function graph '" ++ function.text ++ "' not found"
  | .recursiveCall function => "Recursive call into function graph " ++ function.text
  | .callDepthExceeded limit => "Call depth limit of " ++ toString limit ++ " exceeded"
  | .stepLimitExceeded limit => "Step limit of " ++ toString limit ++ " exceeded"
  | .implicitDepthExceeded limit => "Implicit evaluation depth limit of " ++ toString limit ++ " exceeded"
  | .nativeCall key cause => "Native function '" ++ key ++ "' failed: " ++ cause.message
  | .outputCountMismatch node expected actual =>
    "Node " ++ toString node ++ " produced " ++ toString actual ++ " outputs, expected " ++ toString expected
  | .invalidConnection fault => "Invalid connection: " ++ fault.message
  | .incompatiblePinTypes source target => "Cannot connect " ++ source.text ++ " output to " ++ target.text ++ " input"
  | .variableNotFound reference => "Variable '" ++ reference.text ++ "' not found"
  | .nodeNotFound node => "Node " ++ toString node ++ " not found"
  | .nodeNotDeletable node => "Node " ++ toString node ++ " cannot be deleted"
  | .pinNotFound node pin => "Pin " ++ toString pin ++ " not found on node " ++ toString node
  | .notCompiled => "Graph must be compiled before execution"
  | .graphNotFound graph => "Graph not found: " ++ graph.text
  | .notInitialized => "Script object has not been initialized"
  | .busy => "Script object is already executing"
  | .serialization => "Serialization error: malformed document"

end Patchbay
