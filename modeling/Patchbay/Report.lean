import Patchbay.Project.Deployment

set_option autoImplicit false

/-!
Errors as documents: the name of the kind, and the message. Where a text is malformed the kind says
it all.
-/

namespace Patchbay

def ReadError.kind : ReadError → String
  | .typeMismatch _ _ => "TypeMismatch"
  | .outOfRange _ => "OutOfRange"

def InvokeError.kind : InvokeError → String
  | .missingArgument _ => "MissingArgument"
  | .invalidArgument _ _ => "InvalidArgument"
  | .failed _ => "Failed"

def ScriptError.kind : ScriptError → String
  | .unexpectedNode _ _ _ => "UnexpectedNode"
  | .parameterCountMismatch _ _ => "ParameterCountMismatch"
  | .eventNotFound _ => "EventNotFound"
  | .eventArgumentCount _ _ => "EventArgumentCount"
  | .componentNotFound _ => "ComponentNotFound"
  | .memberNotFound _ => "MemberNotFound"
  | .noOwner => "NoOwner"
  | .unknownFunction _ => "UnknownFunction"
  | .functionNotFound _ => "FunctionNotFound"
  | .recursiveCall _ => "RecursiveCall"
  | .callDepthExceeded _ => "CallDepthExceeded"
  | .stepLimitExceeded _ => "StepLimitExceeded"
  | .implicitDepthExceeded _ => "ImplicitDepthExceeded"
  | .nativeCall _ _ => "NativeCall"
  | .outputCountMismatch _ _ _ => "OutputCountMismatch"
  | .invalidConnection _ => "InvalidConnection"
  | .incompatiblePinTypes _ _ => "IncompatiblePinTypes"
  | .variableNotFound _ => "VariableNotFound"
  | .nodeNotFound _ => "NodeNotFound"
  | .nodeNotDeletable _ => "NodeNotDeletable"
  | .pinNotFound _ _ => "PinNotFound"
  | .notCompiled => "NotCompiled"
  | .graphNotFound _ => "GraphNotFound"
  | .notInitialized => "NotInitialized"
  | .busy => "ScriptBusy"
  | .serialization => "Serialization"

def EntityError.kind : EntityError → String
  | .unknownType _ => "InvalidPinType"
  | .invalidEvent _ _ => "InvalidEvent"

def LoadError.kind : LoadError → String
  | .pathNotFound _ => "PathNotFound"
  | .manifestNotFound _ => "ManifestNotFound"
  | .unreadable _ => "ReadError"
  | .malformedManifest => "TomlParseError"
  | .malformedScript _ _ => "ScriptParseError"
  | .duplicateScript _ => "DuplicateScript"
  | .badEntity cause => cause.kind

def DeployError.kind : DeployError → String
  | .load cause => cause.kind
  | .scriptNotFound _ => "ScriptNotFound"
  | .eventNotFound _ => "EventNotFound"
  | .script _ _ => "Script"
  | .event _ _ => "Event"

namespace Report

def bare (kind : String) : Document := .object [("error", .string kind)]

def plain (kind message : String) : Document := .object [("error", .string kind), ("message", .string message)]

def readError (error : ReadError) : Document := plain error.kind error.message

def invokeError (error : InvokeError) : Document := plain error.kind error.message

def scriptError (error : ScriptError) : Document :=
  match error with
  | .serialization => bare error.kind
  | _ => plain error.kind error.message

def entityError (error : EntityError) : Document := plain error.kind error.message

def loadError (error : LoadError) : Document :=
  match error with
  | .unreadable _ | .malformedManifest => bare error.kind
  | .malformedScript path cause =>
    .object [("error", .string error.kind), ("path", .string path), ("source", .string cause.kind)]
  | _ => plain error.kind error.message

def deployError (error : DeployError) : Document :=
  match error with
  | .load cause => loadError cause
  | _ =>
    .object [("error", .string error.kind), ("source", .ofText? (error.cause?.map (·.kind))),
      ("message", .string error.message)]

end Report

end Patchbay
