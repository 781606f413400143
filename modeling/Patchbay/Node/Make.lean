import Patchbay.Catalog
import Patchbay.Node.Edit

set_option autoImplicit false

namespace Patchbay.Node

def execPins (names : List String) : List ExecPin := names.map ExecPin.fresh

def active (kind : NodeKind) (name : String) (outs : List String) (inputs : List InputPin) (outputs : List OutputPin) :
    Node :=
  { bare kind name with execIn := execPins ["Execute"], execOut := execPins outs, inputs := inputs, outputs := outputs }

def passive (kind : NodeKind) (name : String) (inputs : List InputPin) (outputs : List OutputPin) : Node :=
  { bare kind name with inputs := inputs, outputs := outputs }

def loop (kind : NodeKind) (name : String) (inputs : List InputPin) (outputs : List OutputPin) : Node :=
  { active kind name ["Loop", "Done"] inputs outputs with execIn := execPins ["Execute", "Break"] }

def parameterInputs (parameters : List Parameter) : List InputPin :=
  parameters.map fun parameter => .fresh parameter.name parameter.type

def parameterOutputs (parameters : List Parameter) : List OutputPin :=
  parameters.map fun parameter => ⟨parameter.name, parameter.type⟩

def branch : Node := active .branch "Branch" ["True", "False"] [.fresh "Condition" .bool] []

def sequence (count : Nat) : Node :=
  { active .sequence "Sequence" [] [] [] with execOut := (List.range count).map thenPin }

def forLoop : Node := loop .forLoop "For Loop" [.fresh "First" .int, .fresh "Last" .int] [⟨"Index", .int⟩]

def forEach (element : PinType) : Node :=
  loop .forEach "For Each" [.fresh "Array" (.array element)] [⟨"Element", element⟩, ⟨"Index", .int⟩]

def whileLoop : Node := loop .whileLoop "While Loop" [.fresh "Condition" .bool] []

def switch (type : PinType) : Node := active .switch "Switch" ["Default"] [.fresh "Value" type] []

def castInputs (target : PinType) : List InputPin :=
  [.fresh "Object" .any, .setting "Type" .string (.string target.text)]

def cast (target : PinType) : Node :=
  active (.cast target) (castTitle target) ["Succeeded", "Failed"] (castInputs target) [⟨"Result", target⟩]

def implicitCast (target : PinType) : Node :=
  passive (.implicitCast target) (castTitle target) (castInputs target) [⟨"Result", target⟩, ⟨"Success", .bool⟩]

def getVariable (entry : Variable) : Node :=
  passive (.getVariable (.live entry.guid)) ("Get " ++ entry.name) [] [⟨"Value", entry.type⟩]

def setVariable (entry : Variable) : Node :=
  active (.setVariable (.live entry.guid)) ("Set " ++ entry.name) ["Then"] [.fresh "Value" entry.type]
    [⟨"Value", entry.type⟩]

/-- Reads a field of an object or a property; without a target, a property of the owner. -/
def getMember (member : String) (type : PinType) : Node :=
  passive (.getMember member) ("Get " ++ member) [.fresh "Target" .any] [⟨"Value", type⟩]

def setMember (member : String) (type : PinType) : Node :=
  active (.setMember member) ("Set " ++ member) ["Then"] [.fresh "Target" .any, .fresh "Value" type] [⟨"Target", .any⟩]

def selfReference : Node := passive .selfReference "Self" [] [⟨"Self", .handle ""⟩]

def getComponent (component : Guid) (typeId : String) : Node :=
  passive (.getComponent component) ("Get " ++ typeId) [] [⟨"Component", .handle typeId⟩]

def makeArray (count : Nat) : Node :=
  passive .makeArray "Make Array" ((List.range count).map itemPin) [⟨"Array", .array .any⟩]

def callNative (info : FunctionInfo) : Node :=
  let kind := NodeKind.callNative info.key info.isPure
  let inputs := parameterInputs info.inputs
  let outputs := parameterOutputs info.outputs
  if info.isPure then passive kind info.name inputs outputs else active kind info.name ["Then"] inputs outputs

def callFunction (guid : Guid) (name : String) (inputs outputs : List Parameter) : Node :=
  active (.callFunction guid) name ["Then"] (parameterInputs inputs) (parameterOutputs outputs)

def functionEntry (inputs : List Parameter) : Node :=
  { bare .functionEntry "Entry" with execOut := execPins ["Execute"], outputs := parameterOutputs inputs }

def functionReturn (outputs : List Parameter) : Node :=
  { bare .functionReturn "Return" with execIn := execPins ["Execute"], inputs := parameterInputs outputs }

def receiveEvent (event : String) (component : Option Guid) (parameters : List Parameter) : Node :=
  { bare (.receiveEvent event component) event with
    execOut := execPins ["Execute"], outputs := parameterOutputs parameters }

end Patchbay.Node
