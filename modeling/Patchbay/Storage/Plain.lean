import Patchbay.Document
import Patchbay.Value

set_option autoImplicit false

namespace Patchbay

def typeKey : String := "__type__"

def handleKey : String := "__handle__"

def plainFloat (value : Float) : Value := if value.isFinite then .float value else .null

def plainTypeId (entries : List (String × Document)) : Option String :=
  match (Document.entriesNamed typeKey entries).getLast? with
  | some (.string typeId) => some typeId
  | _ => none

mutual

/-- A plain document as a value: this is how arguments and properties come from outside. -/
def Document.toValue : Document → Value
  | .null => .null
  | .bool value => .bool value
  | .int value =>
    if Number.fitsSigned 64 value then .int (Int64.ofInt value) else .float (Number.doubleOfInt value)
  | .float value => plainFloat value
  | .single value => plainFloat (Number.ofSingle value)
  | .string value => .string value
  | .array items => .array (Document.toValues items)
  | .object entries =>
    .object (plainTypeId entries) (Fields.ofList ((Document.toFields entries).filter (·.1 != typeKey)))
  | .invalid => .null

def Document.toValues : List Document → List Value
  | [] => []
  | item :: rest => item.toValue :: Document.toValues rest

def Document.toFields : List (String × Document) → List (String × Value)
  | [] => []
  | (name, item) :: rest => (name, item.toValue) :: Document.toFields rest

end

mutual

def Value.plain : Value → Document
  | .null => .null
  | .bool value => .bool value
  | .int value => .int value.toInt
  | .float value => if value.isFinite then .float value else .null
  | .string value => .string value
  | .array items => .array (Value.plainItems items)
  | .object typeId fields =>
    let entries := Value.plainFields fields
    .object (match typeId with
      | some typeId => Fields.insert typeKey (.string typeId) entries
      | none => entries)
  | .handle target => .object [(handleKey, .string target.id.text), (typeKey, .string target.typeId)]

def Value.plainItems : List Value → List Document
  | [] => []
  | item :: rest => item.plain :: Value.plainItems rest

def Value.plainFields : List (String × Value) → List (String × Document)
  | [] => []
  | (name, value) :: rest => (name, value.plain) :: Value.plainFields rest

end

end Patchbay
