import Patchbay.Text.Blank
import Patchbay.Text.Search
import Patchbay.Value

set_option autoImplicit false

namespace Patchbay

/-- Type of the data on a pin. An empty type name on `object` or `handle` takes every one. -/
inductive PinType where
  | any
  | bool
  | int
  | float
  | string
  | array (element : PinType)
  | object (typeId : String)
  | handle (typeId : String)
deriving DecidableEq, Inhabited

structure Parameter where
  name : String
  type : PinType
deriving DecidableEq

namespace PinType

/-- Whether an input of the first type takes what an output of the second type gives. -/
def assignable (target source : PinType) : Bool :=
  target == source || match target, source with
  | .any, _ => true
  | _, .any => true
  | .float, .int => true
  | .array a, .array b => a.assignable b
  | .object typeId, .object _ => typeId == ""
  | .handle typeId, .handle _ => typeId == ""
  | _, _ => false

def defaultValue : PinType → Value
  | .any | .object _ | .handle _ => .null
  | .bool => .bool false
  | .int => .int 0
  | .float => .float (Float.ofBits 0)
  | .string => .string ""
  | .array _ => .array []

/-- The value as one of this type, if it belongs to it. Null belongs to `any` alone. -/
def cast? : PinType → Value → Option Value
  | .any, value => some value
  | .bool, .bool value => some (.bool value)
  | .int, .int value => some (.int value)
  | .int, .float value => (Value.float value).int?.map .int
  | .float, .float value => some (.float value)
  | .float, .int value => some (.float (Number.ofInt64 value))
  | .string, .string value => some (.string value)
  | .array element, .array items => (items.mapM fun item => element.cast? item).map .array
  | .object typeId, .object actual fields =>
    if typeId = "" ∨ actual = some typeId then some (.object actual fields) else none
  | .handle typeId, .handle target =>
    if typeId = "" ∨ target.typeId = typeId then some (.handle target) else none
  | _, _ => none

/-- The value cast to this type, or the value as it is where that fails. -/
def coerce (type : PinType) (value : Value) : Value := (type.cast? value).getD value

def text : PinType → String
  | .any => "Any"
  | .bool => "Bool"
  | .int => "Int"
  | .float => "Float"
  | .string => "String"
  | .array element => "Array<" ++ element.text ++ ">"
  | .object typeId => if typeId = "" then "Object" else "Object:" ++ typeId
  | .handle typeId => if typeId = "" then "Handle" else "Handle:" ++ typeId

def elementText? (name : List Char) : Option (List Char) :=
  match Text.after? "Array<".toList name with
  | some rest => if rest.getLast? = some '>' then some rest.dropLast else none
  | none => none

theorem length_elementText? (name inner : List Char) (found : elementText? name = some inner) :
    inner.length < name.length := by
  unfold elementText? at found
  split at found
  · next rest stripped =>
    split at found
    · cases found
      have total := Text.length_after? _ name rest stripped
      have six : "Array<".toList.length = 6 := by decide
      simp only [List.length_dropLast]
      omega
    · cases found
  · cases found

/-- Reads a type name, with white space around it or around the name inside `Array<…>`. What cannot
be read is the error. -/
def ofChars (cs : List Char) : Except (List Char) PinType :=
  let name := Text.trim cs
  match _inner : elementText? name with
  | some element => (ofChars element).map .array
  | none =>
    match Text.after? "Object:".toList name with
    | some rest => .ok (.object (String.ofList (Text.trim rest)))
    | none =>
      match Text.after? "Handle:".toList name with
      | some rest => .ok (.handle (String.ofList (Text.trim rest)))
      | none =>
        match String.ofList name with
        | "Any" => .ok .any
        | "Bool" => .ok .bool
        | "Int" => .ok .int
        | "Float" => .ok .float
        | "String" => .ok .string
        | "Object" => .ok (.object "")
        | "Handle" => .ok (.handle "")
        | _ => .error name
termination_by cs.length
decreasing_by
  have shorter := length_elementText? (Text.trim cs) element _inner
  have trimmed := Text.length_trim_le cs
  omega

def parse (s : String) : Except String PinType :=
  match ofChars s.toList with
  | .ok type => .ok type
  | .error name => .error (String.ofList name)

def parse? (s : String) : Option PinType := (parse s).toOption

def unknownMessage (name : String) : String := "Unknown pin type: " ++ name

end PinType

end Patchbay
