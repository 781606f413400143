import Patchbay.Fields
import Patchbay.Guid
import Patchbay.Number.Text

set_option autoImplicit false

namespace Patchbay

structure Handle where
  id : Guid
  typeId : String
deriving DecidableEq

/-- A dynamically typed script value. The fields of an object are in increasing order of name. -/
inductive Value where
  | null
  | bool (value : Bool)
  | int (value : Int64)
  | float (value : Float)
  | string (value : String)
  | array (items : List Value)
  | object (typeId : Option String) (fields : List (String × Value))
  | handle (target : Handle)
deriving Inhabited

namespace Value

def kindName : Value → String
  | .null => "null"
  | .bool _ => "bool"
  | .int _ => "int"
  | .float _ => "float"
  | .string _ => "string"
  | .array _ => "array"
  | .object _ _ => "object"
  | .handle _ => "handle"

def bool? : Value → Option Bool
  | .bool value => some value
  | _ => none

/-- The integer a value stands for; a whole float counts and is brought into the range of `Int64`. -/
def int? : Value → Option Int64
  | .int value => some value
  | .float value => (Number.whole? value).map Number.saturate
  | _ => none

def float? : Value → Option Float
  | .float value => some value
  | .int value => some (Number.ofInt64 value)
  | _ => none

def string? : Value → Option String
  | .string value => some value
  | _ => none

def items? : Value → Option (List Value)
  | .array items => some items
  | _ => none

def fields? : Value → Option (Fields Value)
  | .object _ fields => some fields
  | _ => none

def typeId? : Value → Option String
  | .object typeId _ => typeId
  | _ => none

def handle? : Value → Option Handle
  | .handle target => some target
  | _ => none

def get? (name : String) (value : Value) : Option Value := value.fields?.bind (Fields.find? name)

mutual

def display : Value → String
  | .null => "null"
  | .bool value => toString value
  | .int value => toString value.toInt
  | .float value => Number.display value
  | .string value => value
  | .array items => "[" ++ String.intercalate ", " (displayItems items) ++ "]"
  | .object typeId fields =>
    (typeId.map (· ++ " ")).getD "" ++ "\x7b" ++ String.intercalate ", " (displayFields fields) ++ "\x7d"
  | .handle target => "<" ++ target.typeId ++ " " ++ target.id.text ++ ">"

def displayItems : List Value → List String
  | [] => []
  | item :: rest => item.display :: displayItems rest

def displayFields : List (String × Value) → List String
  | [] => []
  | (name, value) :: rest => (name ++ ": " ++ value.display) :: displayFields rest

end

mutual

/-- Equality of contents. Floats compare as numbers, so that a NaN differs from itself. -/
def same : Value → Value → Bool
  | .null, .null => true
  | .bool a, .bool b => a == b
  | .int a, .int b => a == b
  | .float a, .float b => a == b
  | .string a, .string b => a == b
  | .array a, .array b => sameItems a b
  | .object s a, .object t b => s == t && sameFields a b
  | .handle a, .handle b => a == b
  | _, _ => false

def sameItems : List Value → List Value → Bool
  | [], [] => true
  | a :: as, b :: bs => a.same b && sameItems as bs
  | _, _ => false

def sameFields : List (String × Value) → List (String × Value) → Bool
  | [], [] => true
  | (s, a) :: as, (t, b) :: bs => s == t && a.same b && sameFields as bs
  | _, _ => false

end

instance : BEq Value := ⟨same⟩

end Value

end Patchbay
