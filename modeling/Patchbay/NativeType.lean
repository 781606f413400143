import Patchbay.PinType

set_option autoImplicit false

namespace Patchbay

inductive NativeType where
  | bool
  | int
  | int32
  | float
  | single
  | string
  | handle
  | value
  | list (element : NativeType)
deriving DecidableEq

inductive ReadError where
  | typeMismatch (expected : PinType) (actual : String)
  | outOfRange (value : Int64)
deriving DecidableEq

def ReadError.message : ReadError → String
  | .typeMismatch expected actual => "Expected " ++ expected.text ++ ", got " ++ actual
  | .outOfRange value => "Integer out of range: " ++ toString value.toInt

namespace NativeType

def Carrier : NativeType → Type
  | .bool => Bool
  | .int => Int64
  | .int32 => Int32
  | .float => Float
  | .single => Float32
  | .string => String
  | .handle => Handle
  | .value => Value
  | .list element => List element.Carrier

def pinType : NativeType → PinType
  | .bool => .bool
  | .int | .int32 => .int
  | .float | .single => .float
  | .string => .string
  | .handle => .handle ""
  | .value => .any
  | .list element => .array element.pinType

def expect {α : Type} (type : NativeType) (given : Value) : Option α → Except ReadError α
  | some result => .ok result
  | none => .error (.typeMismatch type.pinType given.kindName)

def narrow (wide : Int64) : Except ReadError Int32 :=
  if Number.fitsSigned 32 wide.toInt then .ok (Int32.ofInt wide.toInt) else .error (.outOfRange wide)

/-- Reads a value; of a list the first element that fails gives the error. -/
def read : (type : NativeType) → Value → Except ReadError type.Carrier
  | .bool, given => expect .bool given given.bool?
  | .int, given => expect .int given given.int?
  | .int32, given => expect .int32 given given.int? >>= narrow
  | .float, given => expect .float given given.float?
  | .single, given => expect .single given (given.float?.map Number.toSingle)
  | .string, given => expect .string given given.string?
  | .handle, given => expect .handle given given.handle?
  | .value, given => .ok given
  | .list element, given => expect (.list element) given given.items? >>= fun items =>
    items.mapM fun item => element.read item

def write : (type : NativeType) → type.Carrier → Value
  | .bool, x => .bool x
  | .int, x => .int x
  | .int32, x => .int (Int64.ofInt x.toInt)
  | .float, x => .float x
  | .single, x => .float (Number.ofSingle x)
  | .string, x => .string x
  | .handle, x => .handle x
  | .value, x => x
  | .list element, xs => .array (List.map (fun x => element.write x) xs)

end NativeType

end Patchbay
