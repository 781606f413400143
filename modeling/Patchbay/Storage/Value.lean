import Patchbay.Document.Record
import Patchbay.Document.Tagged
import Patchbay.PinType

set_option autoImplicit false

namespace Patchbay

def Handle.toDocument (handle : Handle) : Document :=
  .object [("id", .ofGuid handle.id), ("type_id", .string handle.typeId)]

def Handle.ofDocument? (document : Document) : Option Handle := do
  let record ← document.record? ["id", "type_id"]
  return ⟨← record.required "id" Document.guid?, ← record.required "type_id" Document.string?⟩

namespace Value

def kindDocument (kind : String) (content : Document) : Document :=
  .object [("kind", .string kind), ("value", content)]

def typeEntry : Option String → List (String × Document)
  | some typeId => [("type", .string typeId)]
  | none => []

mutual

def toDocument : Value → Document
  | .null => .object [("kind", .string "Null")]
  | .bool value => kindDocument "Bool" (.bool value)
  | .int value => kindDocument "Int" (.int value.toInt)
  | .float value => kindDocument "Float" (if value.isFinite then .float value else .null)
  | .string value => kindDocument "String" (.string value)
  | .array items => kindDocument "Array" (.array (itemDocuments items))
  | .object typeId fields =>
    kindDocument "Object" (.object (typeEntry typeId ++ [("fields", .object (fieldDocuments fields))]))
  | .handle target => kindDocument "Handle" target.toDocument

def itemDocuments : List Value → List Document
  | [] => []
  | item :: rest => item.toDocument :: itemDocuments rest

def fieldDocuments : List (String × Value) → List (String × Document)
  | [] => []
  | (name, value) :: rest => (name, value.toDocument) :: fieldDocuments rest

end

def objectRecord? : Document → Option Record := Document.namedRecord? ["type", "fields"]

def kindNames : List String := ["Null", "Bool", "Int", "Float", "String", "Array", "Object", "Handle"]

def readNested : Nat → Medium → Document → Option Value
  | 0, _, _ => none
  | fuel + 1, medium, document => do
    let (kind, medium, content) ← document.beside? medium "kind" "value" kindNames
    match kind, content with
    | "Null", none => some .null
    | "Null", some .null => some .null
    | "Bool", some content => content.bool?.map .bool
    | "Int", some content => content.int64?.map .int
    | "Float", some content => content.float?.map .float
    | "String", some content => content.string?.map .string
    | "Array", some content => (content.list? (readNested fuel medium)).map .array
    | "Object", some content =>
      let record ← objectRecord? content
      let typeId ← record.optional "type" Document.string?
      let fields ← record.withDefault "fields" [] (Document.map? (readNested fuel medium))
      some (.object typeId (Fields.ofList fields))
    | "Handle", some content => (Handle.ofDocument? content).map .handle
    | _, _ => none

def read (medium : Medium) (document : Document) : Option Value := readNested document.depth medium document

def ofDocument? : Document → Option Value := read .json

end Value

namespace PinType

def toDocument : PinType → Document
  | .any => .tag "type" "Any" []
  | .bool => .tag "type" "Bool" []
  | .int => .tag "type" "Int" []
  | .float => .tag "type" "Float" []
  | .string => .tag "type" "String" []
  | .array element => .tag "type" "Array" [("element", element.toDocument)]
  | .object typeId => .tag "type" "Object" [("type_id", .string typeId)]
  | .handle typeId => .tag "type" "Handle" [("type_id", .string typeId)]

def tagNames : List String := ["Any", "Bool", "Int", "Float", "String", "Array", "Object", "Handle"]

def readNested : Nat → Medium → Document → Option PinType
  | 0, _, _ => none
  | fuel + 1, medium, document => do
    let (name, content) ← document.tagged? medium "type" tagNames
    let simple (type : PinType) : Option PinType := if content.isEmptyContent then some type else none
    match name with
    | "Any" => simple .any
    | "Bool" => simple .bool
    | "Int" => simple .int
    | "Float" => simple .float
    | "String" => simple .string
    | "Array" => ((← content.record? ["element"]).required "element" (readNested fuel .held)).map .array
    | "Object" => ((← content.record? ["type_id"]).required "type_id" Document.string?).map .object
    | "Handle" => ((← content.record? ["type_id"]).required "type_id" Document.string?).map .handle
    | _ => none

def read (medium : Medium) (document : Document) : Option PinType := readNested document.depth medium document

def ofDocument? : Document → Option PinType := read .json

end PinType

namespace Parameter

def toDocument (parameter : Parameter) : Document :=
  .object [("name", .string parameter.name), ("type", parameter.type.toDocument)]

def read (medium : Medium) (document : Document) : Option Parameter := do
  let record ← document.record? ["name", "type"]
  return ⟨← record.required "name" Document.string?, ← record.required "type" (PinType.read medium)⟩

def ofDocument? : Document → Option Parameter := read .json

end Parameter

end Patchbay
