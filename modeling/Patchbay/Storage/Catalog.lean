import Patchbay.Catalog
import Patchbay.Run.Env
import Patchbay.Storage.Node

set_option autoImplicit false

namespace Patchbay

namespace FunctionInfo

def fieldNames : List String := ["key", "name", "category", "pure", "description", "inputs", "outputs"]

def toDocument (info : FunctionInfo) : Document :=
  .object ([("key", .string info.key), ("name", .string info.name), ("category", .string info.category),
      ("pure", .bool info.isPure)]
    ++ optionalEntry "description" Document.string info.description
    ++ [("inputs", .ofList Parameter.toDocument info.inputs), ("outputs", .ofList Parameter.toDocument info.outputs)])

def ofDocument? (document : Document) : Option FunctionInfo := do
  let record ← document.record? fieldNames
  return ⟨← record.required "key" Document.string?, ← record.required "name" Document.string?,
    ← record.required "category" Document.string?, ← record.required "pure" Document.bool?,
    ← record.optional "description" Document.string?,
    ← record.required "inputs" (Document.list? Parameter.ofDocument?),
    ← record.required "outputs" (Document.list? Parameter.ofDocument?)⟩

end FunctionInfo

namespace Limits

def fieldNames : List String := ["max_steps", "max_call_depth", "max_implicit_depth"]

def entries (limits : Limits) : List (String × Document) :=
  [("max_steps", .ofNat limits.maxSteps), ("max_call_depth", .ofNat limits.maxCallDepth),
    ("max_implicit_depth", .ofNat limits.maxImplicitDepth)]

def toDocument (limits : Limits) : Document := .object limits.entries

def ofRecord? (record : Record) : Option Limits := do
  return ⟨← record.withDefault "max_steps" Limits.default.maxSteps Document.nat?,
    ← record.withDefault "max_call_depth" Limits.default.maxCallDepth Document.nat?,
    ← record.withDefault "max_implicit_depth" Limits.default.maxImplicitDepth Document.nat?⟩

def ofDocument? (document : Document) : Option Limits := do ofRecord? (← document.record? fieldNames)

end Limits

end Patchbay
