import Patchbay.Document
import Patchbay.Document.Medium

set_option autoImplicit false

namespace Patchbay

/-- Known fields of a record, found by name in an object or by position in a list. -/
structure Record where
  listed : Bool
  entries : List (String × Document)

namespace Document

/-- Read as a record with the given fields. In an object unknown fields are ignored, and a known one
must not occur twice; a list gives the first fields in order. -/
def record? (names : List String) : Document → Option Record
  | .object entries =>
    if names.all fun name => (entriesNamed name entries).length ≤ 1 then
      some ⟨false, entries.filter fun entry => names.contains entry.1⟩
    else none
  | .array items => if items.length ≤ names.length then some ⟨true, names.zip items⟩ else none
  | _ => none

def namedRecord? (names : List String) : Document → Option Record
  | .object entries => record? names (.object entries)
  | _ => none

def recordIn? (medium : Medium) (names : List String) : Document → Option Record
  | .array items => if medium = .toml then some ⟨true, names.zip items⟩ else record? names (.array items)
  | document => record? names document

def bool? : Document → Option Bool
  | .bool value => some value
  | _ => none

def int64? : Document → Option Int64
  | .int value => if Number.fitsSigned 64 value then some (Int64.ofInt value) else none
  | _ => none

def nat? : Document → Option Nat
  | .int value => if Number.fitsUnsigned 64 value then some value.toNat else none
  | _ => none

def float? : Document → Option Float
  | .float value => some value
  | .int value => some (Number.doubleOfInt value)
  | .single value => some (Number.ofSingle value)
  | _ => none

def single? : Document → Option Float32
  | .float value => some (Number.toSingle value)
  | .int value => some (Number.singleOfInt value)
  | .single value => some value
  | _ => none

def string? : Document → Option String
  | .string value => some value
  | _ => none

def guid? : Document → Option Guid
  | .string value => Guid.parse? value
  | _ => none

def byte? : Document → Option Nat
  | .int value => if Number.fitsUnsigned 8 value then some value.toNat else none
  | _ => none

def guidIn? (medium : Medium) : Document → Option Guid
  | .array items => do
    let bytes ← (items.take 16).mapM byte?
    if medium = .toml ∧ bytes.length = 16 then some (Guid.ofBytes bytes) else none
  | document => guid? document

def list? {α : Type} (read : Document → Option α) : Document → Option (List α)
  | .array items => items.mapM read
  | _ => none

def map? {α : Type} (read : Document → Option α) : Document → Option (List (String × α))
  | .object entries => entries.mapM fun entry => (read entry.2).map (entry.1, ·)
  | _ => none

def nullable? {α : Type} (read : Document → Option α) : Document → Option (Option α)
  | .null => some none
  | document => (read document).map some

end Document

namespace Record

variable {α : Type}

def find? (name : String) (record : Record) : Option Document :=
  (record.entries.find? (·.1 == name)).map (·.2)

def required (record : Record) (name : String) (read : Document → Option α) : Option α :=
  (record.find? name).bind read

def withDefault (record : Record) (name : String) (default : α) (read : Document → Option α) : Option α :=
  match record.find? name with
  | some document => read document
  | none => some default

def optional (record : Record) (name : String) (read : Document → Option α) : Option (Option α) :=
  record.withDefault name none (Document.nullable? read)

def nullable (record : Record) (name : String) (read : Document → Option α) : Option (Option α) :=
  match record.find? name with
  | some document => Document.nullable? read document
  | none => if record.listed then none else some none

end Record

end Patchbay
