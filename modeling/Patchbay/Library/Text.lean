import Patchbay.Library.Math
import Patchbay.Text.Casing
import Patchbay.Text.Search

set_option autoImplicit false

namespace Patchbay.Library

variable {σ : Type}

def maxRange : Int64 := 1048576

def onChars (f : List Char → List Char) (s : String) : String := String.ofList (f s.toList)

def textFunction (key name : String) (description : Option String) (inputs : List Native.Slot) (result : NativeType)
    (call : List Value → Except InvokeError (List Value)) : Native σ :=
  function "String" ("string/" ++ key) name description inputs result call

def textFunctions : List (Native σ) := [
  textFunction "concat" "Concat" none (pair .string) .string
    (Native.binary .string .string .string fun a b => String.append a b),
  textFunction "length" "Length" (some "Length in characters") [⟨"Text", .string⟩] .int
    (Native.unary .string .int fun (s : String) => Int64.ofNat s.length),
  textFunction "contains" "Contains" none [⟨"Text", .string⟩, ⟨"Pattern", .string⟩] .bool
    (Native.binary .string .string .bool fun (s pattern : String) => Text.contains pattern.toList s.toList),
  textFunction "to_upper" "To Upper" none [⟨"Text", .string⟩] .string
    (Native.unary .string .string (onChars Text.toUpper)),
  textFunction "to_lower" "To Lower" none [⟨"Text", .string⟩] .string
    (Native.unary .string .string (onChars Text.toLower)),
  textFunction "to_string" "To String" (some "Display form of any value") (value .value) .string
    (Native.unary .value .string Value.display),
  textFunction "split" "Split" none [⟨"Text", .string⟩, ⟨"Separator", .string⟩] (.list .string)
    (Native.binary .string .string (.list .string) fun (s separator : String) =>
      (Text.split separator.toList s.toList).map String.ofList)]

def item (items : List Value) (index : Int64) : Value × Bool :=
  if index < 0 then (.null, false)
  else
    match items[index.toInt.toNat]? with
    | some item => (item, true)
    | none => (.null, false)

def itemCall (arguments : List Value) : Except InvokeError (List Value) := do
  let items ← argument (.list .value) 0 arguments
  let index ← argument .int 1 arguments
  let result := item items index
  return [result.1, .bool result.2]

/-- The difference of two integers or, where it does not fit, the last one on the way to it. -/
def saturatingSub (a b : Int64) : Int64 :=
  let difference := a - b
  if b < 0 then if difference < a then .maxValue else difference
  else if a < difference then .minValue else difference

def range (first last : Int64) : Except String (List Int64) :=
  if maxRange ≤ saturatingSub last first then
    .error ("range " ++ toString first.toInt ++ "..=" ++ toString last.toInt ++ " is longer than " ++ toString maxRange.toInt)
  else .ok ((List.range (last.toInt - first.toInt + 1).toNat).map fun (k : Nat) => first + Int64.ofNat k)

def arrayFunction (key name : String) (description : Option String) (inputs : List Native.Slot) (result : NativeType)
    (call : List Value → Except InvokeError (List Value)) : Native σ :=
  function "Array" ("array/" ++ key) name description inputs result call

def arrayFunctions : List (Native σ) := [
  arrayFunction "length" "Length" none [⟨"Array", .list .value⟩] .int
    (Native.unary (.list .value) .int fun (items : List Value) => Int64.ofNat items.length),
  .ofPure ⟨"array/get", "Get", "Array", true, some "Element at Index, or Valid = false when out of range",
    [⟨"Array", .array .any⟩, ⟨"Index", .int⟩], [⟨"Item", .any⟩, ⟨"Valid", .bool⟩]⟩ itemCall,
  arrayFunction "push" "Push" (some "Copy of the array with Item appended")
    [⟨"Array", .list .value⟩, ⟨"Item", .value⟩] (.list .value)
    (Native.binary (.list .value) .value (.list .value) fun (items : List Value) (item : Value) => items ++ [item]),
  arrayFunction "contains" "Contains" none [⟨"Array", .list .value⟩, ⟨"Item", .value⟩] .bool
    (Native.binary (.list .value) .value .bool fun (items : List Value) (item : Value) => items.any (equal · item)),
  arrayFunction "range" "Range" (some "Integers from First to Last inclusive") [⟨"First", .int⟩, ⟨"Last", .int⟩]
    (.list .int) (Native.partialBinary .int .int (.list .int) range)]

end Patchbay.Library
