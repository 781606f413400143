import Patchbay.Catalog

set_option autoImplicit false

namespace Patchbay.Library

variable {σ : Type}

def function (category key name : String) (description : Option String) (inputs : List Native.Slot)
    (result : NativeType) (call : List Value → Except InvokeError (List Value)) : Native σ :=
  .ofPure ⟨key, name, category, true, description, inputs.map (·.parameter), [⟨"Result", result.pinType⟩]⟩ call

def pair (type : NativeType) : List Native.Slot := [⟨"A", type⟩, ⟨"B", type⟩]

def value (type : NativeType) : List Native.Slot := [⟨"Value", type⟩]

def divideInt (a b : Int64) : Except String Int64 :=
  if b = 0 ∨ (a = Int64.minValue ∧ b = -1) then
    .error ("cannot divide " ++ toString a.toInt ++ " by " ++ toString b.toInt)
  else .ok (a / b)

def moduloInt (a b : Int64) : Except String Int64 :=
  if b = 0 ∨ (a = Int64.minValue ∧ b = -1) then
    .error ("cannot take " ++ toString a.toInt ++ " modulo " ++ toString b.toInt)
  else .ok (a % b)

/-- The value inside the bounds; bounds in the wrong order or not comparable leave it alone. -/
def clamp (x low high : Float) : Float :=
  if low ≤ high then if x < low then low else if high < x then high else x else x

def equal : Value → Value → Bool
  | .int a, .int b => Number.ofInt64 a == Number.ofInt64 b
  | .int a, .float b => Number.ofInt64 a == b
  | .float a, .int b => a == Number.ofInt64 b
  | a, b => a.same b

def clampCall (arguments : List Value) : Except InvokeError (List Value) := do
  let x ← argument .float 0 arguments
  let low ← argument .float 1 arguments
  let high ← argument .float 2 arguments
  return Native.single .float (clamp x low high)

def math (key name : String) (description : Option String) (inputs : List Native.Slot) (result : NativeType)
    (call : List Value → Except InvokeError (List Value)) : Native σ :=
  function "Math" ("math/" ++ key) name description inputs result call

def mathFunctions : List (Native σ) := [
  math "add_int" "Add (Int)" (some "Add two integers") (pair .int) .int
    (Native.binary .int .int .int fun a b => Int64.add a b),
  math "subtract_int" "Subtract (Int)" (some "Subtract B from A") (pair .int) .int
    (Native.binary .int .int .int fun a b => Int64.sub a b),
  math "multiply_int" "Multiply (Int)" none (pair .int) .int
    (Native.binary .int .int .int fun a b => Int64.mul a b),
  math "divide_int" "Divide (Int)" (some "Integer division, truncating toward zero") (pair .int) .int
    (Native.partialBinary .int .int .int divideInt),
  math "modulo_int" "Modulo (Int)" none (pair .int) .int (Native.partialBinary .int .int .int moduloInt),
  math "add_float" "Add" (some "Add two numbers") (pair .float) .float
    (Native.binary .float .float .float fun a b => Float.add a b),
  math "subtract_float" "Subtract" none (pair .float) .float
    (Native.binary .float .float .float fun a b => Float.sub a b),
  math "multiply_float" "Multiply" none (pair .float) .float
    (Native.binary .float .float .float fun a b => Float.mul a b),
  math "divide_float" "Divide" (some "Divide A by B; dividing by zero yields infinity or NaN") (pair .float) .float
    (Native.binary .float .float .float fun a b => Float.div a b),
  math "min_int" "Min (Int)" none (pair .int) .int
    (Native.binary .int .int .int fun (a b : Int64) => if b < a then b else a),
  math "max_int" "Max (Int)" none (pair .int) .int
    (Native.binary .int .int .int fun (a b : Int64) => if a < b then b else a),
  math "clamp_float" "Clamp" (some "Clamp a value between Min and Max")
    [⟨"Value", .float⟩, ⟨"Min", .float⟩, ⟨"Max", .float⟩] .float clampCall,
  math "abs_float" "Abs" none (value .float) .float (Native.unary .float .float fun a => Float.abs a),
  math "sqrt" "Square Root" none (value .float) .float (Native.unary .float .float fun a => Float.sqrt a),
  math "to_float" "To Float" none (value .int) .float (Native.unary .int .float Number.ofInt64),
  math "equal" "Equal" (some "Compare two values; numbers compare by value across Int and Float") (pair .value) .bool
    (Native.binary .value .value .bool equal),
  math "less_int" "Less (Int)" none (pair .int) .bool
    (Native.binary .int .int .bool fun (a b : Int64) => decide (a < b)),
  math "greater_int" "Greater (Int)" none (pair .int) .bool
    (Native.binary .int .int .bool fun (a b : Int64) => decide (b < a)),
  math "less_float" "Less" none (pair .float) .bool
    (Native.binary .float .float .bool fun (a b : Float) => decide (a < b)),
  math "greater_float" "Greater" none (pair .float) .bool
    (Native.binary .float .float .bool fun (a b : Float) => decide (b < a))]

def logic (key name : String) (inputs : List Native.Slot) (call : List Value → Except InvokeError (List Value)) :
    Native σ :=
  function "Logic" ("logic/" ++ key) name none inputs .bool call

def logicFunctions : List (Native σ) := [
  logic "and" "And" (pair .bool) (Native.binary .bool .bool .bool fun a b => and a b),
  logic "or" "Or" (pair .bool) (Native.binary .bool .bool .bool fun a b => or a b),
  logic "xor" "Xor" (pair .bool) (Native.binary .bool .bool .bool fun a b => xor a b),
  logic "not" "Not" (value .bool) (Native.unary .bool .bool fun a => not a)]

end Patchbay.Library
