import Patchbay.Number.Binary

set_option autoImplicit false

namespace Patchbay

def isDigit (c : Char) : Bool := '0' ≤ c && c ≤ '9'

def digitValue (c : Char) : Nat := c.toNat - 48

def digitsValue (digits : List Char) : Nat := digits.foldl (fun n c => 10 * n + digitValue c) 0

/-- A decimal number as it is written: sign, digits before and after the point, and the exponent
with its sign. -/
structure Numeral where
  negative : Bool
  whole : List Char
  fraction : Option (List Char)
  exponent : Option (Bool × List Char)

namespace Numeral

def scanFraction : List Char → Option (Option (List Char) × List Char)
  | '.' :: rest =>
    let digits := rest.takeWhile isDigit
    if digits.isEmpty then none else some (some digits, rest.dropWhile isDigit)
  | cs => some (none, cs)

def scanSign : List Char → Bool × List Char
  | '-' :: rest => (true, rest)
  | '+' :: rest => (false, rest)
  | cs => (false, cs)

def scanExponent : List Char → Option (Option (Bool × List Char) × List Char)
  | c :: rest =>
    if c = 'e' ∨ c = 'E' then
      let (negative, rest) := scanSign rest
      let digits := rest.takeWhile isDigit
      if digits.isEmpty then none else some (some (negative, digits), rest.dropWhile isDigit)
    else some (none, c :: rest)
  | [] => some (none, [])

def scanUnsigned (negative : Bool) (cs : List Char) : Option (Numeral × List Char) := do
  let whole := cs.takeWhile isDigit
  if whole.isEmpty ∨ (whole.head? = some '0' ∧ whole.length ≠ 1) then none
  else
    let (fraction, rest) ← scanFraction (cs.dropWhile isDigit)
    let (exponent, rest) ← scanExponent rest
    return (⟨negative, whole, fraction, exponent⟩, rest)

def scan : List Char → Option (Numeral × List Char)
  | '-' :: rest => scanUnsigned true rest
  | cs => scanUnsigned false cs

def takeDigits : Nat → List Char → Nat × Nat
  | significand, [] => (significand, 0)
  | significand, c :: rest =>
    let longer := 10 * significand + digitValue c
    if Number.fitsUnsigned 64 longer then
      let (result, count) := takeDigits longer rest
      (result, count + 1)
    else (significand, 0)

/-- Significand of at most 64 bits and decimal exponent. Digits that do not fit count into the
exponent before the point, and are dropped after it. -/
def parts (numeral : Numeral) : Nat × Int :=
  let (significand, taken) := takeDigits 0 numeral.whole
  let dropped : Int := numeral.whole.length - taken
  let (significand, places) := takeDigits significand (numeral.fraction.getD [])
  let shift : Int := match numeral.exponent with
    | none => 0
    | some (negative, digits) => if negative then -(digitsValue digits : Int) else digitsValue digits
  (significand, dropped - places + shift)

def powerOfTen (n : Nat) : Float := Number.doubleOfInt (tenTo n)

/-- `x * 10 ^ exponent` by one multiplication or division for exponents up to 308. Further down the
number is divided by `10 ^ 308` first; two such divisions leave zero of any 64-bit number. -/
def scale (x : Float) (exponent : Int) : Nat → Float
  | 0 => x
  | fuel + 1 =>
    if 0 ≤ exponent then x * powerOfTen exponent.toNat
    else if -308 ≤ exponent then x / powerOfTen (-exponent).toNat
    else scale (x / powerOfTen 308) (exponent + 308) fuel

def toFloat? (numeral : Numeral) : Option Float :=
  let (significand, exponent) := numeral.parts
  if significand = 0 then some (if numeral.negative then Float.ofBits 0x8000000000000000 else Float.ofBits 0)
  else if 308 < exponent then none
  else
    let magnitude := scale (Number.doubleOfInt significand) exponent 3
    if magnitude.isInf then none else some (if numeral.negative then -magnitude else magnitude)

/-- The double-precision number nearest to the one written; infinite if that is out of range. A
number of more than 400 places before or after the point need not be worked out. -/
def nearest (numeral : Numeral) : Float :=
  let digits := numeral.whole ++ numeral.fraction.getD []
  let significand := digitsValue digits
  let shift : Int := match numeral.exponent with
    | none => 0
    | some (negative, digits) => if negative then -(digitsValue digits : Int) else digitsValue digits
  let exponent := shift - (numeral.fraction.getD []).length
  let bits :=
    if significand = 0 ∨ exponent + digits.length < -400 then Format.double.nearest numeral.negative 0 0
    else if 400 < exponent then Format.double.nearest numeral.negative 1 1024
    else if 0 ≤ exponent then Format.double.nearest numeral.negative (significand * tenTo exponent.toNat) 0
    else Format.double.nearestQuotient numeral.negative significand (tenTo (-exponent).toNat)
  Float.ofBits (UInt64.ofNat bits)

def toInt? (numeral : Numeral) : Option Int :=
  if numeral.fraction.isSome ∨ numeral.exponent.isSome then none
  else
    let magnitude : Int := digitsValue numeral.whole
    if numeral.negative then if 0 < magnitude ∧ Number.fitsSigned 64 (-magnitude) then some (-magnitude) else none
    else if Number.fitsUnsigned 64 magnitude then some magnitude else none

end Numeral

end Patchbay
