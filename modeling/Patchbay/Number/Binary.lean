set_option autoImplicit false

namespace Patchbay

def twoTo (n : Nat) : Nat := Nat.pow 2 n

def tenTo (n : Nat) : Nat := Nat.pow 10 n

structure Format where
  precision : Nat
  exponentBits : Nat

namespace Format

def double : Format := ⟨53, 11⟩

def single : Format := ⟨24, 8⟩

def least (format : Format) : Int :=
  3 - twoTo (format.exponentBits - 1) - format.precision

def infinity (format : Format) : Nat :=
  (twoTo format.exponentBits - 1) * twoTo (format.precision - 1)

def signBit (format : Format) : Nat := twoTo (format.precision - 1 + format.exponentBits)

end Format

/-- What a bit pattern stands for: a finite one is the number `significand * 2 ^ exponent`, with
its sign. -/
inductive Decoded where
  | nan
  | infinite (negative : Bool)
  | finite (negative : Bool) (significand : Nat) (exponent : Int)

/-- `n / 2 ^ shift` to the nearest integer, a half going to the even neighbour. -/
def roundShift (n shift : Nat) : Nat :=
  let unit := twoTo shift
  let quotient := n / unit
  let twice := 2 * (n % unit)
  if twice < unit ∨ (twice = unit ∧ quotient % 2 = 0) then quotient else quotient + 1

namespace Format

def decode (format : Format) (bits : Nat) : Decoded :=
  let fractionUnit := twoTo (format.precision - 1)
  let fraction := bits % fractionUnit
  let biased := bits / fractionUnit % twoTo format.exponentBits
  let negative := bits / format.signBit % 2 == 1
  if biased = twoTo format.exponentBits - 1 then
    if fraction = 0 then .infinite negative else .nan
  else if biased = 0 then .finite negative fraction format.least
  else .finite negative (fraction + fractionUnit) (format.least + biased - 1)

/-- Bit pattern of the number nearest to `significand * 2 ^ exponent`, ties to even. The exponent
field and the significand overlap in one bit, so a carry out of the significand moves the exponent
up. -/
def nearest (format : Format) (negative : Bool) (significand : Nat) (exponent : Int) : Nat :=
  let sign := if negative then format.signBit else 0
  if significand = 0 then sign
  else
    let width : Int := Nat.log2 significand + 1
    let grid := max (exponent + width - format.precision) format.least
    let scaled :=
      if grid ≤ exponent then significand * twoTo (exponent - grid).toNat
      else roundShift significand (grid - exponent).toNat
    let magnitude := (grid - format.least).toNat * twoTo (format.precision - 1) + scaled
    sign + min magnitude format.infinity

/-- Bit pattern of the number nearest to a quotient. The quotient is taken to more bits than the
format has, and a last bit tells whether anything remains, so the second rounding sees on which side
of a tie the quotient lies. -/
def nearestQuotient (format : Format) (negative : Bool) (numerator denominator : Nat) : Nat :=
  let shift := Nat.log2 denominator + format.precision + 3 - Nat.log2 numerator
  let scaled := numerator * twoTo shift
  let remains := if scaled % denominator = 0 then 0 else 1
  format.nearest negative (2 * (scaled / denominator) + remains) (-(shift : Int) - 1)

end Format

namespace Number

def decodeDouble (x : Float) : Decoded := Format.double.decode x.toBits.toNat

def decodeSingle (x : Float32) : Decoded := Format.single.decode x.toBits.toNat

def toSingle (x : Float) : Float32 :=
  match decodeDouble x with
  | .nan => Float32.ofBits 0x7fc00000
  | .infinite negative =>
    Float32.ofBits (UInt32.ofNat ((if negative then Format.single.signBit else 0) + Format.single.infinity))
  | .finite negative significand exponent =>
    Float32.ofBits (UInt32.ofNat (Format.single.nearest negative significand exponent))

def ofSingle (x : Float32) : Float :=
  match decodeSingle x with
  | .nan => Float.ofBits 0x7ff8000000000000
  | .infinite negative =>
    Float.ofBits (UInt64.ofNat ((if negative then Format.double.signBit else 0) + Format.double.infinity))
  | .finite negative significand exponent =>
    Float.ofBits (UInt64.ofNat (Format.double.nearest negative significand exponent))

def whole? (x : Float) : Option Int :=
  match decodeDouble x with
  | .finite negative significand exponent =>
    let unit := twoTo (-exponent).toNat
    if significand % unit = 0 then
      let magnitude : Int := (significand / unit * twoTo exponent.toNat : Nat)
      some (if negative then -magnitude else magnitude)
    else none
  | _ => none

def fitsSigned (bits : Nat) (n : Int) : Bool := -(twoTo (bits - 1) : Int) ≤ n && n < twoTo (bits - 1)

def fitsUnsigned (bits : Nat) (n : Int) : Bool := 0 ≤ n && n < twoTo bits

def saturate (n : Int) : Int64 :=
  if fitsSigned 64 n then Int64.ofInt n else if n < 0 then Int64.minValue else Int64.maxValue

def ofInt64 (n : Int64) : Float :=
  if n < 0 then -(0 - n).toUInt64.toFloat else n.toUInt64.toFloat

def singleOfInt (n : Int) : Float32 :=
  Float32.ofBits (UInt32.ofNat (Format.single.nearest (n < 0) n.natAbs 0))

def doubleOfInt (n : Int) : Float :=
  Float.ofBits (UInt64.ofNat (Format.double.nearest (n < 0) n.natAbs 0))

end Number

end Patchbay
