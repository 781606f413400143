import Patchbay.Number.Shortest

set_option autoImplicit false

namespace Patchbay

namespace Decimal

def digitChars (decimal : Decimal) : List Char := Nat.toDigits 10 decimal.digits

def point (decimal : Decimal) : Int := decimal.digitChars.length + decimal.exponent

def zeros (count : Int) : List Char := List.replicate count.toNat '0'

def positional (decimal : Decimal) : List Char :=
  let digits := decimal.digitChars
  let point := decimal.point
  if 0 ≤ decimal.exponent then digits ++ zeros decimal.exponent
  else if 0 < point then digits.take point.toNat ++ '.' :: digits.drop point.toNat
  else '0' :: '.' :: zeros (-point) ++ digits

def powerText (power : Int) : List Char := (if power < 0 then '-' else '+') :: Nat.toDigits 10 power.natAbs

def scientific (decimal : Decimal) : List Char :=
  let power := powerText (decimal.point - 1)
  match decimal.digitChars with
  | [] => []
  | [digit] => digit :: 'e' :: power
  | digit :: rest => digit :: '.' :: rest ++ 'e' :: power

end Decimal

/-- How numbers stand in a document: plain notation while the decimal point lies inside the given
range, and a whole number keeps `.0`. A tie between two shortest decimals goes to the even digit. -/
structure DocumentStyle where
  lowest : Int
  highest : Int

namespace DocumentStyle

def double : DocumentStyle := ⟨-4, 16⟩

def single : DocumentStyle := ⟨-5, 13⟩

def decimalText (style : DocumentStyle) (decimal : Decimal) : List Char :=
  if style.lowest ≤ decimal.point ∧ decimal.point ≤ style.highest then
    decimal.positional ++ if 0 ≤ decimal.exponent then ['.', '0'] else []
  else decimal.scientific

def text? (style : DocumentStyle) (format : Format) : Decoded → Option String
  | .finite negative significand exponent =>
    let body := if significand = 0 then "0.0".toList else style.decimalText (format.shortest .even significand exponent)
    some (String.ofList (if negative then '-' :: body else body))
  | _ => none

end DocumentStyle

namespace Number

def display (x : Float) : String :=
  match decodeDouble x with
  | .nan => "NaN"
  | .infinite negative => if negative then "-inf" else "inf"
  | .finite negative significand exponent =>
    let body := if significand = 0 then ['0'] else (Format.double.shortest .upper significand exponent).positional
    String.ofList (if negative then '-' :: body else body)

end Number

end Patchbay
