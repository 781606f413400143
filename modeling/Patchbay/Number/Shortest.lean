import Patchbay.Number.Binary

set_option autoImplicit false

namespace Patchbay

structure Decimal where
  digits : Nat
  exponent : Int

/-- Which of two decimals stands for a number halfway between them: the upper, or the one whose last
digit is even. -/
inductive Tie where
  | upper
  | even
deriving DecidableEq

def Tie.goesUp (below : Nat) : Tie → Bool
  | .upper => true
  | .even => below % 2 == 1

namespace Format

/-- Search the decimal grids from coarse to fine for a number that rounds to
`significand * 2 ^ exponent`. The two neighbours of the number on a grid are enough: if the
rounding interval holds a point of the grid, it holds one of them. An interval end belongs to the
number exactly when the significand is even. Of two hits the nearer counts. -/
def searchShortest (format : Format) (tie : Tie) (significand : Nat) (exponent : Int) : Nat → Int → Decimal
  | 0, grid => ⟨0, grid⟩
  | fuel + 1, grid =>
    let low := if significand = twoTo (format.precision - 1) ∧ format.least < exponent then 1 else 2
    let scale := twoTo (exponent - 2).toNat * tenTo (-grid).toNat
    let unit := twoTo (2 - exponent).toNat * tenTo grid.toNat
    let value := 4 * significand * scale
    let bottom := (4 * significand - low) * scale
    let top := (4 * significand + 2) * scale
    let inside (point : Nat) : Bool :=
      if significand % 2 = 0 then bottom ≤ point ∧ point ≤ top else bottom < point ∧ point < top
    let below := value / unit
    let above := below + 1
    if inside (below * unit) then
      let down := value - below * unit
      let up := above * unit - value
      if inside (above * unit) ∧ (up < down ∨ (up = down ∧ tie.goesUp below)) then ⟨above, grid⟩
      else ⟨below, grid⟩
    else if inside (above * unit) then ⟨above, grid⟩
    else searchShortest format tie significand exponent fuel (grid - 1)

def shortest (format : Format) (tie : Tie) (significand : Nat) (exponent : Int) : Decimal :=
  let magnitude := (exponent + Nat.log2 significand + 1) * 30103 / 100000 + 1
  searchShortest format tie significand exponent 24 magnitude

end Format

end Patchbay
