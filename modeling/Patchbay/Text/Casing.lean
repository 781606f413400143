import Patchbay.Text.CaseTable

set_option autoImplicit false

namespace Patchbay.Text

def inTurns : List Nat → Nat → Bool
  | without :: within :: rest, code =>
    without ≤ code && (code < without + within || inTurns rest (code - without - within))
  | _, _ => false

def CaseRun.image? (run : CaseRun) (code : Nat) : Option Char :=
  if run.first ≤ code ∧ code < run.first + run.count * run.step ∧ (code - run.first) % run.step = 0 then
    some (Char.ofNat (code + run.delta).toNat)
  else none

def mapCase (runs : List CaseRun) (specials : List (Nat × List Nat)) (c : Char) : List Char :=
  match specials.find? (·.1 == c.toNat) with
  | some special => special.2.map Char.ofNat
  | none => [(runs.findSome? (·.image? c.toNat)).getD c]

def startsCased (cs : List Char) : Bool :=
  match cs.dropWhile (inTurns caseIgnorableTurns ·.toNat) with
  | c :: _ => inTurns casedTurns c.toNat
  | [] => false

/-- Lower case; a capital sigma at the end of a word takes its final form. `before` holds the
characters in front, in reverse. -/
def lowerFrom (before : List Char) : List Char → List Char
  | [] => []
  | c :: rest =>
    let image :=
      if c = 'Σ' then if startsCased before && !startsCased rest then ['ς'] else ['σ']
      else mapCase lowerRuns lowerSpecials c
    image ++ lowerFrom (c :: before) rest

def toUpper (cs : List Char) : List Char := cs.flatMap (mapCase upperRuns upperSpecials)

def toLower (cs : List Char) : List Char := lowerFrom [] cs

end Patchbay.Text
