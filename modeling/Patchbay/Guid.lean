
set_option autoImplicit false

namespace Patchbay

structure Guid where
  bits : BitVec 128
deriving DecidableEq

namespace Guid

def zero : Guid := ⟨0⟩

def hexDigit (n : Nat) : Char := "0123456789abcdef".toList.getD n '0'

def hexValue? (c : Char) : Option Nat :=
  let n := c.toNat
  if 48 ≤ n ∧ n ≤ 57 then some (n - 48)
  else if 97 ≤ n ∧ n ≤ 102 then some (n - 87)
  else if 65 ≤ n ∧ n ≤ 70 then some (n - 55)
  else none

def hexDigits : Nat → Nat → List Char
  | 0, _ => []
  | count + 1, n => hexDigits count (n / 16) ++ [hexDigit (n % 16)]

def ofHex? (cs : List Char) : Option Nat :=
  cs.foldlM (fun n c => (hexValue? c).map (16 * n + ·)) 0

def text (guid : Guid) : String :=
  let cs := hexDigits 32 guid.bits.toNat
  String.intercalate "-" <|
    [cs.take 8, (cs.drop 8).take 4, (cs.drop 12).take 4, (cs.drop 16).take 4, cs.drop 20].map String.ofList

def ofDigits? (cs : List Char) : Option Guid :=
  if cs.length = 32 then (ofHex? cs).map fun n => ⟨BitVec.ofNat 128 n⟩ else none

def ofHyphenated? (cs : List Char) : Option Guid :=
  let hyphens := [8, 13, 18, 23]
  if cs.length = 36 ∧ hyphens.all (fun i => cs[i]? == some '-') then
    ofDigits? (cs.take 8 ++ (cs.drop 9).take 4 ++ (cs.drop 14).take 4 ++ (cs.drop 19).take 4 ++ cs.drop 24)
  else none

def ofBytes (bytes : List Nat) : Guid := ⟨BitVec.ofNat 128 (bytes.foldl (256 * · + ·) 0)⟩

/-- Reads 32 bare digits, the hyphenated form, and the hyphenated form inside braces or after
`urn:uuid:` in any case. -/
def parse? (s : String) : Option Guid :=
  let cs := s.toList
  match cs.length with
  | 32 => ofDigits? cs
  | 36 => ofHyphenated? cs
  | 38 =>
    if cs.head? = some '\x7b' ∧ cs.getLast? = some '\x7d' then ofHyphenated? (cs.drop 1).dropLast else none
  | 45 => if (cs.take 9).map Char.toLower = "urn:uuid:".toList then ofHyphenated? (cs.drop 9) else none
  | _ => none

end Guid

end Patchbay
