set_option autoImplicit false

namespace Patchbay.Text

def isBlank (c : Char) : Bool :=
  let n := c.toNat
  (9 ≤ n && n ≤ 13) || n == 0x20 || n == 0x85 || n == 0xa0 || n == 0x1680 || (0x2000 ≤ n && n ≤ 0x200a)
    || n == 0x2028 || n == 0x2029 || n == 0x202f || n == 0x205f || n == 0x3000

def trim (cs : List Char) : List Char :=
  ((cs.dropWhile isBlank).reverse.dropWhile isBlank).reverse

theorem length_dropWhile_le (p : Char → Bool) (cs : List Char) : (cs.dropWhile p).length ≤ cs.length := by
  induction cs with
  | nil => simp
  | cons c rest ih =>
    by_cases kept : p c
    · simpa [List.dropWhile_cons, kept] using Nat.le_succ_of_le ih
    · simp [kept]

theorem length_trim_le (cs : List Char) : (trim cs).length ≤ cs.length := by
  have inner := length_dropWhile_le isBlank (cs.dropWhile isBlank).reverse
  have outer := length_dropWhile_le isBlank cs
  simp only [trim, List.length_reverse] at *
  omega

end Patchbay.Text
