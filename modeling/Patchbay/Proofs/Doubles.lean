import Mathlib
import Patchbay.Number.Binary

set_option autoImplicit false

namespace Patchbay

theorem round_shift_cases (n s : Nat) :
    (roundShift n s = n / 2 ^ s ∧ 2 * (n % 2 ^ s) ≤ 2 ^ s) ∨
      (roundShift n s = n / 2 ^ s + 1 ∧ 2 ^ s ≤ 2 * (n % 2 ^ s)) := by
  by_cases stays : 2 * (n % 2 ^ s) < 2 ^ s ∨ (2 * (n % 2 ^ s) = 2 ^ s ∧ n / 2 ^ s % 2 = 0)
  · exact .inl ⟨if_pos stays, by omega⟩
  · exact .inr ⟨if_neg stays, by omega⟩

theorem round_shift_none (n : Nat) : roundShift n 0 = n := by
  have cases := round_shift_cases n 0
  rw [Nat.pow_zero, Nat.div_one, Nat.mod_one] at cases
  omega

theorem round_shift_close (n s : Nat) :
    2 * (roundShift n s * 2 ^ s) ≤ 2 * n + 2 ^ s ∧ 2 * n ≤ 2 * (roundShift n s * 2 ^ s) + 2 ^ s := by
  have parts := Nat.div_add_mod' n (2 ^ s)
  obtain ⟨down, small⟩ | ⟨up, large⟩ := round_shift_cases n s
  · rw [down]
    omega
  · have less := Nat.mod_lt n (Nat.two_pow_pos s)
    rw [up, Nat.add_one_mul (n / 2 ^ s)]
    omega

namespace Double

open Float.Model Float.Model.UnpackedFloat

/-- What is left of `m / 2 ^ s` after `s` shifts by one place: the quotient, whether at least half a unit was shifted out, and
whether what was shifted out is neither nothing nor half a unit. -/
structure Shifted (m s : Nat) (left : ExtendedMantissa) : Prop where
  quotient : left.mantissa = m / 2 ^ s
  half : left.roundBit = true ↔ 2 ^ s ≤ 2 * (m % 2 ^ s)
  between : left.stickyBit = true ↔ 2 * (m % 2 ^ s) ≠ 0 ∧ 2 * (m % 2 ^ s) ≠ 2 ^ s

variable {m s n significand whole place : Nat} {left : ExtendedMantissa} {unpacked : UnpackedFloat} {a b : Int}

theorem shifted_once (shifted : Shifted m s left) :
    Shifted m (s + 1) left.shiftRightOne := by
  have small := Nat.mod_lt m (Nat.two_pow_pos s)
  have parts : m % 2 ^ (s + 1) = m % 2 ^ s + 2 ^ s * (m / 2 ^ s % 2) := by
    rw [Nat.pow_succ, Nat.mod_mul]
  have double : 2 ^ (s + 1) = 2 * 2 ^ s := by
    rw [Nat.pow_succ, Nat.mul_comm]
  have bit := Nat.mod_two_eq_zero_or_one (m / 2 ^ s)
  constructor
  · simp only [ExtendedMantissa.shiftRightOne, shifted.quotient, Nat.pow_succ, Nat.div_div_eq_div_mul]
  · rw [parts, double]
    simp only [ExtendedMantissa.shiftRightOne, shifted.quotient, bne_iff_ne]
    obtain even | odd := bit
    · rw [even]
      omega
    · rw [odd]
      omega
  · rw [parts, double]
    simp only [ExtendedMantissa.shiftRightOne, Bool.or_eq_true, shifted.half, shifted.between]
    obtain even | odd := bit
    · rw [even]
      omega
    · rw [odd]
      omega

theorem shifted_all (m s : Nat) : Shifted m s (ExtendedMantissa.ofMantissaAndAccuracy m .exact >>> s) := by
  induction s with
  | zero => constructor <;> simp [HShiftRight.hShiftRight, Nat.repeat, ExtendedMantissa.ofMantissaAndAccuracy, Nat.mod_one]
  | succ s ih => exact shifted_once ih

theorem shifted_rounds (shifted : Shifted m s left) :
    left.roundedMantissa = roundShift m s := by
  obtain ⟨quotient, roundBit, stickyBit⟩ := left
  obtain ⟨rfl, half, between⟩ := shifted
  have unit := Nat.two_pow_pos s
  cases roundBit with
  | false =>
    have below : 2 * (m % 2 ^ s) < 2 ^ s := by simpa using half
    cases stickyBit <;> exact (if_pos (.inl below)).symm
  | true =>
    have above : 2 ^ s ≤ 2 * (m % 2 ^ s) := half.mp rfl
    cases stickyBit with
    | false =>
      have tie : 2 * (m % 2 ^ s) = 2 ^ s := by
        by_contra other
        exact absurd (between.mpr ⟨by omega, other⟩) Bool.false_ne_true
      change m / 2 ^ s + m / 2 ^ s % 2 = _
      obtain even | odd := Nat.mod_two_eq_zero_or_one (m / 2 ^ s)
      · rw [even]
        exact (if_pos (.inr ⟨tie, even⟩)).symm
      · rw [odd]
        refine (if_neg ?_).symm
        rintro (below | ⟨_, even⟩)
        · exact absurd tie (Nat.ne_of_lt below)
        · cases odd.symm.trans even
    | true =>
      have beyond := (between.mp rfl).2
      refine (if_neg ?_).symm
      rintro (below | ⟨tie, _⟩)
      · exact absurd above (Nat.not_le_of_lt below)
      · exact beyond tie

theorem shifted_to_target (m : Nat) (exponent : Int) (above : -1074 ≤ exponent) :
    shiftToTargetExponent .binary64 m exponent .exact =
      (ExtendedMantissa.ofMantissaAndAccuracy m .exact >>> (m.log2 - 52), exponent + (m.log2 - 52 : Nat)) := by
  have places : (max ((m.log2 : Int) + 1 + exponent - 53) (-1074) - exponent).toNat = m.log2 - 52 := by omega
  rw [← places]
  rfl

variable (sign : Sign)

theorem rounded_to (m rounded : Nat) (exponent : Int) (above : -1074 ≤ exponent)
    (same : roundShift m (m.log2 - 52) = rounded) (positive : 0 < rounded / 2 ^ (rounded.log2 - 52)) :
    roundWithAccuracy .binary64 sign m exponent .exact = .finite sign (rounded / 2 ^ (rounded.log2 - 52))
      (exponent + (m.log2 - 52 : Nat) + (rounded.log2 - 52 : Nat)) positive := by
  -- The second shift takes in a carry out of the first rounding.
  have kept := (shifted_all rounded (rounded.log2 - 52)).quotient
  unfold roundWithAccuracy
  simp only [shifted_to_target m exponent above, shifted_rounds (shifted_all m _), same,
    shifted_to_target rounded (exponent + (m.log2 - 52 : Nat)) (by omega), kept, dif_neg (Nat.pos_iff_ne_zero.mp positive)]

theorem log2_scaled (k : Nat) (positive : 0 < n) : (n * 2 ^ k).log2 = n.log2 + k := by
  have exact := (Nat.log2_eq_iff (by omega : n ≠ 0)).mp rfl
  have unit := Nat.two_pow_pos k
  refine (Nat.log2_eq_iff (Nat.ne_of_gt (Nat.mul_pos positive unit))).mpr ⟨?_, ?_⟩
  · rw [Nat.pow_add]
    exact Nat.mul_le_mul_right _ exact.1
  · rw [Nat.add_right_comm, Nat.pow_add]
    exact Nat.mul_lt_mul_of_pos_right exact.2 unit

theorem leading_bits (n : Nat) (wide : 2 ^ 52 ≤ n) :
    2 ^ 52 ≤ roundShift n (n.log2 - 52) ∧ roundShift n (n.log2 - 52) ≤ 2 ^ 53 := by
  have long : 52 ≤ n.log2 := (Nat.le_log2 (by omega)).mpr wide
  obtain ⟨s, shift⟩ := Nat.exists_eq_add_of_le long
  have exact := (Nat.log2_eq_iff (by omega : n ≠ 0)).mp shift
  rw [Nat.pow_add, Nat.add_right_comm, Nat.pow_add] at exact
  have low := (Nat.le_div_iff_mul_le (Nat.two_pow_pos s)).mpr exact.1
  have high := (Nat.div_lt_iff_lt_mul (Nat.two_pow_pos s)).mpr exact.2
  have cases := round_shift_cases n s
  rw [shift, Nat.add_sub_cancel_left]
  omega

theorem log2_full (low : 2 ^ 52 ≤ significand) (high : significand < 2 ^ 53) : significand.log2 = 52 :=
  (Nat.log2_eq_iff (by omega)).mpr ⟨low, high⟩

theorem carry_kept {rounded : Nat} (low : 2 ^ 52 ≤ rounded) (high : rounded ≤ 2 ^ 53) :
    rounded / 2 ^ (rounded.log2 - 52) * 2 ^ (rounded.log2 - 52) = rounded ∧ rounded.log2 - 52 ≤ 1 ∧
      2 ^ 52 ≤ rounded / 2 ^ (rounded.log2 - 52) ∧ rounded / 2 ^ (rounded.log2 - 52) < 2 ^ 53 := by
  -- A carry out of 53 bits leaves a power of two, so that nothing is lost with the place that goes.
  obtain full | less := Nat.eq_or_lt_of_le high
  · subst full
    rw [Nat.log2_two_pow]
    decide
  · rw [log2_full low less]
    omega

/-- The number that the 53 leading bits of `n` stand for after rounding, a half going to the even neighbour. -/
def nearestNat (n : Nat) : Nat := roundShift n (n.log2 - 52) * 2 ^ (n.log2 - 52)

theorem nearest_scaled (n : Nat) :
    roundShift (n * 2 ^ (52 - n.log2)) (n.log2 - 52) * 2 ^ n.log2 = nearestNat n * 2 ^ 52 := by
  unfold nearestNat
  obtain short | long := Nat.le_total n.log2 52
  · rw [Nat.sub_eq_zero_of_le short, round_shift_none, round_shift_none, Nat.mul_assoc, ← Nat.pow_add,
      Nat.sub_add_cancel short, Nat.pow_zero, Nat.mul_one]
  · rw [Nat.sub_eq_zero_of_le long, Nat.pow_zero, Nat.mul_one, Nat.mul_assoc, ← Nat.pow_add, Nat.sub_add_cancel long]

/-- `significand * 2 ^ (place - 52)` is the number `whole`, and the significand has 53 bits. -/
structure Normal (whole significand place : Nat) : Prop where
  low : 2 ^ 52 ≤ significand
  high : significand < 2 ^ 53
  bound : place ≤ 64
  scaled : significand * 2 ^ place = whole * 2 ^ 52

theorem normal_positive (normal : Normal whole significand place) : 0 < whole := by
  obtain ⟨low, -, -, scaled⟩ := normal
  have positive : 0 < significand * 2 ^ place := Nat.mul_pos (by omega) (Nat.two_pow_pos place)
  rw [scaled] at positive
  exact Nat.pos_of_mul_pos_right positive

theorem normal_same {other digits spot : Nat} (first : Normal whole significand place)
    (second : Normal other digits spot) : whole = other ↔ place = spot ∧ significand = digits := by
  obtain ⟨low, high, -, scaled⟩ := first
  obtain ⟨least, most, -, sized⟩ := second
  constructor
  · rintro rfl
    have same := scaled.trans sized.symm
    have lengths := congrArg Nat.log2 same
    rw [log2_scaled _ (by omega), log2_scaled _ (by omega), log2_full low high, log2_full least most] at lengths
    obtain rfl : place = spot := Nat.add_left_cancel lengths
    exact ⟨rfl, Nat.eq_of_mul_eq_mul_right (Nat.two_pow_pos place) same⟩
  · rintro ⟨rfl, rfl⟩
    exact Nat.eq_of_mul_eq_mul_right (Nat.two_pow_pos 52) (scaled.symm.trans sized)

theorem round_normal (positive : 0 < n) (small : n < 2 ^ 64) :
    ∃ (significand place : Nat) (some : 0 < significand),
      UnpackedFloat.round .binary64 sign n 0 = .finite sign significand ((place : Int) - 52) some ∧
      Normal (nearestNat n) significand place := by
  have width : n.log2 < 64 := (Nat.log2_lt (by omega)).mpr small
  have length := log2_scaled (52 - n.log2) positive
  have shift : (n * 2 ^ (52 - n.log2)).log2 - 52 = n.log2 - 52 := by omega
  have wide : 2 ^ 52 ≤ n * 2 ^ (52 - n.log2) := by
    apply (Nat.le_log2 (Nat.ne_of_gt (Nat.mul_pos positive (Nat.two_pow_pos _)))).mp
    omega
  have start : UnpackedFloat.round .binary64 sign n 0 =
      roundWithAccuracy .binary64 sign (n * 2 ^ (52 - n.log2)) (0 - (52 - n.log2 : Nat)) .exact := by
    have places : (0 - max ((n.log2 : Int) + 1 + 0 - 53) (-1074)).toNat = 52 - n.log2 := by omega
    rw [← places, ← Nat.shiftLeft_eq]
    rfl
  have leading := leading_bits _ wide
  have scaled := nearest_scaled n
  rw [shift] at leading
  generalize same : roundShift (n * 2 ^ (52 - n.log2)) (n.log2 - 52) = rounded at leading scaled
  obtain ⟨kept, once, low, high⟩ := carry_kept leading.1 leading.2
  have ended := rounded_to sign (n * 2 ^ (52 - n.log2)) rounded (0 - (52 - n.log2 : Nat)) (by omega) (by rw [shift, same])
    (by omega)
  refine ⟨rounded / 2 ^ (rounded.log2 - 52), n.log2 + (rounded.log2 - 52), by omega, ?_, low, high, by omega, ?_⟩
  · rw [start, ended]
    congr 1
    omega
  · rw [Nat.add_comm, Nat.pow_add, ← Nat.mul_assoc, kept, scaled]

theorem implicit_bit (low : 2 ^ 52 ≤ significand) (high : significand < 2 ^ 53) :
    (1#1 ++ BitVec.ofNat 52 significand).toNat = significand := by
  have rest : significand % 2 ^ 52 = significand - 2 ^ 52 := by omega
  rw [BitVec.toNat_append, BitVec.toNat_ofNat, BitVec.toNat_ofNat, ← Nat.shiftLeft_add_eq_or_of_lt (by omega), rest,
    Nat.shiftLeft_eq]
  omega

theorem field_differs (biased other : Nat) (inside : biased < 2 ^ 11) (within : other < 2 ^ 11) (differ : biased ≠ other) :
    BitVec.ofNat 11 biased ≠ BitVec.ofNat 11 other := by
  intro same
  have numbers := congrArg BitVec.toNat same
  rw [BitVec.toNat_ofNat, BitVec.toNat_ofNat, Nat.mod_eq_of_lt inside, Nat.mod_eq_of_lt within] at numbers
  exact differ numbers

theorem pack_normal {biased : Nat} (positive : 0 < significand) (low : 2 ^ 52 ≤ significand)
    (high : significand < 2 ^ 53) (most : biased < 2047) :
    UnpackedFloat.pack .binary64 (.finite sign significand (biased - 1075) positive) =
      packComponents .binary64 sign (BitVec.ofNat 11 biased) (BitVec.ofNat 52 significand) := by
  have place : ((biased : Int) - 1075 + 1023 + 52).toNat = biased := by omega
  change (if 2 ^ 11 ≤ ((biased : Int) - 1075 + 1023 + 52).toNat + 1 then _ else if significand.log2 + 1 = 53 then
    packComponents .binary64 sign (BitVec.ofNat 11 ((biased : Int) - 1075 + 1023 + 52).toNat) (BitVec.ofNat 52 significand)
    else _) = _
  rw [place, if_neg (by omega), if_pos (by rw [log2_full low high])]

theorem unpack_pack (biased : Nat) (positive : 0 < significand) (low : 2 ^ 52 ≤ significand)
    (high : significand < 2 ^ 53) (least : 0 < biased) (most : biased < 2047) :
    (Float.Model.pack (.finite sign significand (biased - 1075) positive)).unpack =
      .finite sign significand (biased - 1075) positive := by
  -- The exponent fields of all ones and all zeros are those of infinities and of numbers with no leading bit.
  have notOnes : BitVec.ofNat 11 biased ≠ -1#11 := field_differs biased 2047 (by omega) (by decide) (by omega)
  have notZeros : BitVec.ofNat 11 biased ≠ 0#11 := field_differs biased 0 (by omega) (by decide) (by omega)
  have field : (BitVec.ofNat 11 biased).toNat = biased := Nat.mod_eq_of_lt (by omega)
  change UnpackedFloat.unpack .binary64 (UnpackedFloat.pack .binary64 _) = _
  rw [pack_normal sign positive low high most]
  unfold UnpackedFloat.unpack
  simp only [unpackExponent_packComponents, unpackMantissa_packComponents, unpackSign_packComponents, Sign.ofBitVec_toBitVec]
  rw [if_neg notOnes, if_neg notZeros]
  congr 1
  · exact implicit_bit low high
  · rw [field]
    rfl

/-- The whole numbers of double precision, in the one form that packing keeps. -/
inductive Whole : UnpackedFloat → Int → Prop where
  | zero (sign : Sign) : Whole (.zero sign) 0
  | positive (whole significand place : Nat) (some : 0 < significand) (normal : Normal whole significand place) :
      Whole (.finite .positive significand ((place : Int) - 52) some) whole
  | negative (whole significand place : Nat) (some : 0 < significand) (normal : Normal whole significand place) :
      Whole (.finite .negative significand ((place : Int) - 52) some) (-(whole : Int))

theorem unpack_whole {n : Int} (whole : Whole unpacked n) :
    (Float.Model.pack unpacked).unpack = unpacked := by
  cases whole with
  | zero sign => exact unpack_packedZero
  | positive whole significand place some normal | negative whole significand place some normal =>
    have bound := normal.bound
    have biased : (place : Int) - 52 = (place + 1023 : Nat) - 1075 := by omega
    rw [biased]
    exact unpack_pack _ (place + 1023) some normal.low normal.high (by omega) (by omega)

theorem neg_whole {n : Int} (whole : Whole unpacked n) : Whole unpacked.neg (-n) := by
  cases whole with
  | zero sign => exact .zero _
  | positive whole significand place some normal => exact .negative whole significand place some normal
  | negative whole significand place some normal =>
    rw [Int.neg_neg]
    exact .positive whole significand place some normal

theorem word_whole (word : UInt64) : Whole word.toFloat.toModel.unpack (nearestNat word.toNat) := by
  have formed : Whole (UnpackedFloat.normalize .binary64 word.toNat 0 .positive) (nearestNat word.toNat) := by
    obtain none | positive := Nat.eq_zero_or_pos word.toNat
    · rw [none]
      exact .zero .positive
    · obtain ⟨significand, place, some, rounded, normal⟩ := round_normal .positive positive word.toNat_lt
      have above : compare (word.toNat : Int) 0 = .gt := compare_gt_iff_gt.mpr (by omega)
      unfold UnpackedFloat.normalize
      rw [above]
      change Whole (UnpackedFloat.round .binary64 .positive word.toNat 0) _
      rw [rounded]
      exact .positive _ significand place some normal
  change Whole (Float.Model.pack (UnpackedFloat.normalize .binary64 word.toNat 0 .positive)).unpack _
  rw [unpack_whole formed]
  exact formed

theorem neg_word_whole (word : UInt64) : Whole (-word.toFloat).toModel.unpack (-(nearestNat word.toNat : Int)) := by
  have whole := neg_whole (word_whole word)
  change Whole (Float.Model.pack word.toFloat.toModel.unpack.neg).unpack _
  rw [unpack_whole whole]
  exact whole

/-- The integer that `n` becomes in double precision. -/
def nearestInt (n : Int) : Int := n.sign * nearestNat n.natAbs

theorem int_whole (a : Int64) : Whole (Number.ofInt64 a).toModel.unpack (nearestInt a.toInt) := by
  have signed : a.toInt = a.toBitVec.toInt := rfl
  have small := a.toBitVec.isLt
  rw [BitVec.toInt_eq_toNat_cond] at signed
  unfold Number.ofInt64 nearestInt
  split
  · rename_i below
    have under : a.toInt < 0 := Int64.lt_iff_toInt_lt.mp below
    have magnitude : (0 - a).toUInt64.toNat = a.toInt.natAbs := by
      have bits : (0 - a).toUInt64.toNat = (0#64 - a.toBitVec).toNat := rfl
      rw [bits, BitVec.toNat_sub, BitVec.toNat_ofNat]
      split at signed <;> omega
    rw [Int.sign_eq_neg_one_of_neg under, Int.neg_one_mul, ← magnitude]
    exact neg_word_whole _
  · rename_i above
    have least : 0 ≤ a.toInt := Int.not_lt.mp (fun under => above (Int64.lt_iff_toInt_lt.mpr under))
    have magnitude : a.toUInt64.toNat = a.toInt.natAbs := by
      have bits : a.toUInt64.toNat = a.toBitVec.toNat := rfl
      rw [bits]
      split at signed <;> omega
    have whole := word_whole a.toUInt64
    rw [magnitude] at whole
    obtain none | positive := Int.le_iff_eq_or_lt.mp least
    · rw [← none] at whole ⊢
      exact whole
    · rw [Int.sign_eq_one_of_pos positive, Int.one_mul]
      exact whole

theorem whole_same {x y : UnpackedFloat} {m n : Int} (first : Whole x m) (second : Whole y n) :
    x.beq y = decide (m = n) := by
  rw [Bool.eq_iff_iff, decide_eq_true_iff, beq_iff_ne_notANumber_and_eq]
  cases first with
  | zero sign =>
    cases second with
    | zero other => cases sign <;> cases other <;> simp
    | positive other digits spot more normal | negative other digits spot more normal =>
      have positive := normal_positive normal
      exact iff_of_false (by simp) (by omega)
  | positive whole significand place some normal =>
    have positive := normal_positive normal
    cases second with
    | positive other digits spot more standard => simp [normal_same normal standard, and_comm]
    | zero | negative => exact iff_of_false (by simp) (by omega)
  | negative whole significand place some normal =>
    have positive := normal_positive normal
    cases second with
    | negative other digits spot more standard => simp [normal_same normal standard, and_comm]
    | zero | positive => exact iff_of_false (by simp) (by omega)

theorem nearest_exact (short : n < 2 ^ 53) : nearestNat n = n := by
  obtain rfl | positive := Nat.eq_zero_or_pos n
  · rfl
  · have width : n.log2 < 53 := (Nat.log2_lt (by omega)).mpr short
    have none : n.log2 - 52 = 0 := by omega
    rw [nearestNat, none, round_shift_none, Nat.pow_zero, Nat.mul_one]

theorem nearest_long (n : Nat) (long : 2 ^ 53 ≤ n) : 2 ^ 53 ≤ nearestNat n := by
  have width : 53 ≤ n.log2 := (Nat.le_log2 (by omega)).mpr long
  calc 2 ^ 53 = 2 ^ 52 * 2 ^ 1 := rfl
    _ ≤ roundShift n (n.log2 - 52) * 2 ^ (n.log2 - 52) :=
        Nat.mul_le_mul (leading_bits n (by omega)).1 (Nat.pow_le_pow_right (by decide) (by omega))

theorem nearest_int_size (n : Int) : (nearestInt n).natAbs = nearestNat n.natAbs := by
  obtain rfl | some := Decidable.em (n = 0)
  · rfl
  · rw [nearestInt, Int.natAbs_mul, Int.natAbs_sign_of_ne_zero some, Int.natAbs_natCast, Nat.one_mul]

theorem nearest_int_exact (n : Int) (short : n.natAbs < 2 ^ 53) : nearestInt n = n := by
  rw [nearestInt, nearest_exact short, Int.sign_mul_natAbs]

theorem nearest_int_close (n : Int) : 2 * (nearestInt n - n).natAbs ≤ 2 ^ (n.natAbs.log2 - 52) := by
  obtain rfl | some := Decidable.em (n = 0)
  · decide
  · have off : nearestInt n - n = n.sign * ((nearestNat n.natAbs : Int) - n.natAbs) := by
      rw [Int.mul_sub, Int.sign_mul_natAbs, nearestInt]
    have close := round_shift_close n.natAbs (n.natAbs.log2 - 52)
    rw [off, Int.natAbs_mul, Int.natAbs_sign_of_ne_zero some, Nat.one_mul]
    unfold nearestNat
    omega

theorem merged_long (same : nearestInt a = nearestInt b) (differ : a ≠ b) : 2 ^ 53 ≤ a.natAbs := by
  by_contra short
  have exact := nearest_int_exact a (by omega)
  have size := nearest_int_size b
  rw [← same, exact] at size
  have brief : b.natAbs < 2 ^ 53 := by
    by_contra long
    have large := nearest_long b.natAbs (by omega)
    omega
  exact differ (exact.symm.trans (same.trans (nearest_int_exact b brief)))

theorem merged_close (same : nearestInt a = nearestInt b) (differ : a ≠ b) :
    2 ^ 53 ≤ a.natAbs ∧ 2 ^ 53 ≤ b.natAbs ∧ (a - b).natAbs ≤ 2 ^ ((max a.natAbs b.natAbs).log2 - 52) := by
  -- Two integers that become one have both lost bits, and no more than the last place of the larger one.
  have long := merged_long same differ
  have wide := merged_long same.symm differ.symm
  have close := nearest_int_close a
  have near := nearest_int_close b
  have last : ∀ n, 2 ^ 53 ≤ n → n ≤ max a.natAbs b.natAbs →
      2 ^ (n.log2 - 52) ≤ 2 ^ ((max a.natAbs b.natAbs).log2 - 52) := by
    intro n some below
    have width := (Nat.le_log2 (by omega)).mpr (Nat.le_trans (Nat.log2_self_le (by omega)) below)
    exact Nat.pow_le_pow_right (by decide) (Nat.sub_le_sub_right width 52)
  have left := last _ long (Nat.le_max_left _ _)
  have right := last _ wide (Nat.le_max_right _ _)
  refine ⟨long, wide, ?_⟩
  omega

end Double

end Patchbay
