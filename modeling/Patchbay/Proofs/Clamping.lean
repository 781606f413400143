import Mathlib
import Patchbay.NativeType
import Patchbay.Run.Flow

set_option autoImplicit false

namespace Patchbay

def Decoded.value? : Decoded → Option ℚ
  | .finite negative significand exponent =>
    let magnitude : ℚ := significand * 2 ^ exponent
    some (if negative then -magnitude else magnitude)
  | _ => none

namespace Double

/-- The fields of a double: 52 bits of the fraction, 11 of the exponent, and the sign. -/
def fraction (x : Float) : Nat := x.toBits.toNat % 2 ^ 52

def biased (x : Float) : Nat := x.toBits.toNat / 2 ^ 52 % 2 ^ 11

def isNegative (x : Float) : Bool := 2 ^ 63 ≤ x.toBits.toNat

def magnitude (x : Float) : ℚ :=
  if biased x = 0 then 2 ^ (-1022 : ℤ) * (fraction x / 2 ^ 52)
  else 2 ^ ((biased x : ℤ) - 1023) * (1 + fraction x / 2 ^ 52)

def value? (x : Float) : Option ℚ :=
  if biased x = 2047 then none else some (if isNegative x then -magnitude x else magnitude x)

theorem sign_bit (x : Float) : (x.toBits.toNat / Format.double.signBit % 2 == 1) = isNegative x := by
  have bound := x.toBits.toNat_lt
  have top : Format.double.signBit = 2 ^ 63 := by decide
  rw [top, isNegative, Bool.eq_iff_iff, beq_iff_eq, decide_eq_true_iff]
  omega

theorem subnormal_scaled (fraction : Nat) :
    (2 : ℚ) ^ (-1022 : ℤ) * (fraction / 2 ^ 52) = fraction * 2 ^ (-1074 : ℤ) := by
  rw [show (-1074 : ℤ) = -1022 - (52 : Nat) by decide, zpow_sub₀ two_ne_zero, zpow_natCast]
  ring

theorem normal_scaled (fraction biased : Nat) :
    (2 : ℚ) ^ ((biased : ℤ) - 1023) * (1 + fraction / 2 ^ 52) = (fraction + 2 ^ 52 : Nat) * 2 ^ ((biased : ℤ) - 1075) := by
  rw [show (biased : ℤ) - 1075 = biased - 1023 - (52 : Nat) by omega, zpow_sub₀ two_ne_zero ((biased : ℤ) - 1023),
    zpow_natCast]
  push_cast
  ring

theorem decoded_value (x : Float) : (Number.decodeDouble x).value? = value? x := by
  have unit : twoTo (Format.double.precision - 1) = 2 ^ 52 := by decide
  have codes : twoTo Format.double.exponentBits = 2 ^ 11 := by decide
  have least : Format.double.least = -1074 := by decide
  unfold Number.decodeDouble Format.decode value?
  dsimp only
  rw [unit, codes, least, sign_bit]
  change (if biased x = 2047 then if fraction x = 0 then Decoded.infinite (isNegative x) else .nan
    else if biased x = 0 then .finite (isNegative x) (fraction x) (-1074)
    else .finite (isNegative x) (fraction x + 2 ^ 52) (-1074 + biased x - 1)).value? = _
  by_cases special : biased x = 2047
  · rw [if_pos special, if_pos special]
    split <;> rfl
  · rw [if_neg special, if_neg special]
    unfold magnitude
    by_cases small : biased x = 0
    · rw [if_pos small, if_pos small, subnormal_scaled]
      rfl
    · have exponent : (-1074 : ℤ) + biased x - 1 = biased x - 1075 := by omega
      rw [if_neg small, if_neg small, normal_scaled, exponent]
      rfl

section

open Float.Model Float.Model.UnpackedFloat

theorem exponent_field (x : Float) : (@unpackExponent Format.binary64 x.toBits.toBitVec).toNat = biased x := by
  rw [unpackExponent_def, BitVec.extractLsb'_toNat, Nat.shiftRight_eq_div_pow]
  rfl

theorem finite_value (x : Float) : x.isFinite = (value? x).isSome := by
  have ones : (-BitVec.ofNat Format.binary64.exponentBits 1).toNat = 2047 := by decide
  have special : @unpackExponent Format.binary64 x.toBits.toBitVec =
      -BitVec.ofNat Format.binary64.exponentBits 1 ↔ biased x = 2047 := by
    rw [← BitVec.toNat_inj, ones, exponent_field]
  change (UnpackedFloat.unpack Format.binary64 x.toBits.toBitVec).isFinite = _
  unfold UnpackedFloat.unpack value?
  dsimp only
  by_cases infinite : biased x = 2047
  · rw [if_pos (special.mpr infinite), if_pos infinite]
    split <;> rfl
  · rw [if_neg (mt special.mp infinite), if_neg infinite]
    split
    · split <;> rfl
    · rfl

end

theorem scaled_whole (significand : Nat) (exponent n : ℤ) :
    (significand : ℚ) * 2 ^ exponent = n ↔
      significand % 2 ^ (-exponent).toNat = 0 ∧ n = (significand / 2 ^ (-exponent).toNat * 2 ^ exponent.toNat : Nat) := by
  by_cases up : 0 ≤ exponent
  · obtain ⟨k, rfl⟩ := Int.eq_ofNat_of_zero_le up
    have flat : (-(k : ℤ)).toNat = 0 := by omega
    rw [flat, Int.toNat_natCast, pow_zero, Nat.mod_one, Nat.div_one, zpow_natCast]
    norm_cast
    simp [eq_comm]
  · obtain ⟨k, rfl⟩ : ∃ k : Nat, exponent = -k := ⟨(-exponent).toNat, by omega⟩
    have down : (- -(k : ℤ)).toNat = k := by omega
    have none : (-(k : ℤ)).toNat = 0 := by omega
    have unit : (2 : ℚ) ^ k ≠ 0 := by positivity
    rw [down, none, pow_zero, Nat.mul_one, zpow_neg, zpow_natCast, ← div_eq_mul_inv, div_eq_iff unit]
    norm_cast
    constructor
    · intro whole
      have divides : ((2 ^ k : Nat) : ℤ) ∣ (significand : ℤ) := ⟨n, by rw [whole, mul_comm]⟩
      have rest : significand % 2 ^ k = 0 := Nat.mod_eq_zero_of_dvd (Int.natCast_dvd_natCast.mp divides)
      refine ⟨rest, ?_⟩
      rw [Int.natCast_ediv, whole, Int.mul_ediv_cancel _ (by positivity)]
    · rintro ⟨rest, rfl⟩
      have parts := Nat.div_add_mod' significand (2 ^ k)
      rw [rest, Nat.add_zero] at parts
      rw [← Int.natCast_mul, parts]

theorem whole_iff (x : Float) (n : ℤ) : Number.whole? x = some n ↔ value? x = some (n : ℚ) := by
  rw [← decoded_value, Number.whole?]
  cases Number.decodeDouble x with
  | nan => simp [Decoded.value?]
  | infinite => simp [Decoded.value?]
  | finite negative significand exponent =>
    have whole := scaled_whole significand exponent
    change (if significand % 2 ^ (-exponent).toNat = 0 then
      some (if negative then -((significand / 2 ^ (-exponent).toNat * 2 ^ exponent.toNat : Nat) : ℤ)
        else (significand / 2 ^ (-exponent).toNat * 2 ^ exponent.toNat : Nat)) else none) = some n ↔ _
    cases negative with
    | false =>
      simp only [Decoded.value?, Bool.false_eq_true, if_false, Option.some.injEq, whole n]
      grind
    | true =>
      have flipped : -((significand : ℚ) * 2 ^ exponent) = n ↔ (significand : ℚ) * 2 ^ exponent = (-n : ℤ) := by
        rw [neg_eq_iff_eq_neg, Int.cast_neg]
      simp only [Decoded.value?, if_true, Option.some.injEq, flipped, whole (-n)]
      grind

end Double

def Number.clamped (n : ℤ) : ℤ := max (-2 ^ 63) (min n (2 ^ 63 - 1))

theorem Number.saturate_clamped (n : ℤ) : (saturate n).toInt = clamped n := by
  have top : Int64.maxValue.toInt = 2 ^ 63 - 1 := by decide
  have bottom : Int64.minValue.toInt = -2 ^ 63 := by decide
  have fits : fitsSigned 64 n = true ↔ -2 ^ 63 ≤ n ∧ n < 2 ^ 63 := by
    rw [fitsSigned, Bool.and_eq_true, decide_eq_true_iff, decide_eq_true_iff]
    rfl
  unfold saturate clamped
  by_cases inside : -2 ^ 63 ≤ n ∧ n < 2 ^ 63
  · rw [if_pos (fits.mpr inside), Int64.toInt_ofInt_of_le (by omega) (by omega)]
    omega
  · rw [if_neg (mt fits.mp inside)]
    split
    · omega
    · omega

namespace Double

def IsWhole (x : Float) : Prop := ∃ n : ℤ, value? x = some (n : ℚ)

/-- A whole number read as a 64-bit integer: the nearest one, whatever the distance. -/
def ReadAs (x : Float) (i : Int64) : Prop := ∃ n : ℤ, value? x = some (n : ℚ) ∧ i.toInt = Number.clamped n

def InRange (x : Float) : Prop := ∃ q, value? x = some q ∧ -2 ^ 63 ≤ q ∧ q < 2 ^ 63

variable (x : Float) (i : Int64)

theorem int_read : (Value.float x).int? = some i ↔ ReadAs x i := by
  rw [Value.int?, Option.map_eq_some_iff, ReadAs]
  refine exists_congr fun n => ?_
  rw [whole_iff, ← Number.saturate_clamped, Int64.toInt_inj, eq_comm (a := i)]

theorem int_refused : (Value.float x).int? = none ↔ ¬ IsWhole x := by
  rw [Value.int?, Option.map_eq_none_iff, IsWhole]
  simp only [← whole_iff, ← Option.isSome_iff_exists, Option.not_isSome_iff_eq_none]

theorem read_exact (read : ReadAs x i) : value? x = some (i.toInt : ℚ) ↔ InRange x := by
  obtain ⟨n, whole, same⟩ := read
  have inside : InRange x ↔ -2 ^ 63 ≤ n ∧ n < 2 ^ 63 := by
    simp only [InRange, whole, Option.some.injEq, exists_eq_left']
    norm_cast
  rw [whole, inside, Option.some.injEq, Int.cast_inj, same, Number.clamped]
  omega

theorem cast_read : PinType.int.cast? (.float x) = some (.int i) ↔ ReadAs x i := by
  rw [← int_read, PinType.cast?, Option.map_eq_some_iff]
  simp

theorem case_read : (SwitchCase.mk .int (.int i)).accepts (.float x) = true ↔ ReadAs x i := by
  rw [← int_read, SwitchCase.accepts, PinType.cast?]
  cases (Value.float x).int? with
  | none => simp
  | some read => simp [Value.same]

theorem argument_read : NativeType.int.read (.float x) = .ok i ↔ ReadAs x i := by
  rw [← int_read, NativeType.read]
  cases (Value.float x).int? with
  | none => simp [NativeType.expect]
  | some read =>
    change (.ok read : Except ReadError Int64) = .ok i ↔ _
    rw [Except.ok.injEq, Option.some.injEq]

theorem small_argument_read (i : Int32) :
    NativeType.int32.read (.float x) = .ok i ↔ value? x = some (i.toInt : ℚ) := by
  have fits (n : ℤ) : Number.fitsSigned 32 n = true ↔ -2 ^ 31 ≤ n ∧ n < 2 ^ 31 := by
    rw [Number.fitsSigned, Bool.and_eq_true, decide_eq_true_iff, decide_eq_true_iff]
    rfl
  have low := i.le_toInt
  have high := i.toInt_lt
  rw [NativeType.read]
  cases read : (Value.float x).int? with
  | none =>
    have refused := (int_refused x).mp read
    constructor
    · intro impossible
      cases impossible
    · exact fun whole => absurd ⟨i.toInt, whole⟩ refused
  | some wide =>
    obtain ⟨n, whole, same⟩ := (int_read x wide).mp read
    change NativeType.narrow wide = .ok i ↔ _
    rw [whole, Option.some.injEq, Int.cast_inj, NativeType.narrow]
    unfold Number.clamped at same
    by_cases inside : Number.fitsSigned 32 wide.toInt = true
    · have bounds := (fits wide.toInt).mp inside
      have kept := Int32.toInt_ofInt_of_le (n := wide.toInt) (by omega) (by omega)
      rw [if_pos inside, Except.ok.injEq, ← Int32.toInt_inj, kept]
      omega
    · have outside := mt (fits wide.toInt).mpr inside
      rw [if_neg inside]
      constructor
      · intro impossible
        cases impossible
      · intro number
        omega

theorem bound_read :
    (IsWhole x → ReadAs x ((Value.float x).int?.getD 0)) ∧ (¬ IsWhole x → (Value.float x).int?.getD 0 = 0) := by
  cases read : (Value.float x).int? with
  | none =>
    have refused := (int_refused x).mp read
    exact ⟨fun whole => absurd whole refused, fun _ => rfl⟩
  | some i =>
    have reads := (int_read x i).mp read
    refine ⟨fun _ => reads, fun refused => ?_⟩
    obtain ⟨n, whole, _⟩ := reads
    exact absurd ⟨n, whole⟩ refused

/-- Whoever takes a float for an integer gets the 64-bit integer nearest to it, which is the number itself within the range
and another one beyond. Only a 32-bit argument refuses what is out of range. -/
theorem floats_read_clamped (x : Float) (i : Int64) :
    x.isFinite = (value? x).isSome ∧
    ((Value.float x).int? = some i ↔ ReadAs x i) ∧
    ((Value.float x).int? = none ↔ ¬ IsWhole x) ∧
    (ReadAs x i → (value? x = some (i.toInt : ℚ) ↔ InRange x)) ∧
    (PinType.int.cast? (.float x) = some (.int i) ↔ ReadAs x i) ∧
    ((SwitchCase.mk .int (.int i)).accepts (.float x) = true ↔ ReadAs x i) ∧
    (NativeType.int.read (.float x) = .ok i ↔ ReadAs x i) ∧
    (∀ small, NativeType.int32.read (.float x) = .ok small ↔ value? x = some (small.toInt : ℚ)) ∧
    (∀ progress other, ∃ first last,
      Effect.forLoopState (.entered Effect.executePin) progress [.float x, other] = some (first, last) ∧
      (IsWhole x → ReadAs x first) ∧ (¬ IsWhole x → first = 0)) ∧
    ∀ progress other, ∃ first last,
      Effect.forLoopState (.entered Effect.executePin) progress [other, .float x] = some (first, last) ∧
      (IsWhole x → ReadAs x last) ∧ (¬ IsWhole x → last = 0) :=
  ⟨finite_value x, int_read x i, int_refused x, read_exact x i, cast_read x i, case_read x i, argument_read x i,
    small_argument_read x, fun _ _ => ⟨_, _, rfl, bound_read x⟩, fun _ _ => ⟨_, _, rfl, bound_read x⟩⟩

/-- Two to the power of 63, the least double beyond the range. -/
def beyond : Float := .ofBits 0x43e0000000000000

theorem beyond_value : value? beyond = some ((2 ^ 63 : ℤ) : ℚ) :=
  (whole_iff beyond (2 ^ 63)).mp (by decide +kernel)

theorem beyond_read : (Value.float beyond).int? = some Int64.maxValue ∧ ¬ InRange beyond ∧
    (SwitchCase.mk .int (.int Int64.maxValue)).accepts (.float beyond) = true := by
  have read : (Value.float beyond).int? = some Int64.maxValue := by decide +kernel
  obtain ⟨_, reads, _, exact, _, accepts, _⟩ := floats_read_clamped beyond Int64.maxValue
  refine ⟨read, fun inside => ?_, accepts.mpr (reads.mp read)⟩
  have same := (exact (reads.mp read)).mpr inside
  rw [beyond_value, Option.some.injEq, Int.cast_inj] at same
  exact absurd same (by decide)

/-- A number that no 64-bit integer is converts to another number. -/
theorem beyond_changes :
    ¬ ∀ (x : Float) (i : Int64), PinType.int.cast? (.float x) = some (.int i) → value? x = some (i.toInt : ℚ) := by
  intro keeps
  have casts : PinType.int.cast? (.float beyond) = some (.int Int64.maxValue) :=
    (cast_read beyond Int64.maxValue).mpr ((int_read beyond Int64.maxValue).mp (by decide +kernel))
  have same := keeps beyond Int64.maxValue casts
  rw [beyond_value, Option.some.injEq, Int.cast_inj] at same
  exact absurd same (by decide)

end Double

end Patchbay
