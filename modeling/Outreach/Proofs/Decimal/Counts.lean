import Mathlib
import Outreach.Decimal.Binary

/-!
# Counts as doubles

A count that is not zero is not zero as a double either: rounding a positive whole number to 53 binary
digits leaves a mantissa that is not zero and an exponent within range, and packing these into 64 bits
leaves one of the fields different from zero.
-/

namespace Outreach.Decimal

open Float.Model (Format UnpackedFloat totalExponent)
open Float.Model.UnpackedFloat

/-! ## Sums -/

/-- The numbers that 64 bits can tell. -/
theorem exists_toNat_eq_iff {n : Nat} : (∃ t : UInt64, n = t.toNat) ↔ n < 2 ^ 64 :=
  ⟨fun ⟨t, h⟩ ↦ h ▸ t.toNat_lt, fun small ↦ ⟨.ofNat n, (UInt64.toNat_ofNat_of_lt' small).symm⟩⟩

/-- There is a total of counts exactly if it is the sum. -/
theorem foldlM_plus?_eq_some_iff {ns : List UInt64} {a t : UInt64} :
    ns.foldlM plus? a = some t ↔ a.toNat + (ns.map UInt64.toNat).sum = t.toNat := by
  induction ns generalizing a with
  | nil => exact Option.some_inj.trans UInt64.toNat_inj.symm
  | cons n ns ih =>
    rw [List.foldlM_cons, Option.bind_eq_bind, Option.bind_eq_some_iff]
    simp only [ih, plus?_eq_some_iff, List.map_cons, List.sum_cons]
    constructor
    · rintro ⟨b, first, rest⟩
      omega
    · intro sum
      have small := t.toNat_lt
      obtain ⟨b, first⟩ := exists_toNat_eq_iff.mpr (show a.toNat + n.toNat < 2 ^ 64 by omega)
      exact ⟨b, first, by omega⟩

theorem foldlM_plus?_eq_none_iff {ns : List UInt64} {a : UInt64} :
    ns.foldlM plus? a = none ↔ 2 ^ 64 ≤ a.toNat + (ns.map UInt64.toNat).sum := by
  rw [Option.eq_none_iff_forall_ne_some, ← Nat.not_lt, ← exists_toNat_eq_iff, not_exists]
  exact forall_congr' fun t ↦ not_congr foldlM_plus?_eq_some_iff

/-! ## Rounding -/

theorem mantissa_shiftRight (m : ExtendedMantissa) (shift : Nat) :
    (m >>> shift).mantissa = m.mantissa / 2 ^ shift := by
  induction shift with
  | zero => exact (Nat.div_one _).symm
  | succ shift ih =>
    show ((m >>> shift).shiftRightOne).mantissa = _
    rw [ExtendedMantissa.shiftRightOne, ih, Nat.div_div_eq_div_mul, Nat.pow_succ]

/-- Rounding a mantissa does not make it smaller. -/
theorem le_roundedMantissa (m : ExtendedMantissa) : m.mantissa ≤ m.roundedMantissa := by
  unfold ExtendedMantissa.roundedMantissa
  rcases m.accuracy with _ | _ | _ | _ <;> simp [Accuracy.roundToNearestEven]

theorem mantissa_shiftToTargetExponent (m : Nat) (e : Int) :
    (shiftToTargetExponent .binary64 m e .exact).1.mantissa =
      m / 2 ^ (Format.binary64.targetExponent (totalExponent m e) - e).toNat :=
  mantissa_shiftRight _ _

/-- A shift to the exponent that a number should have leaves 53 digits of the mantissa. -/
theorem mantissa_shiftToTargetExponent_lt (m : Nat) (e : Int) :
    (shiftToTargetExponent .binary64 m e .exact).1.mantissa < 2 ^ 53 := by
  rw [mantissa_shiftToTargetExponent, Nat.div_lt_iff_lt_mul (Nat.two_pow_pos _), ← Nat.pow_add]
  refine Nat.lt_of_lt_of_le Nat.lt_log2_self (Nat.pow_le_pow_right (by decide) ?_)
  simp only [Format.targetExponent, totalExponent, Format.mantissaBits]
  omega

/-- Where exponents begin. -/
theorem minExponent_binary64 : Format.binary64.minExponent = -1074 := by decide

/-- The shift does not lose all digits of the mantissa. -/
theorem mantissa_shiftToTargetExponent_pos {m : Nat} {e : Int} (hm : 0 < m) (he : -1074 ≤ e) :
    0 < (shiftToTargetExponent .binary64 m e .exact).1.mantissa := by
  rw [mantissa_shiftToTargetExponent, Nat.div_pos_iff]
  refine ⟨Nat.two_pow_pos _, ?_⟩
  refine Nat.le_trans (Nat.pow_le_pow_right (by decide) ?_) (Nat.log2_self_le (Nat.ne_of_gt hm))
  simp only [Format.targetExponent, totalExponent, Format.mantissaBits, minExponent_binary64]
  omega

theorem le_exponent_shiftToTargetExponent (m : Nat) (e : Int) :
    e ≤ (shiftToTargetExponent .binary64 m e .exact).2 := by
  simp only [shiftToTargetExponent, shiftToExponent]
  omega

/-- A value that a double can have: at most 53 digits, and an exponent that is not too small. -/
inductive InRange : UnpackedFloat → Prop
  | mk (s : Sign) (m : Nat) (e : Int) (hm : 0 < m) (digits : m < 2 ^ 53) (he : -1074 ≤ e) :
    InRange (.finite s m e hm)

theorem inRange_roundWithAccuracy (s : Sign) {m : Nat} {e : Int} (hm : 0 < m) (he : -1074 ≤ e) :
    InRange (roundWithAccuracy .binary64 s m e .exact) := by
  have le := le_exponent_shiftToTargetExponent m e
  have pos := mantissa_shiftToTargetExponent_pos hm he
  unfold roundWithAccuracy
  generalize shiftToTargetExponent .binary64 m e .exact = first at le pos
  obtain ⟨em, e'⟩ := first
  have pos' : 0 < em.roundedMantissa := Nat.lt_of_lt_of_le pos (le_roundedMantissa em)
  have he' : -1074 ≤ e' := Int.le_trans he le
  have pos'' := mantissa_shiftToTargetExponent_pos pos' he'
  simp only [dif_neg (Nat.ne_of_gt pos'')]
  exact .mk _ _ _ _ (mantissa_shiftToTargetExponent_lt _ _)
    (Int.le_trans he' (le_exponent_shiftToTargetExponent _ _))

/-- A positive whole number is rounded to a value that a double can have. -/
theorem inRange_ofNat {n : Nat} (hn : 0 < n) : InRange (ofNat .binary64 n) := by
  have above : compare (n : Int) 0 = .gt := by
    rw [Int.compare_eq_gt]
    omega
  simp only [ofNat, ofInt, UnpackedFloat.normalize, above, Int.toNat_natCast, UnpackedFloat.round,
    decreaseExponent]
  refine inRange_roundWithAccuracy _ ?_ ?_
  · rw [Nat.shiftLeft_eq]
    exact Nat.mul_pos hn (Nat.two_pow_pos _)
  · simp only [Format.targetExponent, minExponent_binary64]
    omega

/-! ## Packing -/

/-- One of the fields of a value in range is not zero. -/
theorem InRange.pack_ne_zero {u : UnpackedFloat} (h : InRange u) :
    unpackExponent (pack .binary64 u) ≠ 0#_ ∨ unpackMantissa (pack .binary64 u) ≠ 0#_ := by
  obtain ⟨s, m, e, hm, digits, he⟩ := h
  have bias : Format.binary64.exponentBias = 1023 := by decide
  simp only [pack, bias]
  split
  · -- too large for a double: packed as an infinity
    left
    simp [packedInfinity]
  · next small =>
    split
    · -- with all 53 digits: the exponent is above the lowest, which is kept for zero and the like
      left
      rw [unpackExponent_packComponents]
      intro zero
      have zero' := congrArg BitVec.toNat zero
      simp at zero' small
      omega
    · -- with fewer digits: these are stored as they are
      next short =>
      right
      rw [unpackMantissa_packComponents]
      intro zero
      have zero' := congrArg BitVec.toNat zero
      have few : m.log2 < 52 := by
        have := (Nat.log2_lt (Nat.ne_of_gt hm)).mpr digits
        simp only [Format.mantissaBits] at short
        omega
      have fits := (Nat.log2_lt (Nat.ne_of_gt hm)).mp few
      simp [Nat.mod_eq_of_lt fits] at zero'
      omega

/-- What has a field that is not zero is not unpacked as a zero. -/
theorem unpack_ne_zero {b : BitVec Format.binary64.numBits}
    (h : unpackExponent b ≠ 0#_ ∨ unpackMantissa b ≠ 0#_) (s : Sign) :
    unpack .binary64 b ≠ .zero s := by
  simp only [unpack]
  split
  · split <;> simp
  · split
    · next here =>
      rw [dif_neg (h.resolve_left (not_not_intro here))]
      simp
    · simp

/-- Only zeros are equal to zero. -/
theorem beq_zero_eq_false {u : UnpackedFloat} (h : ∀ s, u ≠ .zero s) :
    u.beq (.zero .positive) = false := by
  rw [← Bool.not_eq_true, beq_iff_ne_notANumber_and_eq]
  simp [h]

/-- A count that is not zero is not zero as a double. -/
theorem toFloat_beq_zero {n : UInt64} (h : n ≠ 0) : (n.toFloat == 0.0) = false := by
  have positive : 0 < n.toNat := Nat.pos_of_ne_zero fun zero ↦ h (UInt64.toNat_inj.mp zero)
  have nonzero := unpack_ne_zero (inRange_ofNat positive).pack_ne_zero
  have zero : (0.0 : Float).toModel.unpack = .zero .positive := rfl
  show UnpackedFloat.beq n.toFloat.toModel.unpack (0.0 : Float).toModel.unpack = false
  rw [zero]
  exact beq_zero_eq_false nonzero

end Outreach.Decimal
