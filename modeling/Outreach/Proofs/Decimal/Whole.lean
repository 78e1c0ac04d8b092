import Outreach.Proofs.Decimal.Amounts

/-!
# Whole numbers as doubles

A whole number of no more than 53 binary digits is a double as it is: rounding moves its digits up to
the highest place and loses none, packing keeps them, and what is then read off the bits is the number.
-/

namespace Outreach.Decimal

open Float.Model (Format UnpackedFloat totalExponent)
open Float.Model.UnpackedFloat

variable {x : Float} {s : Sign} {m n : Nat} {e : Int} {hm : 0 < m}

/-! ## Reading the bits -/

section Fields

variable (b : BitVec Format.binary64.numBits)

theorem toNat_unpackExponent : (unpackExponent b).toNat = b.toNat / 0x10000000000000 % 2048 := by
  simp [unpackExponent, Nat.shiftRight_eq_div_pow]

theorem toNat_unpackMantissa : (unpackMantissa b).toNat = b.toNat % 0x10000000000000 := by
  simp [unpackMantissa]

/-- The highest bit is the sign. -/
theorem unpackSign_beq_negative :
    (Sign.ofBitVec (unpackSign b) == .negative) = decide (0x8000000000000000 ≤ b.toNat) := by
  have bits : b.toNat < 2 ^ 64 := b.isLt
  have sign : (unpackSign b).toNat = b.toNat / 0x8000000000000000 := by
    simp [unpackSign, Nat.shiftRight_eq_div_pow]
    omega
  have positive : unpackSign b = 0#1 ↔ ¬0x8000000000000000 ≤ b.toNat := by
    rw [← BitVec.toNat_inj, sign]
    show _ = 0 ↔ _
    omega
  rw [Sign.ofBitVec]
  split
  · next zero => exact (decide_eq_false (positive.mp zero)).symm
  · next one => exact (decide_eq_true (not_not.mp (mt positive.mpr one))).symm

end Fields

/-- The digit that all but the smallest numbers begin with is not kept in the bits. -/
theorem toNat_one_append (v : BitVec 52) : (1#1 ++ v).toNat = 0x10000000000000 + v.toNat := by
  rw [BitVec.toNat_append, ← Nat.shiftLeft_add_eq_or_of_lt v.isLt]
  rfl

/-- A finite number is read off the bits as it is unpacked. -/
theorem ofFloat?_of_unpack (h : x.toModel.unpack = .finite s m e hm) :
    ∃ narrow, Binary.ofFloat? x = some ⟨s == .negative, m, e, narrow⟩ := by
  obtain ⟨b, hb⟩ : ∃ b : BitVec Format.binary64.numBits, b = x.toBits.toBitVec := ⟨_, rfl⟩
  have bits : x.toBits.toNat = b.toNat := by
    rw [hb]
    rfl
  have h' : unpack .binary64 b = .finite s m e hm := by
    rw [hb]
    exact h
  simp only [Binary.ofFloat?, bits, ← toNat_unpackExponent, ← toNat_unpackMantissa,
    ← unpackSign_beq_negative]
  -- a number that is not zero has not the highest exponent, and with the lowest one a mantissa
  simp only [unpack, bias_binary64] at h'
  split at h'
  · split at h' <;> cases h'
  · next top =>
    have below : (unpackExponent b).toNat ≠ 2047 := fun same ↦ top (BitVec.eq_of_toNat_eq same)
    rw [if_neg below]
    split at h'
    · next low =>
      split at h'
      · cases h'
      · simp only [UnpackedFloat.finite.injEq, low] at h'
        obtain ⟨rfl, rfl, rfl⟩ := h'
        rw [low]
        exact ⟨false, rfl⟩
    · next high =>
      have above : (unpackExponent b).toNat ≠ 0 := fun same ↦ high (BitVec.eq_of_toNat_eq same)
      simp only [UnpackedFloat.finite.injEq, toNat_one_append] at h'
      obtain ⟨rfl, rfl, rfl⟩ := h'
      rw [if_neg above]
      exact ⟨_, rfl⟩

/-! ## Packing -/

/-- Digits and an exponent as a double has them: 53 digits, the first of which is zero only where the
exponent is the lowest one. -/
structure Settled (m : Nat) (e : Int) : Prop where
  digits : m < 2 ^ 53
  low : -1074 ≤ e
  full : e = -1074 ∨ 2 ^ 52 ≤ m

theorem Settled.of_log2 (digits : m.log2 = 52) (low : -1074 ≤ e) : Settled m e := by
  have some : m ≠ 0 := by
    rintro rfl
    exact absurd digits (by decide)
  exact ⟨(Nat.log2_lt some).mp (by omega), low, .inr (digits ▸ Nat.log2_self_le some)⟩

/-- What is read off the bits is settled, and its exponent is not too large. -/
theorem settled_of_unpack {b : BitVec Format.binary64.numBits}
    (h : unpack .binary64 b = .finite s m e hm) : Settled m e ∧ e ≤ 971 := by
  have mantissa := (unpackMantissa b).isLt
  have exponent := (unpackExponent b).isLt
  simp only [unpack, bias_binary64] at h
  split at h
  · split at h <;> cases h
  · next top =>
    split at h
    · next low =>
      split at h
      · cases h
      · simp only [UnpackedFloat.finite.injEq, low] at h
        obtain ⟨rfl, rfl, rfl⟩ := h
        exact ⟨⟨Nat.lt_trans mantissa (by decide), by decide, .inl (by decide)⟩, by decide⟩
    · next high =>
      have below : (unpackExponent b).toNat ≠ 2047 := fun same ↦ top (BitVec.eq_of_toNat_eq same)
      have above : (unpackExponent b).toNat ≠ 0 := fun same ↦ high (BitVec.eq_of_toNat_eq same)
      simp only [UnpackedFloat.finite.injEq, toNat_one_append] at h
      obtain ⟨rfl, rfl, rfl⟩ := h
      simp only [Nat.reducePow] at mantissa exponent ⊢
      exact ⟨⟨by omega, by omega, .inr (by omega)⟩, by omega⟩

/-- The opposite of a finite number is finite. -/
theorem isFinite_neg {x : Float} (h : x.isFinite = true) : (-x).isFinite = true := by
  have finite : x.toModel.unpack.isFinite = true := h
  show (unpack .binary64 (pack .binary64 x.toModel.unpack.neg)).isFinite = true
  cases parts : x.toModel.unpack with
  | zero s => cases s <;> rfl
  | finite s m e hm => exact isFinite_unpack_pack (settled_of_unpack parts).2
  | infinity s => rw [parts] at finite; cases finite
  | notANumber => rw [parts] at finite; cases finite

/-- With all its digits and an exponent in range, a number is unpacked as it was packed. -/
theorem unpack_pack_of_log2 (digits : m.log2 = 52) (low : -1074 ≤ e) (high : e ≤ 971) :
    unpack .binary64 (pack .binary64 (.finite s m e hm)) = .finite s m e hm := by
  obtain ⟨n, hn⟩ : ∃ n, n = (e + (1023 : Nat) + (52 : Nat)).toNat := ⟨_, rfl⟩
  have lt : m < 2 ^ 53 := (Nat.log2_lt (Nat.ne_of_gt hm)).mp (by omega)
  have le : 2 ^ 52 ≤ m := digits ▸ Nat.log2_self_le (Nat.ne_of_gt hm)
  have top : BitVec.ofNat 11 n ≠ -1#_ := ofNat_exponent_ne (by omega)
  have lowest : BitVec.ofNat 11 n ≠ 0#_ := by
    rw [← BitVec.toNat_inj.ne]
    simp
    omega
  simp only [pack, bias_binary64, digits, ← hn, Format.mantissaBits]
  rw [if_neg (by simp; omega), if_true]
  simp only [unpack, bias_binary64, unpackExponent_packComponents, unpackMantissa_packComponents,
    unpackSign_packComponents, Sign.ofBitVec_toBitVec, if_neg top, if_neg lowest,
    UnpackedFloat.finite.injEq, toNat_one_append, BitVec.toNat_ofNat, true_and]
  omega

/-- With fewer digits and the lowest exponent, a number is unpacked as it was packed. -/
theorem unpack_pack_of_lt (short : m < 2 ^ 52) :
    unpack .binary64 (pack .binary64 (.finite s m (-1074) hm)) = .finite s m (-1074) hm := by
  have few : m.log2 < 52 := (Nat.log2_lt (Nat.ne_of_gt hm)).mpr short
  have some : BitVec.ofNat 52 m ≠ 0#52 := by
    rw [← BitVec.toNat_inj.ne]
    simp
    omega
  have lowest : (0#11 : BitVec 11) ≠ -1#11 := by decide
  simp only [pack, bias_binary64, Format.mantissaBits]
  rw [if_neg (by simp), if_neg (by simp; omega)]
  simp only [unpack, bias_binary64, unpackExponent_packComponents, unpackMantissa_packComponents,
    unpackSign_packComponents, Sign.ofBitVec_toBitVec, if_neg lowest, if_true, dif_neg some,
    UnpackedFloat.finite.injEq, BitVec.toNat_ofNat, true_and]
  simp
  omega

/-- Settled numbers in range are unpacked as they were packed. -/
theorem Settled.unpack_pack (h : Settled m e) (high : e ≤ 971) :
    unpack .binary64 (pack .binary64 (.finite s m e hm)) = .finite s m e hm := by
  rcases Nat.lt_or_ge m (2 ^ 52) with short | long
  · obtain rfl : e = -1074 := h.full.resolve_right (Nat.not_le.mpr short)
    exact unpack_pack_of_lt short
  · have digits : m.log2 = 52 := (Nat.log2_eq_iff (Nat.ne_of_gt hm)).mpr ⟨long, h.digits⟩
    exact unpack_pack_of_log2 digits h.low high

/-! ## Rounding -/

namespace Settled

/-- A settled number has the exponent that it should have. -/
theorem target (h : Settled m e) (hm : 0 < m) :
    Format.binary64.targetExponent (totalExponent m e) = e := by
  have low := h.low
  have top : m.log2 < 53 := (Nat.log2_lt (Nat.ne_of_gt hm)).mpr h.digits
  simp only [Format.targetExponent, totalExponent, Format.mantissaBits, minExponent_binary64]
  rcases h.full with lowest | full
  · omega
  · have all : 52 ≤ m.log2 := (Nat.le_log2 (Nat.ne_of_gt hm)).mpr full
    omega

/-- Shifting by no places. -/
theorem shift (h : Settled m e) (hm : 0 < m) :
    shiftToTargetExponent .binary64 m e .exact = (.ofMantissaAndAccuracy m .exact, e) := by
  simp only [shiftToTargetExponent, shiftToExponent, h.target hm, Int.sub_self]
  simp
  rfl

/-- A settled number is not changed by rounding. -/
theorem roundWithAccuracy (h : Settled m e) :
    roundWithAccuracy .binary64 s m e .exact = .finite s m e hm := by
  have exact' : (ExtendedMantissa.ofMantissaAndAccuracy m .exact).roundedMantissa = m := rfl
  have same : (ExtendedMantissa.ofMantissaAndAccuracy m .exact).mantissa = m := rfl
  simp only [UnpackedFloat.roundWithAccuracy, h.shift hm, exact', same]
  rw [dif_neg (Nat.ne_of_gt hm)]

end Settled

theorem log2_shiftLeft (hn : 0 < n) (k : Nat) : (n <<< k).log2 = n.log2 + k := by
  induction k with
  | zero => rfl
  | succ k ih =>
    have shifted : n <<< k ≠ 0 := Nat.ne_of_gt (Nat.shiftLeft_pos_iff.mpr hn)
    rw [Nat.shiftLeft_succ, Nat.log2_two_mul shifted, ih, Nat.add_assoc]

/-- Digits that are moved up to the highest place reach it. -/
theorem log2_shiftLeft_eq (hn : 0 < n) (places : n.log2 < 53) : (n <<< (52 - n.log2)).log2 = 52 := by
  rw [log2_shiftLeft hn]
  omega

/-- The digits of a whole number are moved up to the highest place. -/
theorem round_whole (hn : 0 < n) (h : n < 2 ^ 53) :
    round .binary64 s n 0 =
      .finite s (n <<< (52 - n.log2)) (n.log2 - 52) (Nat.shiftLeft_pos_iff.mpr hn) := by
  have places : n.log2 < 53 := (Nat.log2_lt (Nat.ne_of_gt hn)).mpr h
  have target : Format.binary64.targetExponent (totalExponent n 0) = (n.log2 : Int) - 52 := by
    simp only [Format.targetExponent, totalExponent, Format.mantissaBits, minExponent_binary64]
    omega
  have shift : (0 - ((n.log2 : Int) - 52)).toNat = 52 - n.log2 := by omega
  have exponent : (0 : Int) - (52 - n.log2 : Nat) = n.log2 - 52 := by omega
  simp only [UnpackedFloat.round, target, decreaseExponent, shift, exponent]
  exact (Settled.of_log2 (log2_shiftLeft_eq hn places) (by omega)).roundWithAccuracy

/-- A whole number of no more than 53 digits is a double as it is. -/
theorem ofCount_eq (hn : 0 < n) (h : n < 2 ^ 53) :
    ofCount n = .ofModel (.pack (.finite .positive (n <<< (52 - n.log2)) (n.log2 - 52)
      (Nat.shiftLeft_pos_iff.mpr hn))) := by
  have same : n.toUInt64.toNat = n := Nat.mod_eq_of_lt (by omega)
  have above : compare (n : Int) 0 = .gt := Int.compare_eq_gt.mpr (by omega)
  show Float.ofModel (.pack (ofNat .binary64 n.toUInt64.toNat)) = _
  simp only [same, UnpackedFloat.ofNat, ofInt, UnpackedFloat.normalize, above, Int.toNat_natCast,
    round_whole hn h]

theorem unpack_ofCount (hn : 0 < n) (h : n < 2 ^ 53) :
    (ofCount n).toModel.unpack =
      .finite .positive (n <<< (52 - n.log2)) (n.log2 - 52) (Nat.shiftLeft_pos_iff.mpr hn) := by
  have places : n.log2 < 53 := (Nat.log2_lt (Nat.ne_of_gt hn)).mpr h
  rw [ofCount_eq hn h]
  exact unpack_pack_of_log2 (log2_shiftLeft_eq hn places) (by omega) (by omega)

/-! ## Whole numbers -/

def whole (n : Int) : Float := if n < 0 then -ofCount n.natAbs else ofCount n.natAbs

/-- The double of a whole number is unpacked as its digits, moved up to the highest place. -/
theorem unpack_whole {n : Int} (some : n ≠ 0) (h : n.natAbs < 2 ^ 53) :
    (whole n).toModel.unpack =
      .finite (if n < 0 then .negative else .positive) (n.natAbs <<< (52 - n.natAbs.log2))
        (n.natAbs.log2 - 52) (Nat.shiftLeft_pos_iff.mpr (Int.natAbs_pos.mpr some)) := by
  have positive := Int.natAbs_pos.mpr some
  have magnitude := unpack_ofCount positive h
  unfold whole
  split
  · have places : n.natAbs.log2 < 53 := (Nat.log2_lt (Nat.ne_of_gt positive)).mpr h
    show unpack .binary64 (pack .binary64 (ofCount n.natAbs).toModel.unpack.neg) = _
    rw [magnitude, UnpackedFloat.neg]
    exact unpack_pack_of_log2 (log2_shiftLeft_eq positive places) (by omega) (by omega)
  · exact magnitude

/-- What is read off the bits of the double of a whole number is the number. -/
theorem ofFloat?_whole {n : Int} (h : n.natAbs < 2 ^ 53) :
    ∃ b, Binary.ofFloat? (whole n) = some b ∧ b.negative = decide (n < 0) ∧
      b.numerator = n.natAbs * b.divisor := by
  by_cases zero : n = 0
  · subst zero
    exact ⟨⟨false, 0, -1074, false⟩, by decide, rfl, by simp [Binary.numerator]⟩
  · obtain ⟨narrow, read⟩ := ofFloat?_of_unpack (unpack_whole zero h)
    refine ⟨_, read, ?_, ?_⟩
    · by_cases below : n < 0 <;> simp [below]
    · have places : n.natAbs.log2 < 53 := (Nat.log2_lt (Int.natAbs_ne_zero.mpr zero)).mpr h
      have scale : (-((n.natAbs.log2 : Int) - 52)).toNat = 52 - n.natAbs.log2 := by omega
      have unscaled : ((n.natAbs.log2 : Int) - 52).toNat = 0 := by omega
      simp only [Binary.numerator, Binary.divisor, scale, unscaled, Nat.shiftLeft_eq]
      exact Nat.mul_one _

theorem divisor_pos (b : Binary) : 0 < b.divisor := Nat.two_pow_pos _

/-- The double of a whole number has no fraction to be cut off. -/
theorem truncate_whole {n : Int} (h : n.natAbs < 2 ^ 53) :
    (Binary.ofFloat? (whole n)).map Binary.truncate = some n := by
  obtain ⟨b, read, sign, value⟩ := ofFloat?_whole h
  have floor : b.floorMagnitude = n.natAbs := by
    rw [Binary.floorMagnitude, value, Nat.mul_div_cancel _ (divisor_pos b)]
  rw [read, Option.map_some, Binary.truncate, floor, sign]
  rcases Int.lt_or_le n 0 with below | above
  · rw [decide_eq_true below, if_pos rfl, Int.ofNat_natAbs_of_nonpos below.le, Int.neg_neg]
  · rw [decide_eq_false (Int.not_lt.mpr above), if_neg Bool.false_ne_true,
      Int.natAbs_of_nonneg above]

end Outreach.Decimal
