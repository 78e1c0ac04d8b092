import Outreach.Decimal.Notation
import Outreach.Decimal.Reading
import Outreach.Proofs.Decimal.Rounding
import Outreach.Proofs.Text.Numeral

/-!
# Whole numbers as doubles and as texts

A double that is a whole number below 10^15 is shown in digits, without point, exponent or the sign of
a zero, and these digits are read as the double again.
-/

namespace Outreach.Decimal

open Float.Model (Format UnpackedFloat totalExponent)
open Float.Model.UnpackedFloat
open Text

variable {s : Sign} {m k : Nat} {e : Int} {n : Int} {x : Float} {hm : 0 < m}

/-! ## Writing -/

/-- A double that is a whole number below 10^15 is shown as the integer. -/
theorem numberText_of_isWhole {b : Binary} (read : Binary.ofFloat? x = some b)
    (whole : b.isWhole = true) (small : b.truncate.natAbs < 10 ^ 15) :
    numberText x = toString b.truncate := by
  have floor : b.floorMagnitude = b.truncate.natAbs := by
    unfold Binary.truncate
    split
    · rw [Int.natAbs_neg, Int.natAbs_natCast]
    · rw [Int.natAbs_natCast]
  have below : b.floorMagnitude < 1000000000000000 := by omega
  simp only [numberText, numberChars, read, whole, below, decide_true, Bool.and_self, if_true,
    decimalInt_eq, String.ofList_toList]

/-! ## Reading -/

/-- Multiplication by one. -/
theorem mul_one_of_log2 (digits : m.log2 = 52) (low : -1074 ≤ e) :
    mul .binary64 (.finite s m e hm) (.finite .positive (2 ^ 52) (-52) (by decide)) =
      .finite s m e hm := by
  have sign : s * .positive = s := by cases s <;> rfl
  have target : Format.binary64.targetExponent (totalExponent (m * 2 ^ 52) (e + -52)) = e := by
    have long : (m * 2 ^ 52).log2 = 52 + 52 := by
      rw [← Nat.shiftLeft_eq, log2_shiftLeft hm, digits]
    simp only [Format.targetExponent, totalExponent, Format.mantissaBits, minExponent_binary64, long]
    omega
  have places : (e - (e + -52)).toNat = 52 := by omega
  have first : shiftToTargetExponent .binary64 (m * 2 ^ 52) (e + -52) .exact =
      (ExtendedMantissa.ofMantissaAndAccuracy m .exact, e) := by
    simp only [shiftToTargetExponent, shiftToExponent, target, places, shiftRight_exact,
      Nat.mul_mod_left, Nat.mul_div_cancel _ (Nat.two_pow_pos 52)]
    exact Prod.ext rfl (by simp)
  have same : (ExtendedMantissa.ofMantissaAndAccuracy m .exact).roundedMantissa = m := rfl
  simp only [mul, sign, roundWithAccuracy, first, same, (Settled.of_log2 digits low).shift hm]
  exact dif_neg (Nat.ne_of_gt hm)

/-- Digits that a double can hold are read as the number that they make. -/
theorem ofScientific_eq (hk : k < 2 ^ 53) : Float.ofScientific k false 0 = ofCount k := by
  have product : Float.ofScientific k false 0 = ofCount k * Float.ofBits 0x3FF0000000000000 := by
    rw [Float.ofScientific, dif_pos ⟨hk, by decide⟩]
    rfl
  rw [product]
  rcases Nat.eq_zero_or_pos k with rfl | some
  · decide
  · have places : k.log2 < 53 := (Nat.log2_lt (Nat.ne_of_gt some)).mpr hk
    have one : (Float.ofBits 0x3FF0000000000000).toModel.unpack =
        .finite .positive (2 ^ 52) (-52) (by decide) := rfl
    show Float.ofModel (.pack (mul .binary64 (ofCount k).toModel.unpack
      (Float.ofBits 0x3FF0000000000000).toModel.unpack)) = _
    rw [unpack_ofCount some hk, one, mul_one_of_log2 (log2_shiftLeft_eq some places) (by omega),
      ofCount_eq some hk]

theorem nearest_eq (hk : k < 2 ^ 53) : nearest k 0 = ofCount k := by
  have short : (decimal k).length ≤ 16 :=
    (Nat.length_toDigits_le_iff (by decide) (by decide)).mpr (by omega)
  rcases Nat.eq_zero_or_pos k with rfl | some
  · decide
  · simp only [nearest]
    rw [if_neg (Nat.ne_of_gt some), if_neg (by omega), if_neg (by omega), if_neg (by decide)]
    exact ofScientific_eq hk

/-- Digits are no capital letters. -/
theorem toLower_of_isDigit {c : Char} (h : isDigit c = true) : c.toLower = c := by
  refine Char.toLower_eq_of_not_isUpper fun upper ↦ ?_
  simp only [isDigit, Bool.and_eq_true, decide_eq_true_eq, Char.le_def] at h
  simp only [Char.isUpper, decide_eq_true_eq] at upper
  have below := UInt32.le_trans upper.1 h.2
  exact absurd below (by decide)

/-- Digits are no name of what is not finite. -/
theorem special?_decimal (k : Nat) : special? (decimal k) = none := by
  obtain ⟨d, ds, digits, all⟩ := exists_decimal_eq k
  have digit := all d List.mem_cons_self
  have i : d ≠ 'i' := ne_of_isDigit digit (by decide)
  have n : d ≠ 'n' := ne_of_isDigit digit (by decide)
  simp [special?, digits, toLower_of_isDigit digit, i, n]

/-- Digits are a decimal without point and exponent. -/
theorem literal_takes_digits {d : Char} {ds : List Char} (all : ∀ c ∈ d :: ds, isDigit c = true) :
    Takes literal (d :: ds) ⟨d :: ds, [], 0⟩ [] := by
  have taken : Takes (Scan.takeWhile isDigit) (d :: ds) (d :: ds) [] := by
    have stop : Scan.Stops isDigit [] := by simp [Scan.Stops]
    have taken := Scan.takeWhile_takes all stop
    rwa [List.append_nil] at taken
  exact taken.bind rfl

theorem literal_takes (k : Nat) : Takes literal (decimal k) ⟨decimal k, [], 0⟩ [] := by
  obtain ⟨d, ds, digits, all⟩ := exists_decimal_eq k
  rw [digits]
  exact literal_takes_digits all

theorem magnitude?_decimal (hk : k < 2 ^ 53) : magnitude? (decimal k) = some (ofCount k) := by
  have value : valueOf (decimal k) = k := by
    have padded := valueOf_padded 0 k
    simpa [Text.padded, padLeft] using padded
  rw [magnitude?, special?_decimal, Option.none_or, Scan.all?_of_takes (literal_takes k),
    Option.map_some, Literal.magnitude]
  simp [value, nearest_eq hk]

theorem float?_of_isDigit {d : Char} {ds : List Char} (digit : isDigit d = true) :
    float? (d :: ds) = magnitude? (d :: ds) := by
  have minus : d ≠ '-' := ne_of_isDigit digit (by decide)
  have plus : d ≠ '+' := ne_of_isDigit digit (by decide)
  unfold float?
  split
  · next h => exact absurd (List.cons.inj h).1 minus
  · next h => exact absurd (List.cons.inj h).1 plus
  · rfl

/-- An integer of no more than 53 digits is read as its double. -/
theorem float?_decimalInt (small : n.natAbs < 2 ^ 53) : float? (decimalInt n) = some (whole n) := by
  unfold decimalInt whole
  split
  · show (magnitude? (decimal n.natAbs)).map (-·) = _
    rw [magnitude?_decimal small]
    rfl
  · obtain ⟨d, ds, digits, all⟩ := exists_decimal_eq n.natAbs
    rw [digits, float?_of_isDigit (all d List.mem_cons_self), ← digits, magnitude?_decimal small]

/-- The double of an integer is finite. -/
theorem isFinite_whole (small : n.natAbs < 2 ^ 53) : (whole n).isFinite = true := by
  by_cases zero : n = 0
  · subst zero
    decide
  · show (whole n).toModel.unpack.isFinite = true
    rw [unpack_whole zero small]
    rfl

/-- The double of an integer is one without a fraction, and has its value. -/
theorem isWhole_whole (small : n.natAbs < 2 ^ 53) :
    ∃ b, Binary.ofFloat? (whole n) = some b ∧ b.isWhole = true ∧ b.truncate = n := by
  obtain ⟨b, read, -, value⟩ := ofFloat?_whole small
  refine ⟨b, read, ?_, ?_⟩
  · rw [Binary.isWhole, value, Nat.mul_mod_left]
    rfl
  · have truncated := truncate_whole small
    rwa [read, Option.map_some, Option.some.injEq] at truncated

end Outreach.Decimal
