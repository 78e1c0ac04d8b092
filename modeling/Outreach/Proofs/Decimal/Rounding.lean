import Outreach.Proofs.Decimal.Whole

/-!
# Rounding

A number of more than 53 binary digits is not a double as it is. It is rounded to 53 digits, to the
nearer of the two neighbours and to the even one where it lies half way. Rounding keeps the order of
numbers but not their difference: two counts that are rounded to the same number are the same double.

Every finite double is a whole number of units of 2^-1074, the smallest one above zero. Counted in these
units, numbers of any size are rounded in the same way.
-/

namespace Outreach.Decimal

open Float.Model (Format UnpackedFloat totalExponent)
open Float.Model.UnpackedFloat

variable {s : Sign} {m n k : Nat} {e : Int} {hm : 0 < m}

/-! ## Rounding to a number of places -/

/-- How many units of the given binary place are nearest to a number; half way, the even number. -/
def nearestUnits (n places : Nat) : Nat :=
  let units := n / 2 ^ places
  let rest := n % 2 ^ places
  if 2 * rest < 2 ^ places then units
  else if 2 * rest = 2 ^ places then units + units % 2
  else units + 1

/-- A number rounded to 53 binary digits. -/
def rounded (n : Nat) : Nat := nearestUnits n (n.log2 - 52) * 2 ^ (n.log2 - 52)

theorem le_nearestUnits (n places : Nat) : n / 2 ^ places ≤ nearestUnits n places := by
  simp only [nearestUnits]
  split
  · exact Nat.le_refl _
  · split <;> omega

theorem nearestUnits_le (n places : Nat) : nearestUnits n places ≤ n / 2 ^ places + 1 := by
  simp only [nearestUnits]
  split
  · omega
  · split <;> omega

/-- To the place of the unit there is nothing to round. -/
theorem nearestUnits_zero (n : Nat) : nearestUnits n 0 = n := by
  simp [nearestUnits, Nat.mod_one]

/-- Zeros at the end make no difference. -/
theorem nearestUnits_mul_two_pow (n places k : Nat) :
    nearestUnits (n * 2 ^ k) (places + k) = nearestUnits n places := by
  have positive := Nat.two_pow_pos k
  have units : n * 2 ^ k / 2 ^ (places + k) = n / 2 ^ places := by
    rw [Nat.pow_add, Nat.mul_div_mul_right _ _ positive]
  have rest : n * 2 ^ k % 2 ^ (places + k) = n % 2 ^ places * 2 ^ k := by
    rw [Nat.pow_add, Nat.mul_mod_mul_right]
  have less : 2 * (n % 2 ^ places * 2 ^ k) < 2 ^ (places + k) ↔
      2 * (n % 2 ^ places) < 2 ^ places := by
    rw [Nat.pow_add, ← Nat.mul_assoc, Nat.mul_lt_mul_right positive]
  have half : 2 * (n % 2 ^ places * 2 ^ k) = 2 ^ (places + k) ↔
      2 * (n % 2 ^ places) = 2 ^ places := by
    rw [Nat.pow_add, ← Nat.mul_assoc, Nat.mul_left_inj (Nat.ne_of_gt positive)]
  simp only [nearestUnits, units, rest, less, half]

/-- Whole units are not rounded. -/
theorem nearestUnits_mul (n places : Nat) : nearestUnits (n * 2 ^ places) places = n := by
  have shifted := nearestUnits_mul_two_pow n 0 places
  rwa [Nat.zero_add, nearestUnits_zero] at shifted

/-- A larger number is not rounded to fewer units. -/
theorem nearestUnits_mono (places : Nat) (h : m ≤ n) :
    nearestUnits m places ≤ nearestUnits n places := by
  have units : m / 2 ^ places ≤ n / 2 ^ places := Nat.div_le_div_right h
  rcases Nat.lt_or_eq_of_le units with fewer | same
  · have := nearestUnits_le m places
    have := le_nearestUnits n places
    omega
  · -- the same full units: the rest decides
    have parts := Nat.div_add_mod m (2 ^ places)
    have parts' := Nat.div_add_mod n (2 ^ places)
    rw [← same] at parts'
    have rest : m % 2 ^ places ≤ n % 2 ^ places := by omega
    simp only [nearestUnits, ← same]
    split
    · split
      · exact Nat.le_refl _
      · split <;> omega
    · split
      · split
        · omega
        · split <;> omega
      · split
        · omega
        · split <;> omega

/-- What is rounded off or added is half a unit at most. -/
theorem nearestUnits_near (n places : Nat) :
    2 * n ≤ 2 * (nearestUnits n places * 2 ^ places) + 2 ^ places ∧
      2 * (nearestUnits n places * 2 ^ places) ≤ 2 * n + 2 ^ places := by
  have parts := Nat.div_add_mod' n (2 ^ places)
  have rest := Nat.mod_lt n (Nat.two_pow_pos places)
  simp only [nearestUnits]
  split
  · omega
  · split
    · rcases Nat.mod_two_eq_zero_or_one (n / 2 ^ places) with even | odd
      · rw [even, Nat.add_zero]
        omega
      · rw [odd, Nat.add_mul]
        omega
    · rw [Nat.add_mul]
      omega

/-! ## Rounding to 53 digits -/

/-- Up to 2^53 every number has 53 digits or ends in zeros. -/
theorem rounded_of_le (h : n ≤ 2 ^ 53) : rounded n = n := by
  rcases Nat.lt_or_eq_of_le h with below | rfl
  · have digits : n.log2 - 52 = 0 := by
      rcases Nat.eq_zero_or_pos n with rfl | some
      · rfl
      · have := (Nat.log2_lt (Nat.ne_of_gt some)).mpr below
        omega
    rw [rounded, digits, nearestUnits_zero, Nat.pow_zero, Nat.mul_one]
  · decide

/-- Zeros at the end of a number are kept, and do not matter otherwise. -/
theorem rounded_mul_two_pow (n k : Nat) : rounded (n * 2 ^ k) = rounded n * 2 ^ k := by
  rcases Nat.eq_zero_or_pos n with rfl | some
  · rw [Nat.zero_mul, rounded_of_le (Nat.zero_le _), Nat.zero_mul]
  have log : (n * 2 ^ k).log2 = n.log2 + k := by rw [← Nat.shiftLeft_eq, log2_shiftLeft some]
  rcases Nat.lt_or_ge n.log2 53 with short | long
  · -- the number has its 53 digits, and not all of the zeros may be needed to fill them up
    obtain ⟨places, hplaces⟩ : ∃ places, places = n.log2 + k - 52 := ⟨_, rfl⟩
    have zeros : n * 2 ^ k = n * 2 ^ (k - places) * 2 ^ places := by
      rw [Nat.mul_assoc, ← Nat.pow_add, Nat.sub_add_cancel (by omega)]
    have below : n < 2 ^ 53 := (Nat.log2_lt (Nat.ne_of_gt some)).mp short
    rw [rounded, log, ← hplaces, zeros, nearestUnits_mul, ← zeros, rounded_of_le below.le]
  · have places : n.log2 + k - 52 = n.log2 - 52 + k := by omega
    rw [rounded, rounded, log, places, nearestUnits_mul_two_pow, Nat.pow_add, Nat.mul_assoc]

/-- Rounding does not go below the highest digit. -/
theorem two_pow_log2_le_rounded (hn : n ≠ 0) : 2 ^ n.log2 ≤ rounded n := by
  have low := Nat.log2_self_le hn
  rcases Nat.lt_or_ge n.log2 52 with few | many
  · rw [rounded, Nat.sub_eq_zero_of_le (Nat.le_of_lt few), nearestUnits_zero]
    omega
  · have units : 2 ^ 52 ≤ n / 2 ^ (n.log2 - 52) := by
      rw [Nat.le_div_iff_mul_le (Nat.two_pow_pos _), ← Nat.pow_add]
      exact Nat.le_trans (Nat.pow_le_pow_right (by decide) (by omega)) low
    calc 2 ^ n.log2 = 2 ^ 52 * 2 ^ (n.log2 - 52) := by rw [← Nat.pow_add]; congr 1; omega
      _ ≤ rounded n := Nat.mul_le_mul_right _ (Nat.le_trans units (le_nearestUnits _ _))

/-- Rounding goes up to the next higher digit at most. -/
theorem rounded_le_two_pow (n : Nat) : rounded n ≤ 2 ^ (n.log2 + 1) := by
  have units : n / 2 ^ (n.log2 - 52) < 2 ^ (n.log2 + 1 - (n.log2 - 52)) := by
    rw [Nat.div_lt_iff_lt_mul (Nat.two_pow_pos _), ← Nat.pow_add]
    exact Nat.lt_of_lt_of_le Nat.lt_log2_self (Nat.pow_le_pow_right (by decide) (by omega))
  calc rounded n ≤ 2 ^ (n.log2 + 1 - (n.log2 - 52)) * 2 ^ (n.log2 - 52) :=
        Nat.mul_le_mul_right _ (Nat.le_trans (nearestUnits_le _ _) units)
    _ = 2 ^ (n.log2 + 1) := by rw [← Nat.pow_add]; congr 1; omega

/-- Rounding keeps the order. -/
theorem rounded_mono (h : m ≤ n) : rounded m ≤ rounded n := by
  rcases Nat.eq_zero_or_pos n with rfl | some
  · rw [Nat.le_zero.mp h]
  · have digits : m.log2 ≤ n.log2 := by
      rw [Nat.log2_eq_log_two, Nat.log2_eq_log_two]
      exact Nat.log_mono_right h
    rcases Nat.lt_or_eq_of_le digits with fewer | same
    · calc rounded m ≤ 2 ^ (m.log2 + 1) := rounded_le_two_pow m
        _ ≤ 2 ^ n.log2 := Nat.pow_le_pow_right (by decide) fewer
        _ ≤ rounded n := two_pow_log2_le_rounded (Nat.ne_of_gt some)
    · rw [rounded, rounded, same]
      exact Nat.mul_le_mul_right _ (nearestUnits_mono _ h)

/-- A number that is its own rounding is reached by no smaller one. -/
theorem rounded_le_rounded_iff (exact' : n ≤ 2 ^ 53) : rounded n ≤ rounded m ↔ n ≤ m := by
  constructor
  · intro ordered
    rcases Nat.le_total n m with h | h
    · exact h
    · rwa [rounded_of_le exact', rounded_of_le (Nat.le_trans h exact')] at ordered
  · exact rounded_mono

/-- Numbers below 2^63 that are rounded to the same one, or against their order, are no more than
1024 apart. -/
theorem le_add_of_rounded_le (hn : n < 2 ^ 63) (h : rounded n ≤ rounded m) : n ≤ m + 1024 := by
  rcases Nat.le_total n m with above | below
  · omega
  · have unit {k : Nat} (hk : k < 2 ^ 63) : 2 ^ (k.log2 - 52) ≤ 1024 := by
      have digits : k.log2 ≤ 62 := by
        rcases Nat.eq_zero_or_pos k with rfl | some
        · decide
        · have := (Nat.log2_lt (Nat.ne_of_gt some)).mpr hk
          omega
      calc 2 ^ (k.log2 - 52) ≤ 2 ^ 10 := Nat.pow_le_pow_right (by decide) (by omega)
        _ = 1024 := rfl
    have off := (nearestUnits_near n (n.log2 - 52)).1
    have added := (nearestUnits_near m (m.log2 - 52)).2
    have unit_n := unit hn
    have unit_m := unit (Nat.lt_of_le_of_lt below hn)
    simp only [rounded] at h
    omega

/-! ## What conversion does -/

/-- The digits that are shifted out are remembered by whether they make half a unit or more, and
whether there is anything besides. -/
theorem shiftRight_exact (n places : Nat) :
    ExtendedMantissa.ofMantissaAndAccuracy n .exact >>> places =
      ⟨n / 2 ^ places, decide (2 ^ places ≤ 2 * (n % 2 ^ places)),
        decide (n % 2 ^ places ≠ 0 ∧ 2 * (n % 2 ^ places) ≠ 2 ^ places)⟩ := by
  induction places with
  | zero =>
    simp [Nat.mod_one]
    rfl
  | succ k ih =>
    show (ExtendedMantissa.ofMantissaAndAccuracy n .exact >>> k).shiftRightOne = _
    have positive := Nat.two_pow_pos k
    have short := Nat.mod_lt n positive
    rw [ih, ExtendedMantissa.shiftRightOne, Nat.div_div_eq_div_mul, ← Nat.pow_succ,
      Nat.mod_pow_succ, Nat.pow_succ]
    generalize 2 ^ k = unit at *
    generalize n % unit = rest at *
    rcases Nat.mod_two_eq_zero_or_one (n / unit) with even | odd
    · simp only [even, Nat.mul_zero, ExtendedMantissa.mk.injEq, true_and]
      constructor <;> grind
    · simp only [odd, Nat.mul_one, ExtendedMantissa.mk.injEq, true_and]
      constructor <;> grind

/-- Rounding takes the nearest number of units. -/
theorem roundedMantissa_shiftRight (n places : Nat) :
    (ExtendedMantissa.ofMantissaAndAccuracy n .exact >>> places).roundedMantissa =
      nearestUnits n places := by
  have positive := Nat.two_pow_pos places
  rw [shiftRight_exact]
  simp only [nearestUnits]
  generalize 2 ^ places = unit at *
  rcases Nat.lt_trichotomy (2 * (n % unit)) unit with less | half | more
  · rw [if_pos less, decide_eq_false (Nat.not_le.mpr less)]
    cases decide (n % unit ≠ 0 ∧ 2 * (n % unit) ≠ unit) <;> rfl
  · rw [if_neg (Nat.not_lt.mpr half.ge), if_pos half, decide_eq_true half.ge,
      decide_eq_false fun other ↦ other.2 half]
    rfl
  · rw [if_neg (Nat.lt_asymm more), if_neg (Nat.ne_of_gt more), decide_eq_true more.le,
      decide_eq_true ⟨by omega, Nat.ne_of_gt more⟩]
    rfl

/-- Digits that are moved up to the highest place, or to the lowest exponent, are settled. -/
theorem settled_shiftLeft {places : Nat} (hn : 0 < n) (digits : n.log2 + k ≤ 52)
    (full : places = 0 ∨ n.log2 + k = 52) : Settled (n <<< k) (places - 1074) := by
  have some : n <<< k ≠ 0 := Nat.ne_of_gt (Nat.shiftLeft_pos_iff.mpr hn)
  have log := log2_shiftLeft hn k
  refine ⟨(Nat.log2_lt some).mp (by omega), by omega, full.imp (fun lowest ↦ by omega) fun all ↦ ?_⟩
  exact (Nat.le_log2 some).mp (by omega)

/-- A mantissa that has grown by one digit in rounding is shifted once more, and loses nothing. -/
theorem shiftToTargetExponent_units {units : Nat} (low : 2 ^ 52 ≤ units) (high : units ≤ 2 ^ 53)
    (places : Nat) :
    ∃ m e, 0 < m ∧ Settled m e ∧ m * 2 ^ (e + 1074).toNat = units * 2 ^ places ∧
      shiftToTargetExponent .binary64 units (places - 1074) .exact =
        (.ofMantissaAndAccuracy m .exact, e) := by
  rcases Nat.lt_or_eq_of_le high with below | rfl
  · have settled : Settled units (places - 1074) := ⟨below, by omega, .inr low⟩
    have here : ((places : Int) - 1074 + 1074).toNat = places := by omega
    exact ⟨units, places - 1074, by omega, settled, by rw [here], settled.shift (by omega)⟩
  · have next : ((places : Int) - 1074 + 1 + 1074).toNat = places + 1 := by omega
    have one : ((places : Int) - 1074 + 1 - (places - 1074)).toNat = 1 := by omega
    have target : Format.binary64.targetExponent (totalExponent (2 ^ 53) (places - 1074)) =
        places - 1074 + 1 := by
      simp only [Format.targetExponent, totalExponent, Format.mantissaBits, minExponent_binary64,
        Nat.log2_two_pow]
      omega
    refine ⟨2 ^ 52, places - 1074 + 1, by decide, ⟨by decide, by omega, .inr (by decide)⟩, ?_, ?_⟩
    · rw [next]
      omega
    · simp only [shiftToTargetExponent, shiftToExponent, target, one, Nat.cast_one]
      rfl

/-- A number, given by digits and an exponent that is not below the lowest, is rounded to 53 digits.
-/
theorem round_units (s : Sign) (hn : 0 < n) (k : Nat) :
    ∃ m e hm, round .binary64 s n (k - 1074) = .finite s m e hm ∧ Settled m e ∧
      m * 2 ^ (e + 1074).toNat = rounded (n * 2 ^ k) := by
  obtain ⟨places, hplaces⟩ : ∃ places, places = n.log2 + k - 52 := ⟨_, rfl⟩
  have digits : (n * 2 ^ k).log2 - 52 = places := by
    rw [← Nat.shiftLeft_eq, log2_shiftLeft hn, hplaces]
  have target : Format.binary64.targetExponent (totalExponent n (k - 1074)) = places - 1074 := by
    simp only [Format.targetExponent, totalExponent, Format.mantissaBits, minExponent_binary64]
    omega
  rcases Nat.lt_or_ge k places with many | few
  · -- some digits are too many
    obtain ⟨off, rfl⟩ : ∃ off, places = off + k := ⟨_, (Nat.sub_add_cancel many.le).symm⟩
    have long : n.log2 = 52 + off := by omega
    have still : ((k : Int) - 1074 - ((off + k : Nat) - 1074)).toNat = 0 := by omega
    have shift : (((off + k : Nat) : Int) - 1074 - (k - 1074)).toNat = off := by omega
    have exponent : (k : Int) - 1074 + (off : Nat) = (off + k : Nat) - 1074 := by omega
    have low : 2 ^ 52 ≤ nearestUnits n off := by
      refine Nat.le_trans ?_ (le_nearestUnits _ _)
      rw [Nat.le_div_iff_mul_le (Nat.two_pow_pos _), ← Nat.pow_add, ← long]
      exact Nat.log2_self_le (Nat.ne_of_gt hn)
    have high : nearestUnits n off ≤ 2 ^ 53 := by
      refine Nat.le_trans (nearestUnits_le _ _) ?_
      rw [Nat.succ_le_iff, Nat.div_lt_iff_lt_mul (Nat.two_pow_pos _), ← Nat.pow_add]
      exact Nat.lt_of_lt_of_le Nat.lt_log2_self (Nat.pow_le_pow_right (by decide) (by omega))
    obtain ⟨m, e, hm, settled, value, second⟩ := shiftToTargetExponent_units low high (off + k)
    have first : shiftToTargetExponent .binary64 n (k - 1074) .exact =
        (ExtendedMantissa.ofMantissaAndAccuracy n .exact >>> off, ((off + k : Nat) : Int) - 1074) := by
      simp only [shiftToTargetExponent, shiftToExponent, target, shift, exponent]
    have same : (ExtendedMantissa.ofMantissaAndAccuracy m .exact).mantissa = m := rfl
    refine ⟨m, e, hm, ?_, settled, ?_⟩
    · simp only [UnpackedFloat.round, target, decreaseExponent, still, roundWithAccuracy,
        Nat.shiftLeft_zero, Nat.cast_zero, Int.sub_zero, first, roundedMantissa_shiftRight, second, same]
      rw [dif_neg (Nat.ne_of_gt hm)]
    · rw [value, rounded, digits, nearestUnits_mul_two_pow]
  · -- there is room for all digits
    have shift : ((k : Int) - 1074 - (places - 1074)).toNat = k - places := by omega
    have exponent : (k : Int) - 1074 - (k - places : Nat) = places - 1074 := by omega
    have here : ((places : Int) - 1074 + 1074).toNat = places := by omega
    have settled : Settled (n <<< (k - places)) (places - 1074) :=
      settled_shiftLeft hn (by omega) (by omega)
    have whole : n * 2 ^ k = n <<< (k - places) * 2 ^ places := by
      rw [Nat.shiftLeft_eq, Nat.mul_assoc, ← Nat.pow_add, Nat.sub_add_cancel few]
    refine ⟨n <<< (k - places), places - 1074, Nat.shiftLeft_pos_iff.mpr hn, ?_, settled, ?_⟩
    · simp only [UnpackedFloat.round, target, decreaseExponent, shift, exponent]
      exact settled.roundWithAccuracy
    · rw [here, rounded, digits, whole, nearestUnits_mul]

/-! ## Units -/

/-- One, in units of 2^-1074. -/
def one : Nat := 2 ^ 1074

theorem one_pos : 0 < one := by
  unfold one
  positivity

/-- 2^1024, in units of 2^-1074. From here on a number is infinite as a double. -/
def overflow : Nat := 2 ^ 1024 * one

theorem overflow_eq {a b : Nat} (h : a + b = 2098) : overflow = 2 ^ a * 2 ^ b := by
  have exponents : 1024 + 1074 = a + b := h.symm
  rw [overflow, one, ← Nat.pow_add, ← Nat.pow_add, exponents]

/-- A settled number is below infinity exactly if its exponent is in range. -/
theorem Settled.lt_overflow_iff (h : Settled m e) :
    m * 2 ^ (e + 1074).toNat < overflow ↔ e ≤ 971 := by
  obtain ⟨top, htop⟩ : ∃ top, top = 2045 := ⟨_, rfl⟩
  constructor
  · intro small
    by_contra large
    have full : 2 ^ 52 ≤ m := h.full.resolve_left (by omega)
    have places : 2 ^ (top + 1) ≤ 2 ^ (e + 1074).toNat :=
      Nat.pow_le_pow_right (by decide) (by omega)
    rw [overflow_eq (a := 52) (b := top + 1) (by omega)] at small
    exact absurd (Nat.mul_le_mul full places) (Nat.not_le.mpr small)
  · intro high
    have places : 2 ^ (e + 1074).toNat ≤ 2 ^ top := Nat.pow_le_pow_right (by decide) (by omega)
    rw [overflow_eq (a := 53) (b := top) (by omega)]
    exact Nat.mul_lt_mul_of_lt_of_le h.digits places (Nat.two_pow_pos top)

/-- An unpacked number is finite, not below zero, and worth a number of units. -/
inductive Units : Nat → UnpackedFloat → Prop
  | zero (s : Sign) : Units 0 (.zero s)
  | finite {n : Nat} (m : Nat) (e : Int) (hm : 0 < m) (settled : Settled m e) (high : e ≤ 971)
      (value : m * 2 ^ (e + 1074).toNat = n) : Units n (.finite .positive m e hm)

/-- An unpacked number is worth a number of units, or it is infinite if these are too many. -/
structure Yields (n : Nat) (u : UnpackedFloat) : Prop where
  units : n < overflow → Units n u
  infinite : overflow ≤ n → u = .infinity .positive

/-- Beyond the range of exponents packing makes a number infinite. -/
theorem unpack_pack_infinity (hm : 0 < m) (large : 971 < e) :
    unpack .binary64 (pack .binary64 (.finite s m e hm)) = .infinity s := by
  have top : unpack .binary64 (packedInfinity .binary64 s) = .infinity s := by cases s <;> rfl
  simp only [pack, bias_binary64]
  rw [if_pos (by simp; omega), top]

/-- A settled number is worth what its digits say. -/
theorem Settled.yields (h : Settled m e) : Yields (m * 2 ^ (e + 1074).toNat)
    (unpack .binary64 (pack .binary64 (.finite .positive m e hm))) where
  units small := by
    have high := h.lt_overflow_iff.mp small
    rw [h.unpack_pack high]
    exact .finite m e hm h high rfl
  infinite much := by
    refine unpack_pack_infinity hm (Int.not_le.mp fun high ↦ ?_)
    exact absurd (h.lt_overflow_iff.mpr high) (Nat.not_lt.mpr much)

namespace Units

variable {u v : UnpackedFloat}

theorem lt_overflow (h : Units n u) : n < overflow := by
  cases h with
  | zero => exact Nat.mul_pos (by positivity) one_pos
  | finite m e hm settled high value => exact value ▸ settled.lt_overflow_iff.mpr high

/-- What a double is worth is not changed by rounding. -/
theorem rounded_eq (h : Units n u) : rounded n = n := by
  cases h with
  | zero => exact rounded_of_le (Nat.zero_le _)
  | finite m e hm settled high value => rw [← value, rounded_mul_two_pow, rounded_of_le settled.digits.le]

theorem unpack_pack (h : Units n u) : unpack .binary64 (pack .binary64 u) = u := by
  cases h with
  | zero s => cases s <;> rfl
  | finite m e hm settled high value => exact settled.unpack_pack high

theorem yields (h : Units n u) : Yields (rounded n) (unpack .binary64 (pack .binary64 u)) where
  units _ := by
    rw [h.unpack_pack, h.rounded_eq]
    exact h
  infinite much := by
    rw [h.rounded_eq] at much
    exact absurd h.lt_overflow (Nat.not_lt.mpr much)

end Units

/-- A number that is given by digits and an exponent is worth its units, rounded to 53 digits. -/
theorem yields_normalize (n k : Nat) : Yields (rounded (n * 2 ^ k))
    (unpack .binary64 (pack .binary64 (normalize .binary64 n (k - 1074) .positive))) := by
  rcases Nat.eq_zero_or_pos n with rfl | some
  · rw [Nat.zero_mul]
    exact (Units.zero .positive).yields
  · have above : compare (n : Int) 0 = .gt := Int.compare_eq_gt.mpr (by omega)
    obtain ⟨m, e, hm, rounds, settled, value⟩ := round_units .positive some k
    simp only [UnpackedFloat.normalize, above, Int.toNat_natCast, rounds, ← value]
    exact settled.yields

/-! ## Comparison -/

/-- Of settled numbers the one with the smaller exponent is the smaller. -/
theorem Settled.lt_of_lt {m' : Nat} {e' : Int} (h : Settled m e) (h' : Settled m' e') (less : e < e') :
    m * 2 ^ (e + 1074).toNat < m' * 2 ^ (e' + 1074).toNat := by
  have low := h.low
  have full : 2 ^ 52 ≤ m' := h'.full.resolve_left (by omega)
  have next : (e + 1074).toNat + 1 ≤ (e' + 1074).toNat := by omega
  calc m * 2 ^ (e + 1074).toNat < 2 ^ 53 * 2 ^ (e + 1074).toNat :=
        Nat.mul_lt_mul_of_pos_right h.digits (Nat.two_pow_pos _)
    _ = 2 ^ 52 * 2 ^ ((e + 1074).toNat + 1) := by rw [Nat.pow_succ]; omega
    _ ≤ m' * 2 ^ (e' + 1074).toNat :=
        Nat.mul_le_mul full (Nat.pow_le_pow_right (by decide) next)

/-- Numbers are compared as the units they are worth. -/
theorem Units.le_iff {u v : UnpackedFloat} (hu : Units m u) (hv : Units n v) :
    u.le v = true ↔ m ≤ n := by
  cases hu with
  | zero =>
    cases hv <;> exact iff_of_true rfl (Nat.zero_le _)
  | finite k e hk settled _ value =>
    cases hv with
    | zero =>
      have some := Nat.mul_pos hk (Nat.two_pow_pos (e + 1074).toNat)
      exact iff_of_false Bool.false_ne_true (by omega)
    | finite k' e' hk' settled' _ value' =>
      rw [← value, ← value']
      show ((compare e e').then (compare k k')).isLE = true ↔ _
      rcases Int.lt_trichotomy e e' with less | rfl | more
      · rw [Int.compare_eq_lt.mpr less]
        exact iff_of_true rfl (settled.lt_of_lt settled' less).le
      · rw [Int.compare_eq_eq.mpr rfl]
        show (compare k k').isLE = true ↔ _
        rw [Nat.isLE_compare, Nat.mul_le_mul_right_iff (Nat.two_pow_pos _)]
      · rw [Int.compare_eq_gt.mpr more]
        exact iff_of_false Bool.false_ne_true (Nat.not_le.mpr (settled'.lt_of_lt settled more))

/-- The double of a count is the count, rounded to 53 digits. -/
theorem units_toFloat (n : UInt64) : Units (rounded n.toNat * one) n.toFloat.toModel.unpack := by
  have double : Yields (rounded (n.toNat * one)) n.toFloat.toModel.unpack :=
    yields_normalize n.toNat 1074
  rw [one, rounded_mul_two_pow, ← one] at double
  refine double.units (Nat.mul_lt_mul_of_pos_right ?_ one_pos)
  calc rounded n.toNat ≤ rounded (1 * 2 ^ 64) := rounded_mono (by have := n.toNat_lt; omega)
    _ = 2 ^ 64 := by rw [rounded_mul_two_pow, rounded_of_le (by decide), Nat.one_mul]
    _ < 2 ^ 1024 := pow_lt_pow_right₀ one_lt_two (by decide)

/-- Counts are compared as doubles by what they are rounded to. -/
theorem toFloat_le_iff {m n : UInt64} :
    m.toFloat ≤ n.toFloat ↔ rounded m.toNat ≤ rounded n.toNat := by
  rw [Decimal.le_iff, (units_toFloat m).le_iff (units_toFloat n),
    Nat.mul_le_mul_right_iff one_pos]

theorem Units.nonNegative {u : UnpackedFloat} (h : Units n u) : NonNegative u := by
  cases h with
  | zero s => exact .zero s
  | finite k e hk => exact .positive (.finite k e hk)

theorem Units.neg_le {u v : UnpackedFloat} (hu : Units m u) (hv : NonNegative v) :
    (unpack .binary64 (pack .binary64 u.neg)).le v = true := by
  cases hu with
  | zero s =>
    cases s with
    | negative => exact zero_le_iff.mpr hv
    | positive => exact Signed.zero.unpack_pack.le hv
  | finite k e hk => exact (Signed.finite k e hk).unpack_pack.le hv

/-- The opposite of a count is at most any count. -/
theorem neg_toFloat_le (m n : UInt64) : -m.toFloat ≤ n.toFloat :=
  Decimal.le_iff.mpr ((units_toFloat m).neg_le (units_toFloat n).nonNegative)

end Outreach.Decimal
