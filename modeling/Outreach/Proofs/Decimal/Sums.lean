import Outreach.Proofs.Decimal.Rounding

/-!
# Sums of amounts

An amount is a finite double that is not below zero. In units of 2^-1074 amounts are natural numbers, and
they are added and subtracted as such: a sum is the exact one, rounded to 53 binary digits, or infinite
if that is 2^1024 or more; and a difference that is floored at zero is the difference of natural numbers,
rounded likewise. What has 53 digits is not rounded, so that sums and differences of whole numbers
up to 2^53 are exact.
-/

namespace Outreach.Decimal

open Float.Model (UnpackedFloat)
open Float.Model.UnpackedFloat

variable {a b m n k : Nat} {e : Int} {u v : UnpackedFloat}

/-! ## Digits of one exponent -/

/-- The digits of a number at a lower exponent. -/
theorem decreaseExponent_eq (low : -1074 ≤ e) (le : (k : Int) - 1074 ≤ e) (m : Nat) :
    ∃ d, decreaseExponent m e (k - 1074) = (d, (k : Int) - 1074) ∧
      d * 2 ^ k = m * 2 ^ (e + 1074).toNat := by
  refine ⟨m <<< (e - (k - 1074)).toNat, ?_, ?_⟩
  · simp only [decreaseExponent, Prod.mk.injEq, true_and]
    omega
  · rw [Nat.shiftLeft_eq, Nat.mul_assoc, ← Nat.pow_add]
    congr 2
    omega

/-- Two numbers are brought to the lower one of their exponents. -/
theorem exists_digits (m m' : Nat) {e' : Int} (low : -1074 ≤ e) (low' : -1074 ≤ e') :
    ∃ k d d' : Nat, min e e' = (k : Int) - 1074 ∧
      (decreaseExponent m e (k - 1074) = (d, (k : Int) - 1074) ∧
        d * 2 ^ k = m * 2 ^ (e + 1074).toNat) ∧
      decreaseExponent m' e' (k - 1074) = (d', (k : Int) - 1074) ∧
        d' * 2 ^ k = m' * 2 ^ (e' + 1074).toNat := by
  obtain ⟨k, hk⟩ : ∃ k : Nat, min e e' = (k : Int) - 1074 := ⟨(min e e' + 1074).toNat, by omega⟩
  obtain ⟨d, digits⟩ := decreaseExponent_eq (k := k) low (by omega) m
  obtain ⟨d', digits'⟩ := decreaseExponent_eq (k := k) low' (by omega) m'
  exact ⟨k, d, d', hk, digits, digits'⟩

/-! ## Unpacked numbers -/

namespace Units

/-- The sum of two numbers is that of their units, rounded. -/
theorem add (hu : Units a u) (hv : Units b v) :
    Yields (rounded (a + b)) (unpack .binary64 (pack .binary64 (UnpackedFloat.add .binary64 u v))) := by
  cases hu with
  | zero s =>
    rw [Nat.zero_add]
    cases hv with
    | zero t => cases s <;> cases t <;> exact (Units.zero _).yields
    | finite m e hm settled high value => exact (Units.finite m e hm settled high value).yields
  | finite m e hm settled high value =>
    cases hv with
    | zero t => exact (Units.finite m e hm settled high value).yields
    | finite m' e' hm' settled' high' value' =>
      obtain ⟨k, d, d', hk, ⟨digits, worth⟩, digits', worth'⟩ :=
        exists_digits m m' settled.low settled'.low
      have sum : a + b = (d + d') * 2 ^ k := by rw [Nat.add_mul, worth, worth', value, value']
      simp only [UnpackedFloat.add, hk, digits, digits', Sign.apply, ← Int.natCast_add, sum]
      exact yields_normalize (d + d') k

/-- The difference to a number that is not larger is that of their units, rounded. -/
theorem sub (hu : Units a u) (hv : Units b v) (le : b ≤ a) :
    Units (rounded (a - b))
      (unpack .binary64 (pack .binary64 (UnpackedFloat.sub .binary64 u v))) := by
  have small : rounded (a - b) < overflow := by
    refine Nat.lt_of_le_of_lt (rounded_mono (Nat.sub_le a b)) ?_
    rw [hu.rounded_eq]
    exact hu.lt_overflow
  refine Yields.units ?_ small
  cases hv with
  | zero t =>
    cases hu with
    | zero s => cases s <;> cases t <;> exact (Units.zero _).yields
    | finite m e hm settled high value => exact (Units.finite m e hm settled high value).yields
  | finite m' e' hm' settled' high' value' =>
    cases hu with
    | zero s =>
      have some := Nat.mul_pos hm' (Nat.two_pow_pos (e' + 1074).toNat)
      omega
    | finite m e hm settled high value =>
      obtain ⟨k, d, d', hk, ⟨digits, worth⟩, digits', worth'⟩ :=
        exists_digits m m' settled.low settled'.low
      have fewer : d' ≤ d := Nat.le_of_mul_le_mul_right (by omega) (Nat.two_pow_pos k)
      have rest : a - b = (d - d') * 2 ^ k := by rw [Nat.sub_mul, worth, worth', value, value']
      simp only [UnpackedFloat.sub, hk, digits, digits', Sign.apply, ← Int.natCast_sub fewer, rest]
      exact yields_normalize (d - d') k

/-- The difference to a larger number is below zero. -/
theorem sub_of_lt (hu : Units a u) (hv : Units b v) (lt : a < b) :
    Signed .negative (unpack .binary64 (pack .binary64 (UnpackedFloat.sub .binary64 u v))) := by
  refine Signed.unpack_pack ?_
  cases hv with
  | zero t => cases lt
  | finite m' e' hm' settled' high' value' =>
    cases hu with
    | zero s => exact .finite m' e' hm'
    | finite m e hm settled high value =>
      obtain ⟨k, d, d', hk, ⟨digits, worth⟩, digits', worth'⟩ :=
        exists_digits m m' settled.low settled'.low
      have more : d < d' := Nat.lt_of_mul_lt_mul_right (a := 2 ^ k) (by omega)
      have below : compare ((d : Int) - d') 0 = .lt := Int.compare_eq_lt.mpr (by omega)
      simp only [UnpackedFloat.sub, hk, digits, digits', Sign.apply, UnpackedFloat.normalize, below]
      exact signed_round _ _ _

theorem isNaN (h : Units n u) : u.isNaN = false := by cases h <;> rfl

/-- Numbers are strictly ordered as the units they are worth. -/
theorem lt_iff (hu : Units m u) (hv : Units n v) : u.lt v = true ↔ m < n := by
  rw [lt_eq_not_le hu.isNaN hv.isNaN, Bool.not_eq_true', ← Bool.not_eq_true, hv.le_iff hu,
    Nat.not_le]

end Units

/-! ## Amounts -/

/-- A double is finite and not below zero. -/
structure IsAmount (x : Float) : Prop where
  finite : x.isFinite = true
  zero_le : 0.0 ≤ x

/-- How many units of 2^-1074 the magnitude of a finite double is, which is a whole number. -/
def units (x : Float) : Nat :=
  match x.toModel.unpack with
  | .finite _ m e _ => m * 2 ^ (e + 1074).toNat
  | _ => 0

variable {x y : Float}

theorem units_eq (h : Units n x.toModel.unpack) : units x = n := by
  unfold units
  generalize x.toModel.unpack = u at h
  cases h with
  | zero => rfl
  | finite m e hm settled high value => exact value

/-- What is not below zero and not finite is infinite. -/
theorem infinite_of_zero_le (h : 0.0 ≤ x) (infinite : x.isFinite = false) :
    x.toModel.unpack = .infinity .positive := by
  have above := zero_le_iff_nonNegative.mp h
  have infinite' : x.toModel.unpack.isFinite = false := infinite
  generalize x.toModel.unpack = u at above infinite'
  rcases above with ⟨⟨⟩ | ⟨m, e, hm⟩ | ⟨⟩⟩ | ⟨⟩
  · cases infinite'
  · cases infinite'
  · rfl
  · cases infinite'

/-- What is not below zero and below a number is finite. -/
theorem isFinite_of_lt (h : 0.0 ≤ x) (lt : x < y) : x.isFinite = true := by
  cases finite : x.isFinite with
  | true => rfl
  | false =>
    rw [lt_iff, infinite_of_zero_le h finite] at lt
    rcases hu : y.toModel.unpack with ⟨_ | _⟩ | _ | _ | _ <;> rw [hu] at lt <;> cases lt

theorem units_zero : units 0.0 = 0 := units_eq (.zero .positive)

theorem isFinite_of_infinite (h : x.toModel.unpack = .infinity .positive) : x.isFinite = false := by
  show x.toModel.unpack.isFinite = false
  rw [h]
  rfl

theorem isAmount_of_units (h : Units n x.toModel.unpack) : IsAmount x where
  finite := by
    show x.toModel.unpack.isFinite = true
    generalize x.toModel.unpack = u at h
    cases h <;> rfl
  zero_le := by
    rw [zero_le_iff_nonNegative]
    generalize x.toModel.unpack = u at h
    cases h with
    | zero s => exact .zero s
    | finite m e hm => exact .positive (.finite m e hm)

instance (x : Float) : Decidable (IsAmount x) :=
  decidable_of_iff (x.isFinite = true ∧ 0.0 ≤ x)
    ⟨fun h ↦ ⟨h.1, h.2⟩, fun h ↦ ⟨h.finite, h.zero_le⟩⟩

namespace IsAmount

protected theorem units (h : IsAmount x) : Units (units x) x.toModel.unpack := by
  have finite : x.toModel.unpack.isFinite = true := h.finite
  have above := zero_le_iff_nonNegative.mp h.zero_le
  unfold Decimal.units
  generalize hu : x.toModel.unpack = u at finite above
  rcases above with ⟨⟨⟩ | ⟨m, e, hm⟩ | ⟨⟩⟩ | ⟨⟩
  · exact .zero _
  · obtain ⟨settled, high⟩ := settled_of_unpack hu
    exact .finite m e hm settled high rfl
  · cases finite
  · exact .zero _

protected theorem lt_iff (hx : IsAmount x) (hy : IsAmount y) : x < y ↔ units x < units y := by
  rw [Decimal.lt_iff, hx.units.lt_iff hy.units]

theorem zero : IsAmount 0.0 := isAmount_of_units (.zero .positive)

theorem lt_overflow (h : IsAmount x) : units x < overflow := h.units.lt_overflow

theorem rounded_eq (h : IsAmount x) : rounded (units x) = units x := h.units.rounded_eq

/-- The sum of two amounts that is not too large is the exact one, rounded. -/
theorem add (hx : IsAmount x) (hy : IsAmount y) (small : rounded (units x + units y) < overflow) :
    IsAmount (x + y) ∧ units (x + y) = rounded (units x + units y) := by
  have sum : Units _ (x + y).toModel.unpack := (hx.units.add hy.units).units small
  exact ⟨isAmount_of_units sum, units_eq sum⟩

/-- The sum of two amounts is finite exactly if the exact sum, rounded, is below 2^1024. -/
theorem isFinite_add_iff (hx : IsAmount x) (hy : IsAmount y) :
    (x + y).isFinite = true ↔ rounded (units x + units y) < overflow := by
  constructor
  · intro finite
    by_contra much
    have sum : (x + y).toModel.unpack = .infinity .positive :=
      (hx.units.add hy.units).infinite (Nat.not_lt.mp much)
    exact Bool.false_ne_true ((isFinite_of_infinite sum).symm.trans finite)
  · exact fun small ↦ (hx.add hy small).1.finite

/-- What is added to infinity makes no difference. -/
theorem isFinite_of_add (hx : 0.0 ≤ x) (hy : IsAmount y) (sum : (x + y).isFinite = true) :
    x.isFinite = true := by
  cases finite : x.isFinite with
  | true => rfl
  | false =>
    have endless : UnpackedFloat.add .binary64 x.toModel.unpack y.toModel.unpack =
        .infinity .positive := by
      rw [infinite_of_zero_le hx finite]
      obtain ⟨n, amount⟩ : ∃ n, Units n y.toModel.unpack := ⟨_, hy.units⟩
      generalize y.toModel.unpack = v at amount
      cases amount <;> rfl
    have infinite : (x + y).toModel.unpack = .infinity .positive := by
      show unpack .binary64 (pack .binary64 (UnpackedFloat.add .binary64 _ _)) = _
      rw [endless]
      rfl
    exact absurd ((isFinite_of_infinite infinite).symm.trans sum) Bool.false_ne_true

/-- The difference to an amount that is not larger is not below zero. -/
theorem zero_le_sub (hx : IsAmount x) (hy : IsAmount y) (le : units y ≤ units x) : 0.0 ≤ x - y := by
  have rest : Units (rounded (units x - units y)) (x - y).toModel.unpack :=
    hx.units.sub hy.units le
  exact (isAmount_of_units rest).zero_le

/-- The difference of two amounts, floored at zero, is that of their units as natural numbers,
rounded. -/
theorem atLeastZero_sub (hx : IsAmount x) (hy : IsAmount y) :
    IsAmount (atLeastZero (x - y)) ∧ units (atLeastZero (x - y)) = rounded (units x - units y) := by
  have floor : (0.0 : Float) < x - y ↔
      UnpackedFloat.lt (.zero .positive) (x - y).toModel.unpack = true := lt_iff
  unfold atLeastZero
  rcases Nat.lt_or_ge (units x) (units y) with less | le
  · have below : Signed .negative (x - y).toModel.unpack := hx.units.sub_of_lt hy.units less
    have negative : ¬(0.0 : Float) < x - y := by
      rw [floor]
      generalize (x - y).toModel.unpack = u at below
      cases below <;> exact Bool.false_ne_true
    rw [if_neg negative, Nat.sub_eq_zero_of_le less.le, rounded_of_le (Nat.zero_le _)]
    exact ⟨zero, rfl⟩
  · have rest : Units (rounded (units x - units y)) (x - y).toModel.unpack :=
      hx.units.sub hy.units le
    split
    · exact ⟨isAmount_of_units rest, units_eq rest⟩
    · next nothing =>
      rw [floor, (Units.zero .positive).lt_iff rest, Nat.pos_iff_ne_zero, not_not] at nothing
      rw [nothing]
      exact ⟨zero, rfl⟩

/-- A number that is taken off an amount does not make it larger, be it finite or not. -/
theorem atLeastZero_sub_le (hx : IsAmount x) (hy : 0.0 ≤ y) :
    IsAmount (atLeastZero (x - y)) ∧ units (atLeastZero (x - y)) ≤ units x := by
  cases finite : y.isFinite with
  | true =>
    obtain ⟨amount, rest⟩ := hx.atLeastZero_sub ⟨finite, hy⟩
    refine ⟨amount, ?_⟩
    rw [rest]
    conv_rhs => rw [← hx.rounded_eq]
    exact rounded_mono (Nat.sub_le _ _)
  | false =>
    -- nothing is left after infinity has been taken off
    have much : y.toModel.unpack = .infinity .positive := infinite_of_zero_le hy finite
    have below : (x - y).toModel.unpack = .infinity .negative := by
      have endless : UnpackedFloat.sub .binary64 x.toModel.unpack y.toModel.unpack =
          .infinity .negative := by
        rw [much]
        obtain ⟨n, amount⟩ : ∃ n, Units n x.toModel.unpack := ⟨_, hx.units⟩
        generalize x.toModel.unpack = u at amount
        cases amount <;> rfl
      show unpack .binary64 (pack .binary64 (UnpackedFloat.sub .binary64 _ _)) = _
      rw [endless]
      rfl
    have nothing : ¬(0.0 : Float) < x - y := by
      rw [lt_iff, below]
      exact Bool.false_ne_true
    unfold atLeastZero
    rw [if_neg nothing]
    exact ⟨zero, units_zero ▸ Nat.zero_le _⟩

/-- Amounts that are not too large do not add up to infinity. -/
theorem add_le (hx : IsAmount x) (hy : IsAmount y) (most : units x ≤ n * 2 ^ k)
    (next : units y ≤ 2 ^ k) (digits : n < 2 ^ 53) (fits : (n + 1) * 2 ^ k < overflow) :
    IsAmount (x + y) ∧ units (x + y) ≤ (n + 1) * 2 ^ k := by
  have le : rounded (units x + units y) ≤ (n + 1) * 2 ^ k := by
    calc rounded (units x + units y) ≤ rounded ((n + 1) * 2 ^ k) := by
          refine rounded_mono ?_
          rw [Nat.add_mul, Nat.one_mul]
          exact Nat.add_le_add most next
      _ = (n + 1) * 2 ^ k := by rw [rounded_mul_two_pow, rounded_of_le digits]
  obtain ⟨amount, sum⟩ := hx.add hy (Nat.lt_of_le_of_lt le fits)
  exact ⟨amount, sum ▸ le⟩

end IsAmount

/-- The double of a count is an amount. -/
theorem isAmount_ofCount (n : Nat) : IsAmount (ofCount n) := isAmount_of_units (units_toFloat _)

theorem units_ofCount (h : n ≤ 2 ^ 53) : units (ofCount n) = n * one := by
  have small : n.toUInt64.toNat = n := UInt64.toNat_ofNat_of_lt' (by simp only [UInt64.size]; omega)
  rw [ofCount, units_eq (units_toFloat n.toUInt64), small, rounded_of_le h]

/-! ## Whole numbers -/

/-- A double is a whole number, and not below zero. -/
structure IsWhole (x : Float) : Prop extends IsAmount x where
  dvd : one ∣ units x

instance (x : Float) : Decidable (IsWhole x) :=
  decidable_of_iff (IsAmount x ∧ one ∣ units x)
    ⟨fun h ↦ ⟨h.1, h.2⟩, fun h ↦ ⟨h.toIsAmount, h.dvd⟩⟩

/-- 2^53 as a double. Below it all whole numbers are doubles. -/
def wholeLimit : Float := ofCount (2 ^ 53)

theorem isAmount_wholeLimit : IsAmount wholeLimit := isAmount_ofCount _

theorem units_wholeLimit : units wholeLimit = 2 ^ 53 * one := units_ofCount (Nat.le_refl _)

/-- Multiples of one are not rounded up to 2^53. -/
theorem rounded_of_dvd (whole : one ∣ n) (h : n ≤ 2 ^ 53 * one) : rounded n = n := by
  obtain ⟨k, hk⟩ := exists_eq_mul_left_of_dvd whole
  rw [hk] at h ⊢
  have small : k ≤ 2 ^ 53 := Nat.le_of_mul_le_mul_right h one_pos
  rw [one, rounded_mul_two_pow, rounded_of_le small]

namespace IsWhole

/-- A sum of whole numbers that is below 2^53 is exact. -/
theorem add (hx : IsWhole x) (hy : IsWhole y) (small : x + y < wholeLimit) :
    IsWhole (x + y) ∧ units (x + y) = units x + units y := by
  have whole : one ∣ units x + units y := Nat.dvd_add hx.dvd hy.dvd
  have finite : (x + y).isFinite = true := isFinite_of_lt (zero_le_add hx.zero_le hy.zero_le) small
  have fits := (hx.toIsAmount.isFinite_add_iff hy.toIsAmount).mp finite
  obtain ⟨amount, sum⟩ := hx.toIsAmount.add hy.toIsAmount fits
  rw [amount.lt_iff isAmount_wholeLimit, sum, units_wholeLimit] at small
  have le : units x + units y ≤ 2 ^ 53 * one := by
    -- a larger sum would be rounded to 2^53 at least
    by_contra large
    have top : rounded (2 ^ 53 * one) ≤ rounded (units x + units y) :=
      rounded_mono (Nat.le_of_not_le large)
    rw [rounded_of_dvd (Nat.dvd_mul_left _ _) (Nat.le_refl _)] at top
    exact absurd top (Nat.not_le.mpr small)
  rw [rounded_of_dvd whole le] at sum
  exact ⟨⟨amount, sum ▸ whole⟩, sum⟩

/-- The difference of whole numbers below 2^53 is exact, floored at zero. -/
theorem sub (hx : IsWhole x) (hy : IsWhole y) (small : x < wholeLimit) :
    IsWhole (atLeastZero (x - y)) ∧ units (atLeastZero (x - y)) = units x - units y := by
  have whole : one ∣ units x - units y := Nat.dvd_sub hx.dvd hy.dvd
  rw [hx.toIsAmount.lt_iff isAmount_wholeLimit, units_wholeLimit] at small
  obtain ⟨amount, rest⟩ := hx.toIsAmount.atLeastZero_sub hy.toIsAmount
  rw [rounded_of_dvd whole (Nat.le_trans (Nat.sub_le _ _) small.le)] at rest
  exact ⟨⟨amount, rest ▸ whole⟩, rest⟩

end IsWhole

end Outreach.Decimal
