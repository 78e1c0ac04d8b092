import Outreach.Proofs.Decimal.Counts

/-!
# Amounts that are not negative

Doubles from zero upwards are closed under sums, and as long as they are finite under products; the
difference of two of them, the second one finite, is a number. The sign is what packing into 64 bits
keeps in any case, also where a result is too large and becomes infinite.
-/

namespace Outreach.Decimal

open Float.Model (Format UnpackedFloat totalExponent)
open Float.Model.UnpackedFloat

variable {s : Sign} {u v : UnpackedFloat}

/-! ## Signs -/

/-- A number of the given sign, zeros and infinities included. -/
inductive Signed (s : Sign) : UnpackedFloat → Prop
  | zero : Signed s (.zero s)
  | finite (m : Nat) (e : Int) (hm : 0 < m) : Signed s (.finite s m e hm)
  | infinity : Signed s (.infinity s)

theorem isNaN_eq_false_iff : u.isNaN = false ↔ ∃ s, Signed s u := by
  constructor
  · intro number
    cases u with
    | notANumber => cases number
    | infinity s => exact ⟨s, .infinity⟩
    | zero s => exact ⟨s, .zero⟩
    | finite s m e hm => exact ⟨s, .finite m e hm⟩
  · rintro ⟨s, signed⟩
    cases signed <;> rfl

/-- Rounding keeps the sign. -/
theorem signed_roundWithAccuracy (s : Sign) (m : Nat) (e : Int) (a : Accuracy) :
    Signed s (roundWithAccuracy .binary64 s m e a) := by
  simp only [roundWithAccuracy]
  split
  · exact .zero
  · exact .finite _ _ _

theorem signed_round (s : Sign) (m : Nat) (e : Int) : Signed s (round .binary64 s m e) :=
  signed_roundWithAccuracy s _ _ _

/-- What is normalized is a number. -/
theorem isNaN_normalize (m e : Int) (s : Sign) : (normalize .binary64 m e s).isNaN = false := by
  rw [isNaN_eq_false_iff, UnpackedFloat.normalize]
  split
  · exact ⟨_, signed_round _ _ _⟩
  · exact ⟨s, .zero⟩
  · exact ⟨_, signed_round _ _ _⟩

/-- What is not below zero is normalized to a positive number. -/
theorem signed_normalize {m : Int} (hm : 0 ≤ m) (e : Int) :
    Signed .positive (normalize .binary64 m e .positive) := by
  rw [UnpackedFloat.normalize]
  split
  · next below =>
    rw [Int.compare_eq_lt] at below
    omega
  · exact .zero
  · exact signed_round _ _ _

/-! ## Packing and unpacking -/

section Fields

variable {x : BitVec 11} {m : BitVec 52}

theorem sign_unpackSign_packComponents (s : Sign) (x : BitVec 11) (m : BitVec 52) :
    Sign.ofBitVec (unpackSign (packComponents .binary64 s x m)) = s := by
  have bit : unpackSign (packComponents .binary64 s x m) = s.toBitVec := by
    rw [unpackSign, packComponents, BitVec.extractLsb,
      BitVec.extractLsb'_append_eq_of_le (by decide),
      BitVec.extractLsb'_append_eq_of_le (by decide)]
    cases s <;> rfl
  rw [bit]
  cases s <;> rfl

/-- The fields of a number give back a number of its sign. -/
theorem signed_unpack_packComponents (s : Sign) (h : x = -1#_ → m = 0#_) :
    Signed s (unpack .binary64 (packComponents .binary64 s x m)) := by
  simp only [unpack, unpackExponent_packComponents, unpackMantissa_packComponents,
    sign_unpackSign_packComponents]
  split
  · next top =>
    rw [if_pos (h top)]
    exact .infinity
  · split
    · split
      · exact .zero
      · exact .finite _ _ _
    · exact .finite _ _ _

/-- Below the highest exponent the fields give back a finite number. -/
theorem isFinite_unpack_packComponents (s : Sign) (h : x ≠ -1#_) :
    (unpack .binary64 (packComponents .binary64 s x m)).isFinite = true := by
  simp only [unpack, unpackExponent_packComponents, if_neg h]
  split
  · split <;> rfl
  · rfl

end Fields

theorem bias_binary64 : Format.binary64.exponentBias = 1023 := by decide

/-- An exponent that fits is not the highest one, which is kept for infinities. -/
theorem ofNat_exponent_ne {n : Nat} (h : n + 1 < 2048) : BitVec.ofNat 11 n ≠ -1#_ := by
  intro top
  have top' := congrArg BitVec.toNat top
  simp at top'
  omega

/-- Packing keeps the sign. -/
theorem Signed.unpack_pack (h : Signed s u) : Signed s (unpack .binary64 (pack .binary64 u)) := by
  cases h with
  | zero => exact signed_unpack_packComponents s fun _ ↦ rfl
  | infinity => exact signed_unpack_packComponents s fun _ ↦ rfl
  | finite m e hm =>
    simp only [pack, bias_binary64]
    split
    · exact signed_unpack_packComponents s fun _ ↦ rfl
    · next small =>
      split
      · refine signed_unpack_packComponents s fun top ↦ absurd top (ofNat_exponent_ne ?_)
        exact Nat.not_le.mp small
      · exact signed_unpack_packComponents s fun top ↦ absurd top (by decide)

/-- A finite number that is not too large stays finite. -/
theorem isFinite_unpack_pack {m : Nat} {e : Int} {hm : 0 < m} (he : e ≤ 971) :
    (unpack .binary64 (pack .binary64 (.finite s m e hm))).isFinite = true := by
  simp only [pack, bias_binary64]
  split
  · next large =>
    simp only [Nat.reducePow] at large
    omega
  · next small =>
    split
    · exact isFinite_unpack_packComponents s (ofNat_exponent_ne (Nat.not_le.mp small))
    · exact isFinite_unpack_packComponents s (by decide)

theorem isNaN_unpack_pack (h : u.isNaN = false) :
    (unpack .binary64 (pack .binary64 u)).isNaN = false := by
  obtain ⟨s, signed⟩ := isNaN_eq_false_iff.mp h
  exact isNaN_eq_false_iff.mpr ⟨s, signed.unpack_pack⟩

/-! ## From zero upwards -/

/-- Not below zero: a positive number, or the negative zero. -/
inductive NonNegative : UnpackedFloat → Prop
  | positive {u : UnpackedFloat} (h : Signed .positive u) : NonNegative u
  | negativeZero : NonNegative (.zero .negative)

theorem NonNegative.zero (s : Sign) : NonNegative (.zero s) := by
  cases s with
  | negative => exact .negativeZero
  | positive => exact .positive .zero

theorem NonNegative.isNaN (h : NonNegative u) : u.isNaN = false := by
  cases h with
  | positive signed => exact isNaN_eq_false_iff.mpr ⟨_, signed⟩
  | negativeZero => rfl

theorem NonNegative.unpack_pack (h : NonNegative u) :
    NonNegative (unpack .binary64 (pack .binary64 u)) := by
  cases h with
  | positive h => exact .positive h.unpack_pack
  | negativeZero => exact .negativeZero

/-- What the comparison with zero means. -/
theorem zero_le_iff {u : UnpackedFloat} :
    UnpackedFloat.le (.zero .positive) u = true ↔ NonNegative u := by
  constructor
  · intro above
    cases u with
    | notANumber => cases above
    | infinity s =>
      cases s with
      | negative => cases above
      | positive => exact .positive .infinity
    | zero s => exact .zero s
    | finite s m e hm =>
      cases s with
      | negative => cases above
      | positive => exact .positive (.finite m e hm)
  · intro amount
    cases amount with
    | positive signed => cases signed <;> rfl
    | negativeZero => rfl

/-- What is negative is at most what is not below zero. -/
theorem Signed.le (hu : Signed .negative u) (hv : NonNegative v) : u.le v = true := by
  rcases hv with ⟨⟨⟩ | ⟨m, e, hm⟩ | ⟨⟩⟩ | ⟨⟩ <;> cases hu <;> rfl

theorem NonNegative.add (hu : NonNegative u) (hv : NonNegative v) :
    NonNegative (add .binary64 u v) := by
  rcases hu with ⟨⟨⟩ | ⟨m, e, hm⟩ | ⟨⟩⟩ | ⟨⟩ <;> rcases hv with ⟨⟨⟩ | ⟨m', e', hm'⟩ | ⟨⟩⟩ | ⟨⟩
  -- two finite numbers that are not zero are added by their digits
  case positive.finite.positive.finite =>
    refine .positive (signed_normalize ?_ _)
    exact Int.add_nonneg (Int.natCast_nonneg _) (Int.natCast_nonneg _)
  -- otherwise the sum is one of both, or zero
  all_goals first
    | exact .zero _
    | exact .positive .infinity
    | exact .positive (.finite _ _ _)

theorem NonNegative.mul (hu : NonNegative u) (hv : NonNegative v)
    (fu : u.isFinite = true) (fv : v.isFinite = true) : NonNegative (mul .binary64 u v) := by
  rcases hu with ⟨⟨⟩ | ⟨m, e, hm⟩ | ⟨⟩⟩ | ⟨⟩ <;> rcases hv with ⟨⟨⟩ | ⟨m', e', hm'⟩ | ⟨⟩⟩ | ⟨⟩
  case positive.finite.positive.finite => exact .positive (signed_roundWithAccuracy _ _ _ _)
  -- a zero on one side makes the product zero, and infinities are excluded
  all_goals first
    | exact .zero _
    | exact absurd fu Bool.false_ne_true
    | exact absurd fv Bool.false_ne_true

/-- A difference is a number unless both sides are infinite. -/
theorem isNaN_sub_of_isFinite (hu : u.isNaN = false) (fv : v.isFinite = true) :
    (sub .binary64 u v).isNaN = false := by
  cases u <;> cases v
  case notANumber.notANumber | notANumber.infinity | notANumber.zero | notANumber.finite => cases hu
  case finite.finite => exact isNaN_normalize _ _ _
  case zero.zero =>
    simp only [sub]
    split <;> rfl
  all_goals first
    | rfl
    | exact absurd fv Bool.false_ne_true

/-! ## Comparison -/

theorem compare_swap (u v : UnpackedFloat) : v.compare u = (u.compare v).map Ordering.swap := by
  have digits (e e' : Int) (m m' : Nat) :
      (compare e' e).then (compare m' m) = ((compare e e').then (compare m m')).swap := by
    rw [Ordering.swap_then, Int.compare_swap, Nat.compare_swap]
  rcases u with ⟨_ | _⟩ | _ | s | ⟨_ | _, m, e, hm⟩ <;>
    rcases v with ⟨_ | _⟩ | _ | t | ⟨_ | _, m', e', hm'⟩
  -- of two finite numbers of one sign the digits are compared
  case finite.negative.finite.negative | finite.positive.finite.positive =>
    simp only [UnpackedFloat.compare, digits e e', Option.map_some]
  all_goals rfl

theorem compare_isSome (hu : u.isNaN = false) (hv : v.isNaN = false) :
    (u.compare v).isSome = true := by
  obtain ⟨s, su⟩ := isNaN_eq_false_iff.mp hu
  obtain ⟨t, tv⟩ := isNaN_eq_false_iff.mp hv
  cases s <;> cases t <;> cases su <;> cases tv <;> rfl

/-- Of two numbers, one is below the other exactly if the other is not at most it. -/
theorem lt_eq_not_le (hu : u.isNaN = false) (hv : v.isNaN = false) : u.lt v = !v.le u := by
  obtain ⟨o, compared⟩ := Option.isSome_iff_exists.mp (compare_isSome hu hv)
  rw [UnpackedFloat.lt, UnpackedFloat.le, compare_swap u v, compared]
  cases o <;> rfl

/-! ## Doubles -/

variable {x y : Float}

theorem le_iff : x ≤ y ↔ UnpackedFloat.le x.toModel.unpack y.toModel.unpack = true :=
  decide_eq_true_iff

theorem lt_iff : x < y ↔ UnpackedFloat.lt x.toModel.unpack y.toModel.unpack = true :=
  decide_eq_true_iff

theorem zero_le_iff_nonNegative : 0.0 ≤ x ↔ NonNegative x.toModel.unpack := by
  have zero : (0.0 : Float).toModel.unpack = .zero .positive := rfl
  rw [le_iff, zero, zero_le_iff]

/-- What is at least zero is a number. -/
theorem isNaN_of_zero_le (h : 0.0 ≤ x) : x.isNaN = false :=
  (zero_le_iff_nonNegative.mp h).isNaN

/-- What is finite is a number. -/
theorem isNaN_of_isFinite (h : x.isFinite = true) : x.isNaN = false := by
  have finite : x.toModel.unpack.isFinite = true := h
  show x.toModel.unpack.isNaN = false
  generalize x.toModel.unpack = u at finite
  cases u
  case notANumber => cases finite
  all_goals rfl

/-- Of two numbers, one that is not below the other is at least it. -/
theorem le_of_not_lt (hx : x.isNaN = false) (hy : y.isNaN = false) (h : ¬ x < y) : y ≤ x := by
  rw [lt_iff, lt_eq_not_le hx hy, Bool.not_eq_true, Bool.not_eq_false'] at h
  exact le_iff.mpr h

theorem le_of_lt (h : x < y) : x ≤ y := by
  rw [lt_iff, UnpackedFloat.lt, beq_iff_eq] at h
  rw [le_iff, UnpackedFloat.le, h]
  rfl

/-- What is floored at zero is not below it, whatever it was. -/
theorem zero_le_atLeastZero (x : Float) : 0.0 ≤ atLeastZero x := by
  unfold atLeastZero
  split
  · next above => exact le_of_lt above
  · decide

/-- Sums of what is at least zero are. -/
theorem zero_le_add (hx : 0.0 ≤ x) (hy : 0.0 ≤ y) : 0.0 ≤ x + y := by
  rw [zero_le_iff_nonNegative] at hx hy ⊢
  exact (hx.add hy).unpack_pack

theorem zero_le_sum {xs : List Float} (h : ∀ x ∈ xs, 0.0 ≤ x) : 0.0 ≤ sum xs := by
  have upwards (a : Float) (ha : 0.0 ≤ a) : 0.0 ≤ xs.foldl (· + ·) a := by
    induction xs generalizing a with
    | nil => exact ha
    | cons x xs ih =>
      exact ih (fun y hy ↦ h y (List.mem_cons_of_mem _ hy)) (a + x)
        (zero_le_add ha (h x List.mem_cons_self))
  exact upwards 0.0 (zero_le_iff_nonNegative.mpr (.zero .positive))

/-- Products of what is finite and at least zero are at least zero, if perhaps infinite. -/
theorem zero_le_mul (hx : 0.0 ≤ x) (hy : 0.0 ≤ y) (fx : x.isFinite = true)
    (fy : y.isFinite = true) : 0.0 ≤ x * y := by
  rw [zero_le_iff_nonNegative] at hx hy ⊢
  exact (hx.mul hy fx fy).unpack_pack

/-- The difference between a number and a finite one is a number. -/
theorem isNaN_sub (hx : x.isNaN = false) (fy : y.isFinite = true) : (x - y).isNaN = false :=
  isNaN_unpack_pack (isNaN_sub_of_isFinite hx fy)

theorem isNaN_abs (hx : x.isNaN = false) : x.abs.isNaN = false := by
  refine isNaN_unpack_pack ?_
  obtain ⟨s, signed⟩ := isNaN_eq_false_iff.mp hx
  generalize x.toModel.unpack = u at signed
  cases signed <;> rfl

/-! ## Counts -/

theorem exponent_shiftToTargetExponent (m : Nat) (e : Int) :
    (shiftToTargetExponent .binary64 m e .exact).2 =
      max e (Format.binary64.targetExponent (totalExponent m e)) := by
  simp only [shiftToTargetExponent, shiftToExponent]
  omega

/-- Rounding makes a mantissa larger by one at most. -/
theorem roundedMantissa_le (m : ExtendedMantissa) : m.roundedMantissa ≤ m.mantissa + 1 := by
  unfold ExtendedMantissa.roundedMantissa
  rcases m.accuracy with _ | _ | _ | _ <;> simp only [Accuracy.roundToNearestEven] <;> omega

/-- Of a mantissa that has not more than 53 digits, rounded up perhaps, the shift raises the
exponent by one at most. -/
theorem exponent_shiftToTargetExponent_le {m : Nat} {e : Int} (digits : m ≤ 2 ^ 53)
    (he : -1074 ≤ e) : (shiftToTargetExponent .binary64 m e .exact).2 ≤ e + 1 := by
  have top : m.log2 ≤ 53 := by
    rw [Nat.log2_eq_log_two]
    exact Nat.log_mono_right digits |>.trans_eq (Nat.log_pow (by decide) 53)
  rw [exponent_shiftToTargetExponent]
  simp only [Format.targetExponent, totalExponent, Format.mantissaBits, minExponent_binary64]
  omega

/-- Numbers whose first digit is not too far up have small exponents after rounding. -/
theorem exponent_roundWithAccuracy_le {b m m' : Nat} {e e' : Int} {s' : Sign} {hm' : 0 < m'}
    (he : e ≤ b) (top : totalExponent m e ≤ b + 53)
    (h : roundWithAccuracy .binary64 s m e .exact = .finite s' m' e' hm') : e' ≤ b + 1 := by
  have digits := mantissa_shiftToTargetExponent_lt m e
  have exponent := exponent_shiftToTargetExponent m e
  unfold roundWithAccuracy at h
  generalize shiftToTargetExponent .binary64 m e .exact = first at h digits exponent
  obtain ⟨em, e₁⟩ := first
  have low : -1074 ≤ e₁ ∧ e₁ ≤ b := by
    simp only [Format.targetExponent, Format.mantissaBits, minExponent_binary64] at exponent
    omega
  have rounded : em.roundedMantissa ≤ 2 ^ 53 := Nat.le_trans (roundedMantissa_le em) digits
  have raised := exponent_shiftToTargetExponent_le rounded low.1
  dsimp only at h
  split at h
  · cases h
  · cases h
    omega

/-- A positive whole number is moved to the left before it is rounded. -/
theorem ofNat_eq_roundWithAccuracy {n : Nat} (hn : 0 < n) :
    ∃ k : Nat, ofNat .binary64 n =
      roundWithAccuracy .binary64 .positive (n <<< k) (0 - k) .exact := by
  have above : compare (n : Int) 0 = .gt := Int.compare_eq_gt.mpr (Int.natCast_pos.mpr hn)
  simp only [ofNat, ofInt, UnpackedFloat.normalize, above, Int.toNat_natCast, UnpackedFloat.round,
    decreaseExponent]
  exact ⟨_, rfl⟩

/-- Moving a number to the left leaves its first digit where it is. -/
theorem totalExponent_shiftLeft_le {n b : Nat} (k : Nat) (hn : n < 2 ^ b) (pos : 0 < n) :
    totalExponent (n <<< k) (0 - k) ≤ b := by
  have moved : n <<< k < 2 ^ (b + k) := by
    rw [Nat.shiftLeft_eq, Nat.pow_add]
    exact Nat.mul_lt_mul_of_pos_right hn (Nat.two_pow_pos k)
  have nonzero : n <<< k ≠ 0 := by
    rw [Nat.shiftLeft_eq]
    exact Nat.mul_ne_zero (Nat.ne_of_gt pos) (Nat.ne_of_gt (Nat.two_pow_pos k))
  have digits := (Nat.log2_lt nonzero).mpr moved
  rw [totalExponent]
  omega

/-- A count is not too large for a double. -/
theorem isFinite_toFloat (n : UInt64) : n.toFloat.isFinite = true := by
  show (unpack .binary64 (pack .binary64 (ofNat .binary64 n.toNat))).isFinite = true
  rcases Nat.eq_zero_or_pos n.toNat with none | some
  · rw [none]
    rfl
  · obtain ⟨k, rounded⟩ := ofNat_eq_roundWithAccuracy some
    have top := totalExponent_shiftLeft_le k n.toNat_lt some
    have range := inRange_ofNat some
    rw [rounded] at range ⊢
    generalize h : roundWithAccuracy .binary64 .positive (n.toNat <<< k) (0 - k) .exact = u at range
    obtain ⟨s, m, e, hm, -, -⟩ := range
    have small := exponent_roundWithAccuracy_le (b := 11) (by omega) (by omega) h
    exact isFinite_unpack_pack (by omega)

/-- A count is at least zero. -/
theorem zero_le_toFloat (n : UInt64) : 0.0 ≤ n.toFloat := by
  rw [zero_le_iff_nonNegative]
  exact (NonNegative.positive (signed_normalize (Int.natCast_nonneg _) 0)).unpack_pack

end Outreach.Decimal
