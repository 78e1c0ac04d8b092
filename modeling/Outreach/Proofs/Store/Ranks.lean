import Outreach.Proofs.Decimal.Whole
import Outreach.Store.Figures

/-!
# The rank of a double

Customers are put in order by what they have spent through a rank that is read off the bits of a double.
The bits of a number are its sign and its place among the numbers of this sign, counted away from zero,
and places follow magnitudes. So a number that is below another has a lower rank, be it finite or not.
-/

namespace Outreach.Decimal

open Float.Model (Format UnpackedFloat)
open Float.Model.UnpackedFloat

variable {s t : Sign} {u v : UnpackedFloat} {x y : Float}

/-! ## Places -/

/-- What the bit for the sign is worth. -/
def signBit : Sign → Nat
  | .negative => 2 ^ 63
  | .positive => 0

/-- The place of a number among those of its sign, counted away from zero. -/
def place : UnpackedFloat → Nat
  | .finite _ m e _ => (e + 1074).toNat * 2 ^ 52 + m
  | .infinity _ => 2047 * 2 ^ 52
  | _ => 0

/-- Bits are made of a sign, an exponent and a mantissa. -/
theorem toNat_eq_fields (b : BitVec Format.binary64.numBits) :
    b.toNat = signBit (Sign.ofBitVec (unpackSign b)) +
      (unpackExponent b).toNat * 2 ^ 52 + (unpackMantissa b).toNat := by
  have bits : b.toNat < 2 ^ 64 := b.isLt
  have sign := unpackSign_beq_negative b
  rw [toNat_unpackExponent, toNat_unpackMantissa]
  cases h : Sign.ofBitVec (unpackSign b) with
  | negative =>
    rw [h] at sign
    have above := of_decide_eq_true sign.symm
    simp only [signBit]
    omega
  | positive =>
    rw [h] at sign
    have below := of_decide_eq_false sign.symm
    simp only [signBit]
    omega

/-- The bits of a number are its sign and its place. -/
theorem toNat_of_signed {b : BitVec Format.binary64.numBits} (h : unpack .binary64 b = u)
    (signed : Signed s u) : b.toNat = signBit s + place u := by
  rw [toNat_eq_fields b, Nat.add_assoc]
  simp only [unpack, bias_binary64] at h
  split at h
  · next top =>
    split at h
    · next none =>
      subst h
      cases signed
      rw [top, none]
      rfl
    · next some =>
      subst h
      cases signed
  · next top =>
    split at h
    · next low =>
      split at h
      · next none =>
        subst h
        cases signed
        rw [low, none]
        rfl
      · next some =>
        subst h
        cases signed
        rw [low]
        rfl
    · next high =>
      have above : (unpackExponent b).toNat ≠ 0 := fun same ↦ high (BitVec.eq_of_toNat_eq same)
      subst h
      cases signed
      simp only [place, toNat_one_append]
      omega

/-! ## The order of places -/

/-- Digits and an exponent are those of a double. -/
def Fits (u : UnpackedFloat) : Prop :=
  ∀ s m e hm, u = .finite s m e hm → Settled m e ∧ e ≤ 971

theorem fits_unpack (b : BitVec Format.binary64.numBits) : Fits (unpack .binary64 b) :=
  fun _ _ _ _ h ↦ settled_of_unpack h

/-- Settled numbers are compared as their places, since all but those with the lowest exponent fill
their digits. -/
theorem compare_finite {m m' : Nat} {e e' : Int} (h : Settled m e) (h' : Settled m' e') :
    (compare e e').then (compare m m') =
      compare ((e + 1074).toNat * 2 ^ 52 + m) ((e' + 1074).toNat * 2 ^ 52 + m') := by
  have ⟨digits, low, full⟩ := h
  have ⟨digits', low', full'⟩ := h'
  rcases Int.lt_trichotomy e e' with less | rfl | more
  · rw [Int.compare_eq_lt.mpr less]
    exact (Nat.compare_eq_lt.mpr (by omega)).symm
  · rw [Int.compare_eq_eq.mpr rfl]
    show compare m m' = _
    rcases Nat.lt_trichotomy m m' with less | rfl | more
    · rw [Nat.compare_eq_lt.mpr less, Nat.compare_eq_lt.mpr (by omega)]
    · rw [Nat.compare_eq_eq.mpr rfl, Nat.compare_eq_eq.mpr rfl]
    · rw [Nat.compare_eq_gt.mpr more, Nat.compare_eq_gt.mpr (by omega)]
  · rw [Int.compare_eq_gt.mpr more]
    exact (Nat.compare_eq_gt.mpr (by omega)).symm

/-- Of numbers of one sign, the places are compared, in reverse if they are negative. -/
theorem compare_of_signed (hu : Signed s u) (hv : Signed s v) (fu : Fits u) (fv : Fits v) :
    u.compare v = some (match s with
      | .positive => compare (place u) (place v)
      | .negative => (compare (place u) (place v)).swap) := by
  cases hu with
  | zero =>
    cases hv with
    | zero => cases s <;> rfl
    | finite m e hm =>
      have below : compare 0 (place (.finite s m e hm)) = .lt :=
        Nat.compare_eq_lt.mpr (by simp only [place]; omega)
      cases s <;> simp only [place] at below ⊢ <;> rw [below] <;> rfl
    | infinity => cases s <;> rfl
  | finite m e hm =>
    obtain ⟨settled, high⟩ := fu s m e hm rfl
    cases hv with
    | zero =>
      have above : compare (place (.finite s m e hm)) 0 = .gt :=
        Nat.compare_eq_gt.mpr (by simp only [place]; omega)
      cases s <;> simp only [place] at above ⊢ <;> rw [above] <;> rfl
    | finite m' e' hm' =>
      obtain ⟨settled', -⟩ := fv s m' e' hm' rfl
      cases s <;> simp only [place, ← compare_finite settled settled'] <;> rfl
    | infinity =>
      have digits := settled.digits
      have below : compare (place (.finite s m e hm)) (2047 * 2 ^ 52) = .lt :=
        Nat.compare_eq_lt.mpr (by simp only [place]; omega)
      cases s <;> simp only [place] at below ⊢ <;> rw [below] <;> rfl
  | infinity =>
    cases hv with
    | zero => cases s <;> rfl
    | finite m e hm =>
      obtain ⟨settled, high⟩ := fv s m e hm rfl
      have digits := settled.digits
      have above : compare (2047 * 2 ^ 52) (place (.finite s m e hm)) = .gt :=
        Nat.compare_eq_gt.mpr (by simp only [place]; omega)
      cases s <;> simp only [place] at above ⊢ <;> rw [above] <;> rfl
    | infinity => cases s <;> rfl

/-- No place reaches beyond that of infinity. -/
theorem place_le (fu : Fits u) : place u ≤ 2047 * 2 ^ 52 := by
  cases u with
  | finite s m e hm =>
    obtain ⟨settled, high⟩ := fu s m e hm rfl
    have digits := settled.digits
    simp only [place]
    omega
  | infinity => exact Nat.le_refl _
  | zero => exact Nat.zero_le _
  | notANumber => exact Nat.zero_le _

/-- What is compared is a number. -/
theorem isNaN_of_lt (h : u.lt v = true) : u.isNaN = false ∧ v.isNaN = false := by
  cases u with
  | notANumber => cases h
  | zero | infinity | finite =>
    refine ⟨rfl, ?_⟩
    cases v with
    | notANumber => cases h
    | zero | infinity | finite => rfl

/-- Nothing positive is below anything negative. -/
theorem lt_eq_false_of_signed (hu : Signed .positive u) (hv : Signed .negative v) :
    u.lt v = false := by
  cases hu <;> cases hv <;> rfl

end Outreach.Decimal

namespace Outreach.Store

open Float.Model (UnpackedFloat)
open Float.Model.UnpackedFloat
open Decimal

variable {s : Sign} {x y : Float}

/-- The rank of a number goes up with its place if it is positive, and down if it is negative. -/
theorem floatRank_of_signed (signed : Signed s x.toModel.unpack) :
    floatRank x = match s with
      | .positive => 2 ^ 63 + place x.toModel.unpack
      | .negative => 2 ^ 63 - 1 - place x.toModel.unpack := by
  have within : place x.toModel.unpack ≤ 2047 * 2 ^ 52 := place_le (fits_unpack _)
  have bits : x.toBits.toNat = signBit s + place x.toModel.unpack :=
    toNat_of_signed (b := x.toBits.toBitVec) rfl signed
  cases s with
  | positive =>
    rw [signBit, Nat.zero_add] at bits
    simp only [floatRank, bits]
    rw [if_neg (by omega)]
    rfl
  | negative =>
    rw [signBit] at bits
    simp only [floatRank, bits]
    rw [if_pos (by omega)]
    omega

/-- A number that is below another has a lower rank. -/
theorem floatRank_lt_of_lt (h : x < y) : floatRank x < floatRank y := by
  have below := lt_iff.mp h
  have fits : Fits x.toModel.unpack := fits_unpack _
  have fits' : Fits y.toModel.unpack := fits_unpack _
  obtain ⟨number, number'⟩ := isNaN_of_lt below
  obtain ⟨s, signed⟩ := isNaN_eq_false_iff.mp number
  obtain ⟨t, signed'⟩ := isNaN_eq_false_iff.mp number'
  rw [floatRank_of_signed signed, floatRank_of_signed signed']
  have within' := place_le fits'
  cases s with
  | positive =>
    cases t with
    | positive =>
      rw [UnpackedFloat.lt, compare_of_signed signed signed' fits fits', beq_iff_eq,
        Option.some.injEq, Nat.compare_eq_lt] at below
      exact Nat.add_lt_add_left below _
    | negative =>
      rw [lt_eq_false_of_signed signed signed'] at below
      cases below
  | negative =>
    cases t with
    | positive =>
      show 2 ^ 63 - 1 - _ < 2 ^ 63 + _
      omega
    | negative =>
      rw [UnpackedFloat.lt, compare_of_signed signed signed' fits fits', beq_iff_eq,
        Option.some.injEq, Nat.compare_swap, Nat.compare_eq_lt] at below
      show 2 ^ 63 - 1 - _ < 2 ^ 63 - 1 - _
      have within := place_le fits
      omega

end Outreach.Store
