import Mathlib.Algebra.Group.Nat.Defs
import Mathlib.Data.List.TakeWhile
import Outreach.Proofs.Taking
import Outreach.Text.Blank
import Outreach.Text.Numeral

/-!
# Numerals read back

A number that has been written in base ten or sixteen is read as the number it was, also with zeros
in front. A reader of digits that takes only so many of them stops where they have been filled up to
this width.
-/

namespace Outreach.Text

variable {c : Char} {cs ds : List Char} {width n : Nat}

/-! ## Base sixteen -/

/-- The character of a hexadecimal digit has its value. -/
theorem hexValue?_digitChar (h : n < 16) : hexValue? (Nat.digitChar n) = some n := by
  have all : ∀ d : Fin 16, hexValue? (Nat.digitChar d) = some d.val := by decide
  exact all ⟨n, h⟩

@[simp] theorem length_hexDigits (width n : Nat) : (hexDigits width n).length = width := by
  induction width generalizing n with
  | zero => rfl
  | succ width ih => simp [hexDigits, ih]

/-- The last digits of a number are read as its remainder. -/
theorem hexValueOf?_hexDigits (width n : Nat) :
    hexValueOf? (hexDigits width n) = some (n % 16 ^ width) := by
  induction width generalizing n with
  | zero => simp [hexDigits, hexValueOf?, Nat.mod_one]
  | succ width ih =>
    have last : hexValue? (Nat.digitChar (n % 16)) = some (n % 16) :=
      hexValue?_digitChar (Nat.mod_lt _ (by decide))
    have front := ih (n / 16)
    rw [hexValueOf?] at front
    rw [hexValueOf?, hexDigits, List.foldlM_append, front]
    simp [last, Nat.pow_succ', Nat.mod_mul, Nat.add_comm]

/-! ## Base ten -/

theorem isDigit_eq (c : Char) : isDigit c = c.isDigit := by
  simp [isDigit, Char.isDigit, Char.le_def]

theorem ne_of_isDigit {d : Char} (digit : isDigit d = true) (other : isDigit c = false) :
    d ≠ c := by
  rintro rfl
  rw [digit] at other
  cases other

/-- Digits are no white space. -/
theorem isBlank_of_isDigit (h : isDigit c = true) : isBlank c = false := by
  have bounds : 48 ≤ c.toNat ∧ c.toNat ≤ 57 := by
    simpa [isDigit, Char.le_def, UInt32.le_iff_toNat_le] using h
  refine Bool.eq_false_iff.mpr fun blank ↦ ?_
  simp [isBlank, blankRanges] at blank
  omega

theorem isDigit_of_mem_decimal (h : c ∈ decimal n) : isDigit c = true := by
  rw [isDigit_eq]
  exact Nat.isDigit_of_mem_toDigits (by decide) (by decide) h

/-- The digits of a number, of which there is at least one. -/
theorem exists_decimal_eq (n : Nat) :
    ∃ d ds, decimal n = d :: ds ∧ ∀ c ∈ d :: ds, isDigit c = true := by
  obtain ⟨d, ds, digits⟩ := List.exists_cons_of_ne_nil (Nat.toDigits_ne_nil (b := 10) (n := n))
  exact ⟨d, ds, digits, fun c hc ↦ isDigit_of_mem_decimal (digits ▸ hc)⟩

/-- Integers are written as Lean writes them. -/
theorem decimalInt_eq (n : Int) : decimalInt n = (toString n).toList := by
  rw [Int.toString_eq_repr, Int.repr_eq_if, decimalInt]
  split
  · have magnitude : (-n).toNat = n.natAbs := by omega
    rw [if_neg (by omega), magnitude, String.toList_append, Nat.toList_repr]
    rfl
  · have magnitude : n.toNat = n.natAbs := by omega
    rw [if_pos (by omega), magnitude, Nat.toList_repr]
    rfl

theorem isDigit_of_mem_padded (h : c ∈ padded width n) : isDigit c = true := by
  rcases List.mem_append.mp h with zero | digit
  · rw [List.eq_of_mem_replicate zero]
    decide
  · exact isDigit_of_mem_decimal digit

theorem isBlank_of_mem_padded (h : c ∈ padded width n) : isBlank c = false :=
  isBlank_of_isDigit (isDigit_of_mem_padded h)

/-- The zeros in front do not count. -/
theorem valueOf_padded (width n : Nat) : valueOf (padded width n) = n := by
  show Nat.ofDigitChars 10 (padded width n) 0 = n
  rw [padded, padLeft, Nat.ofDigitChars_append, Nat.ofDigitChars_replicate_zero, Nat.mul_zero]
  exact Nat.ofDigitChars_ten_toDigits

/-- Digits in front are worth ten times as much for each digit behind them. -/
theorem valueOf_append (ds es : List Char) :
    valueOf (ds ++ es) = 10 ^ es.length * valueOf ds + valueOf es := by
  show Nat.ofDigitChars 10 (ds ++ es) 0 = _
  rw [Nat.ofDigitChars_append, Nat.ofDigitChars_eq_ofDigitChars_zero]
  rfl

theorem valueOf_lt (digits : ∀ d ∈ ds, isDigit d = true) : valueOf ds < 10 ^ ds.length := by
  induction ds with
  | nil => decide
  | cons d ds ih =>
    have rest := ih fun e he ↦ digits e (List.mem_cons_of_mem _ he)
    have digit := digits d List.mem_cons_self
    simp only [isDigit, Bool.and_eq_true, decide_eq_true_eq, Char.le_def,
      UInt32.le_iff_toNat_le] at digit
    have bound : d.toNat ≤ 57 := digit.2
    have first : valueOf [d] ≤ 9 := by
      show 10 * 0 + (d.toNat - 48) ≤ 9
      omega
    calc valueOf (d :: ds) = 10 ^ ds.length * valueOf [d] + valueOf ds := valueOf_append [d] ds
      _ ≤ 10 ^ ds.length * 9 + valueOf ds := Nat.add_le_add_right (Nat.mul_le_mul_left _ first) _
      _ < 10 ^ ds.length * 9 + 10 ^ ds.length := Nat.add_lt_add_left rest _
      _ = 10 ^ (ds.length + 1) := by rw [Nat.pow_succ]; omega

/-- A number that has no more digits is filled up to the width. -/
theorem length_padded (positive : 0 < width) (h : n < 10 ^ width) :
    (padded width n).length = width := by
  have fits : (decimal n).length ≤ width := (Nat.length_toDigits_le_iff (by decide) positive).mpr h
  rw [padded, padLeft, List.length_append, List.length_replicate]
  omega

theorem padded_ne_nil (width n : Nat) : padded width n ≠ [] := by
  rw [padded, padLeft]
  exact List.append_ne_nil_of_right_ne_nil _ Nat.toDigits_ne_nil

/-- A padded number begins with a digit. -/
theorem stops_padded {ok : Char → Bool} (other : ∀ c, isDigit c = true → ok c = false)
    (width n : Nat) (cs : List Char) : Scan.Stops ok (padded width n ++ cs) := by
  intro c hc
  obtain ⟨d, ds, h⟩ := List.exists_cons_of_ne_nil (padded_ne_nil width n)
  rw [h] at hc
  obtain rfl : d = c := Option.some.inj hc
  exact other d (isDigit_of_mem_padded (h ▸ List.mem_cons_self))

/-! ## Readers of numerals -/

namespace Scan

/-- A reader of bounded numerals takes those that have as many digits as it takes at most. -/
theorem nat_takes (least : Nat) {most : Nat} (le : least ≤ most) (positive : 0 < most)
    (h : n < 10 ^ most) (cs : List Char) :
    Takes (nat least most) (padded most n ++ cs) n cs := by
  have length := length_padded positive h
  have front : (padded most n ++ cs).take most = padded most n := List.take_left' length
  have digits : (padded most n).takeWhile isDigit = padded most n :=
    List.takeWhile_eq_self_iff.mpr fun c hc ↦ isDigit_of_mem_padded hc
  have taken : Takes (Scan.digits least most) (padded most n ++ cs) (padded most n) cs := by
    simp only [Takes, Scan.digits, front, digits, length]
    rw [if_neg (by omega), List.drop_left' length]
  have value := taken.map valueOf
  rwa [valueOf_padded] at value

/-- A reader of numerals of any length takes all digits. -/
theorem anyNat_takes (width n : Nat) (stop : Stops isDigit cs) :
    Takes anyNat (padded width n ++ cs) n cs := by
  have all : ∀ c ∈ padded width n, isDigit c = true := fun c hc ↦ isDigit_of_mem_padded hc
  have digits : (padded width n ++ cs).takeWhile isDigit = padded width n := by
    have taken := takeWhile_takes all stop
    exact congrArg Prod.fst (Option.some.inj taken)
  have something : (padded width n).isEmpty = false :=
    List.isEmpty_eq_false_iff.mpr (padded_ne_nil width n)
  simp [Takes, anyNat, digits, something, valueOf_padded]

end Scan

end Outreach.Text
