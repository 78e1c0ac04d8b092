/-!
# The exact value of a double

A finite double is an integer times a power of two. `Binary.ofFloat?` reads that pair off its bits,
and rounding, truncation and the test for a fraction are then exact integer arithmetic.
-/

namespace Outreach.Decimal

/-- The value `± mantissa * 2 ^ exponent`. -/
structure Binary where
  /-- Whether the sign bit is set, also for zero. -/
  negative : Bool
  /-- The digits, as a natural number. -/
  mantissa : Nat
  exponent : Int
  /-- The gap to the next smaller magnitude is half the gap to the next larger one. -/
  narrowBelow : Bool
deriving DecidableEq

namespace Binary

/-- The pair behind a finite double; infinities and what is not a number have none. -/
def ofFloat? (x : Float) : Option Binary :=
  let bits := x.toBits.toNat
  let biased : Nat := bits / 0x10000000000000 % 2048
  let fraction : Nat := bits % 0x10000000000000
  let negative := 0x8000000000000000 ≤ bits
  if biased = 2047 then none
  else if biased = 0 then some ⟨negative, fraction, -1074, false⟩
  else some ⟨negative, 0x10000000000000 + fraction, Int.ofNat biased - 1075, fraction == 0 && 1 < biased⟩

/-- What the mantissa has to be divided by: one, unless the exponent is negative. -/
def divisor (b : Binary) : Nat := Nat.pow 2 (-b.exponent).toNat

/-- The numerator over `divisor`. -/
def numerator (b : Binary) : Nat := b.mantissa * Nat.pow 2 b.exponent.toNat

def isWhole (b : Binary) : Bool := b.numerator % b.divisor == 0

def floorMagnitude (b : Binary) : Nat := b.numerator / b.divisor

def truncate (b : Binary) : Int :=
  if b.negative then -(b.floorMagnitude : Int) else b.floorMagnitude

/-- The magnitude rounded to the nearest whole number, halves going up. -/
def roundMagnitude (b : Binary) : Nat := (2 * b.numerator + b.divisor) / (2 * b.divisor)

end Binary

/-- The double of a natural number below 2^64. -/
def ofCount (n : Nat) : Float := n.toUInt64.toFloat

/-! ## Counts -/

/-- The sum of two counts, if 64 bits have room for it. -/
def plus? (a b : UInt64) : Option UInt64 :=
  if a.toNat + b.toNat < UInt64.size then some (a + b) else none

theorem plus?_eq_some_iff {a b c : UInt64} : plus? a b = some c ↔ a.toNat + b.toNat = c.toNat := by
  rw [plus?, Option.ite_none_right_eq_some, Option.some.injEq]
  constructor
  · rintro ⟨fits, rfl⟩
    exact ((UInt64.toNat_add a b).trans (Nat.mod_eq_of_lt fits)).symm
  · intro sum
    refine ⟨sum ▸ c.toNat_lt_size, UInt64.toNat_inj.mp ?_⟩
    rw [UInt64.toNat_add, sum, Nat.mod_eq_of_lt c.toNat_lt]

theorem plus?_eq_none_iff {a b : UInt64} : plus? a b = none ↔ UInt64.size ≤ a.toNat + b.toNat := by
  rw [plus?, ite_eq_right_iff]
  simp

/-! ## Rounding -/

/-- The nearest whole number, halves going away from zero. What is not finite stays as it is. -/
def roundWhole (x : Float) : Float :=
  match Binary.ofFloat? x with
  | none => x
  | some b =>
    if 0 ≤ b.exponent then x
    else if b.negative then -ofCount b.roundMagnitude
    else ofCount b.roundMagnitude

/-- The value rounded to two places after the point, through its hundredfold. -/
def roundCents (x : Float) : Float := roundWhole (x * 100.0) / 100.0

/-- The larger of a double and zero; zero also for what is not a number. -/
def atLeastZero (x : Float) : Float := if 0.0 < x then x else 0.0

/-- The sum of doubles, from left to right. -/
def sum (xs : List Float) : Float := xs.foldl (· + ·) 0.0

end Outreach.Decimal
