import Outreach.Decimal.Binary

/-!
# Shortest decimals

The decimal with the fewest digits among those that read back to a double, and of these the one
nearest to it, the larger in magnitude where two are equally near. The search walks over ever finer
grids of powers of ten and looks, on each, at the two neighbours of the value.
-/

namespace Outreach.Decimal

/-- The magnitude `digits * 10 ^ exponent`. -/
structure Scaled where
  digits : Nat
  exponent : Int
deriving DecidableEq

/-- A positive value and the ends of the interval that rounds to it, over one denominator. -/
structure Interval where
  low : Nat
  value : Nat
  high : Nat
  denominator : Nat
  closed : Bool

namespace Interval

/-- Halfway to either neighbour of a double, the ends counted in when its mantissa is even. -/
def ofBinary (b : Binary) : Interval :=
  let unit := Nat.pow 2 b.exponent.toNat
  let value := 4 * b.mantissa * unit
  { low := value - (if b.narrowBelow then unit else 2 * unit)
    value
    high := value + 2 * unit
    denominator := 4 * b.divisor
    closed := b.mantissa % 2 == 0 }

/-- A multiple of a power of ten rounds to the value. -/
def accepts (i : Interval) (d : Scaled) : Bool :=
  let point := d.digits * Nat.pow 10 d.exponent.toNat * i.denominator
  let scale := Nat.pow 10 (-d.exponent).toNat
  if i.closed then i.low * scale ≤ point && point ≤ i.high * scale
  else i.low * scale < point && point < i.high * scale

/-- The grid point next below the value, or at it. -/
def below (i : Interval) (exponent : Int) : Scaled :=
  ⟨i.value * Nat.pow 10 (-exponent).toNat / (i.denominator * Nat.pow 10 exponent.toNat), exponent⟩

/-- The value lies nearer to a grid point than to the one above it. -/
def nearer (i : Interval) (d : Scaled) : Bool :=
  2 * i.value * Nat.pow 10 (-d.exponent).toNat <
    (2 * d.digits + 1) * i.denominator * Nat.pow 10 d.exponent.toNat

/-- The neighbour of the value on one grid that rounds to it, the nearer one if both do. -/
def onGrid? (i : Interval) (exponent : Int) : Option Scaled :=
  let lower := i.below exponent
  let upper := { lower with digits := lower.digits + 1 }
  match i.accepts lower, i.accepts upper with
  | true, true => some (if i.nearer lower then lower else upper)
  | true, false => some lower
  | false, true => some upper
  | false, false => none

/-- The least power of ten above the value, approached from `guess` in at most `fuel` steps. -/
def ceiling (i : Interval) : Nat → Int → Int
  | 0, guess => guess
  | fuel + 1, guess =>
    if i.denominator * Nat.pow 10 guess.toNat ≤ i.value * Nat.pow 10 (-guess).toNat then
      i.ceiling fuel (guess + 1)
    else guess

/-- Where the search for the scale begins: below the scale by at most a few powers. -/
def guess (i : Interval) : Int :=
  ((i.value.log2 : Int) - i.denominator.log2 - 1) * 30103 / 100000

end Interval

/-- Zeros at the end of the digits moved into the exponent. -/
def Scaled.strip : Nat → Scaled → Scaled
  | 0, d => d
  | fuel + 1, d =>
    if d.digits ≠ 0 && d.digits % 10 = 0 then strip fuel ⟨d.digits / 10, d.exponent + 1⟩ else d

/-- The exact decimal of a double, with all its digits. -/
def Binary.exact (b : Binary) : Scaled :=
  ⟨b.numerator * Nat.pow 5 (-b.exponent).toNat, min b.exponent 0⟩

/-- The magnitude of a double in the fewest digits that identify it. -/
def Binary.shortest (b : Binary) : Scaled :=
  if b.mantissa = 0 then ⟨0, 0⟩
  else
    let i := Interval.ofBinary b
    let top := i.ceiling 4 i.guess
    let found := (List.range 17).findSome? fun n ↦ i.onGrid? (top - (n + 1 : Nat))
    (found.getD b.exact).strip 20

end Outreach.Decimal
