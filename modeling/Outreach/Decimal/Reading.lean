import Outreach.Decimal.Binary
import Outreach.Text.Numeral

/-!
# Reading decimals

The double of a decimal text. `float?` accepts a sign, digits with or without a point, at least one
digit in all, and an exponent; and by name the infinities and what is not a number.
-/

namespace Outreach.Decimal

open Text

/-- The double nearest to `digits * 10 ^ exponent`. Magnitudes beyond all doubles are settled by
the number of digits before any power is computed. -/
def nearest (digits : Nat) (exponent : Int) : Float :=
  let magnitude := (decimal digits).length + exponent
  if digits = 0 then 0.0
  else if 400 < magnitude then 1.0 / 0.0
  else if magnitude < -400 then 0.0
  else if exponent < 0 then Float.ofScientific digits true exponent.natAbs
  else Float.ofScientific digits false exponent.natAbs

/-- The digits of a decimal before and after the point, and its exponent. -/
structure Literal where
  whole : List Char
  fraction : List Char
  /-- The exponent, zero if none is written. -/
  exponent : Int

/-- The double that a decimal denotes, without its sign. -/
def Literal.magnitude (l : Literal) : Float :=
  nearest (valueOf (l.whole ++ l.fraction)) (l.exponent - l.fraction.length)

/-- The exponent of a decimal: its mark, a sign or none, and digits. -/
def exponent : Scan Int := do
  let _ ← Scan.next fun c ↦ c == 'e' || c == 'E'
  if ← Scan.optional (· == '-') then return -((← Scan.anyNat : Nat) : Int)
  let _ ← Scan.optional (· == '+')
  return ((← Scan.anyNat : Nat) : Int)

/-- Digits with or without a point, at least one of them, and an exponent or none. -/
def literal : Scan Literal := do
  let whole ← Scan.takeWhile isDigit
  let fraction ← if ← Scan.optional (· == '.') then Scan.takeWhile isDigit else pure []
  if whole.isEmpty && fraction.isEmpty then failure
  let e ← Scan.orElse exponent (pure 0)
  return ⟨whole, fraction, e⟩

/-- The names of what is not finite, in small letters. -/
def special? (cs : List Char) : Option Float :=
  let small := cs.map Char.toLower
  if small = ['i', 'n', 'f'] || small = ['i', 'n', 'f', 'i', 'n', 'i', 't', 'y'] then
    some (1.0 / 0.0)
  else if small = ['n', 'a', 'n'] then some (0.0 / 0.0)
  else none

def magnitude? (cs : List Char) : Option Float :=
  (special? cs).or ((literal.all? cs).map Literal.magnitude)

/-- The double of a decimal text with a sign or none. -/
def float? : List Char → Option Float
  | '-' :: cs => (magnitude? cs).map (-·)
  | '+' :: cs => magnitude? cs
  | cs => magnitude? cs

end Outreach.Decimal
