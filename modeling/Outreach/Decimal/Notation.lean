import Outreach.Decimal.Shortest
import Outreach.Text.Numeral

/-!
# Decimal texts of doubles

How a double is written: the fewest digits that identify it, always positionally, with no point in
whole numbers. `numberText` is the form in which numbers are shown and searched: whole numbers below
10^15 as integers, so that zero has no sign.
-/

namespace Outreach.Decimal

/-- Digits laid out positionally, with zeros up to the point on either side of it. -/
def Scaled.layout (d : Scaled) : List Char :=
  let ds := Text.decimal d.digits
  if 0 ≤ d.exponent then
    if d.digits = 0 then ds else ds ++ List.replicate d.exponent.toNat '0'
  else
    let places := (-d.exponent).toNat
    let padded := Text.padLeft (places + 1) '0' ds
    padded.take (padded.length - places) ++ '.' :: padded.drop (padded.length - places)

/-- The characters of a double: its shortest digits laid out, or the name of what is not finite. -/
def displayChars (x : Float) : List Char :=
  match Binary.ofFloat? x with
  | some b => if b.negative then '-' :: b.shortest.layout else b.shortest.layout
  | none =>
    if x.isNaN then ['N', 'a', 'N']
    else if x < 0.0 then ['-', 'i', 'n', 'f'] else ['i', 'n', 'f']

def display (x : Float) : String := String.ofList (displayChars x)

/-- The characters of a number as it is shown: a whole number below 10^15 as an integer. -/
def numberChars (x : Float) : List Char :=
  match Binary.ofFloat? x with
  | some b =>
    if b.isWhole && b.floorMagnitude < 1000000000000000 then Text.decimalInt b.truncate else displayChars x
  | none => displayChars x

/-- The text of a number as it is shown. -/
def numberText (x : Float) : String := String.ofList (numberChars x)

end Outreach.Decimal
