import Outreach.Text.Scan

/-!
# Numerals

Natural numbers as runs of digits: writing in base ten and sixteen with a least width, and reading
runs whose length is bounded from below and above.
-/

namespace Outreach.Text

/-! ## Writing -/

/-- The digits of a number in base ten. -/
def decimal (n : Nat) : List Char := Nat.toDigits 10 n

/-- A text brought to a least width by filling characters in front of it. -/
def padLeft (width : Nat) (fill : Char) (cs : List Char) : List Char :=
  List.replicate (width - cs.length) fill ++ cs

/-- A number in base ten with zeros in front up to a least width. -/
def padded (width n : Nat) : List Char := padLeft width '0' (decimal n)

/-- An integer in base ten, with a sign in front only where it is negative. -/
def decimalInt (n : Int) : List Char :=
  if n < 0 then '-' :: decimal n.natAbs else decimal n.natAbs

/-- The `n` last digits of a number in base sixteen, in small letters. -/
def hexDigits : Nat → Nat → List Char
  | 0, _ => []
  | n + 1, m => hexDigits n (m / 16) ++ [Nat.digitChar (m % 16)]

/-! ## Reading -/

def isDigit (c : Char) : Bool := '0' ≤ c && c ≤ '9'

def digitValue (c : Char) : Nat := c.toNat - '0'.toNat

/-- The value of a run of decimal digits. -/
def valueOf (ds : List Char) : Nat := ds.foldl (fun n d ↦ 10 * n + digitValue d) 0

/-- The value of a hexadecimal digit in letters of either case. -/
def hexValue? (c : Char) : Option Nat :=
  if isDigit c then some (digitValue c)
  else if 'a' ≤ c && c ≤ 'f' then some (c.toNat - 'a'.toNat + 10)
  else if 'A' ≤ c && c ≤ 'F' then some (c.toNat - 'A'.toNat + 10)
  else none

/-- The value of a run of hexadecimal digits. -/
def hexValueOf? (cs : List Char) : Option Nat :=
  cs.foldlM (fun n c ↦ (hexValue? c).map (16 * n + ·)) 0

namespace Scan

/-- Digits as far as they go but at most `most` of them, and at least `least`. -/
def digits (least most : Nat) : Scan (List Char) := fun cs ↦
  let ds := (cs.take most).takeWhile isDigit
  if ds.length < least then none else some (ds, cs.drop ds.length)

/-- The value of a run of digits of bounded length. -/
def nat (least most : Nat) : Scan Nat := do return valueOf (← digits least most)

/-- The value of a run of digits of any positive length. -/
def anyNat : Scan Nat := fun cs ↦
  let ds := cs.takeWhile isDigit
  if ds.isEmpty then none else some (valueOf ds, cs.drop ds.length)

end Scan

def nat? (cs : List Char) : Option Nat := Scan.anyNat.all? cs

/-- A whole text of decimal digits, behind a sign or not. -/
def int? : List Char → Option Int
  | '-' :: cs => (nat? cs).map fun n ↦ -(n : Int)
  | '+' :: cs => (nat? cs).map fun n ↦ (n : Int)
  | cs => (nat? cs).map fun n ↦ (n : Int)

end Outreach.Text
