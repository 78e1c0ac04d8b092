import Outreach.Calendar.Reading
import Outreach.Json.Record

/-!
# Writing instants

The texts of instants in UTC: with as many groups of three fraction digits as are exact, and with
always three of them. Years outside of 0 to 9999 carry a sign, and a leap second is second sixty.
An instant is exchanged as its text.
-/

namespace Outreach.Calendar

open Text

/-- A year in at least four digits, with a sign where it has to be told from a common one. -/
def yearChars (year : Int) : List Char :=
  if 0 ≤ year ∧ year ≤ 9999 then padded 4 year.toNat
  else (if year < 0 then '-' else '+') :: padded 4 year.natAbs

/-- Year, month and day with hyphens between. -/
def Date.chars (d : Date) : List Char :=
  yearChars d.year ++ '-' :: padded 2 d.month ++ '-' :: padded 2 d.day

namespace Instant

/-- Hour, minute and second with colons between. -/
def clockChars (t : Instant) : List Char :=
  let s := t.secondOfDay
  let second := if 1000000000 ≤ t.nanos then 60 else s % 60
  padded 2 (s / 3600) ++ ':' :: padded 2 (s / 60 % 60) ++ ':' :: padded 2 second

/-- The nanoseconds of an instant, also of a leap second, below 10^9. -/
def fraction (t : Instant) : Nat := t.nanos % 1000000000

/-- The fraction in the fewest groups of three digits that are exact. -/
def fractionChars (t : Instant) : List Char :=
  if t.fraction = 0 then []
  else if t.fraction % 1000000 = 0 then '.' :: padded 3 (t.fraction / 1000000)
  else if t.fraction % 1000 = 0 then '.' :: padded 6 (t.fraction / 1000)
  else '.' :: padded 9 t.fraction

/-- The text of an instant, exact. -/
def text (t : Instant) : String :=
  String.ofList (t.date.chars ++ 'T' :: t.clockChars ++ t.fractionChars ++ ['Z'])

/-- The text of an instant to the millisecond. -/
def millisText (t : Instant) : String :=
  String.ofList
    (t.date.chars ++ 'T' :: t.clockChars ++ '.' :: padded 3 (t.fraction / 1000000) ++ ['Z'])

def toJson (t : Instant) : Json := .text t.text

def ofJson? (j : Json) : Option Instant := j.text?.bind ofText?

end Instant

end Outreach.Calendar
