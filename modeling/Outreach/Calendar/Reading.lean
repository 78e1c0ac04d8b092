import Outreach.Calendar.Instant
import Outreach.Text.Blank
import Outreach.Text.Numeral

/-!
# Reading instants

Three grammars for a moment: the strict one with fixed widths and an offset from UTC, a free one
without an offset, and a relaxed one with an offset. All of them read a date and a time of day; what
the parts have to satisfy is decided in one place, `Moment.toInstant?`.
-/

namespace Outreach.Calendar

open Text

/-- A time of day as it is written. -/
structure TimeOfDay where
  hour : Nat
  minute : Nat
  /-- The second; the sixtieth is a leap second. -/
  second : Nat
  nanos : Nat
deriving DecidableEq, Repr

def TimeOfDay.midnight : TimeOfDay := ⟨0, 0, 0, 0⟩

/-- A date and a time of day at an offset from UTC. -/
structure Moment where
  date : Date
  time : TimeOfDay
  /-- The offset from UTC in seconds, positive to the east. -/
  offset : Int
deriving DecidableEq, Repr

/-- The instant of a moment, if its date and time exist and its offset is below a day. -/
def Moment.toInstant? (m : Moment) : Option Instant :=
  if m.date.isValid && m.time.hour ≤ 23 && m.time.minute ≤ 59 && m.time.second ≤ 60 &&
      m.offset.natAbs < 86400 then
    Instant.ofParts?
      (m.date.dayNumber * 86400 + m.time.hour * 3600 + m.time.minute * 60 +
        min m.time.second 59 - m.offset)
      (m.time.nanos + if m.time.second = 60 then 1000000000 else 0)
  else none

namespace Scan

open Text.Scan

/-! ## Parts -/

/-- White space, as far as it goes. -/
def blanks : Scan Unit := do let _ ← takeWhile isBlank

/-- A point and digits, of which the first nine count; or nothing. -/
def fraction : Scan Nat := do
  if ← optional (· == '.') then
    let ds ← takeWhile isDigit
    if ds.isEmpty then failure
    return valueOf (ds.take 9) * Nat.pow 10 (9 - (ds.take 9).length)
  else return 0

/-- The letter or the space between date and time. -/
def separator : Scan Unit := do let _ ← next fun c ↦ c == 'T' || c == 't' || c == ' '

/-- The sign of an offset; the mathematical minus will do. -/
def sign : Scan Int := do
  let c ← next fun c ↦ c == '+' || c == '-' || c == '−'
  return if c == '+' then 1 else -1

/-- An offset from UTC: the letter for none, or sign, hours and minutes. -/
def offset (between : Scan Unit) : Scan Int := do
  if ← optional fun c ↦ c == 'Z' || c == 'z' then return 0
  let s ← sign
  let hours ← nat 2 2
  between
  let minutes ← nat 2 2
  if 60 ≤ minutes then failure
  return s * (hours * 3600 + minutes * 60)

/-! ## The strict grammar -/

/-- Date and time of fixed widths, and an offset. -/
def strict : Scan Moment := do
  let year ← nat 4 4
  char '-'
  let month ← nat 2 2
  char '-'
  let day ← nat 2 2
  separator
  let hour ← nat 2 2
  char ':'
  let minute ← nat 2 2
  char ':'
  let second ← nat 2 2
  let nanos ← fraction
  let off ← offset (char ':')
  return ⟨⟨year, month, day⟩, ⟨hour, minute, second, nanos⟩, off⟩

/-! ## The free grammars -/

/-- A number of one or two digits behind white space or none. -/
def short : Scan Nat := do blanks; nat 1 2

/-- A year of up to four digits, or of any number of them behind a sign. -/
def year : Scan Int := do
  blanks
  if ← optional (· == '-') then return -((← anyNat : Nat) : Int)
  if ← optional (· == '+') then return ((← anyNat : Nat) : Int)
  return ((← nat 1 4 : Nat) : Int)

/-- Year, month and day; `gap` may stand in front of a hyphen. -/
def date (gap : Scan Unit) : Scan Date := do
  let y ← year
  gap; char '-'
  let m ← short
  gap; char '-'
  return ⟨y, m, ← short⟩

/-- Hour, minute and second; `gap` may stand in front of a colon. -/
def time (gap : Scan Unit) : Scan TimeOfDay := do
  let h ← short
  gap; char ':'
  let m ← short
  gap; char ':'
  let s ← short
  return ⟨h, m, s, ← fraction⟩

/-- A date alone, which is its beginning in UTC. -/
def bareDate : Scan Moment := do return ⟨← date (pure ()), .midnight, 0⟩

/-- Date and time with the capital letter between them, in UTC. -/
def offsetFree : Scan Moment := do
  let d ← date (pure ())
  char 'T'
  return ⟨d, ← time (pure ()), 0⟩

/-! ## The relaxed grammar -/

/-- The name of UTC in letters of either case. -/
def utcName : Scan Int := do
  let _ ← next fun c ↦ c == 'U' || c == 'u'
  let _ ← next fun c ↦ c == 'T' || c == 't'
  let _ ← next fun c ↦ c == 'C' || c == 'c'
  return 0

/-- What may stand between the hours and the minutes of an offset. -/
def colonsOrBlanks : Scan Unit := do let _ ← takeWhile fun c ↦ c == ':' || isBlank c

/-- Date, time and offset with white space between all parts. -/
def relaxed : Scan Moment := do
  let d ← date blanks
  separator
  let t ← time blanks
  blanks
  let off ← orElse utcName (offset colonsOrBlanks)
  blanks
  return ⟨d, t, off⟩

end Scan

namespace Instant

/-- The instant that a grammar reads from a whole text. -/
def readBy? (grammar : Scan Moment) (cs : List Char) : Option Instant :=
  (grammar.all? cs).bind Moment.toInstant?

/-- The instant of a date in a record. -/
def ofText? (s : String) : Option Instant := readBy? Scan.relaxed s.toList

/-- The instant of a text by the first grammar that accepts it: strict with an offset, free without
one, a date alone. -/
def ofSpelling? (cs : List Char) : Option Instant :=
  (readBy? Scan.strict cs).or ((readBy? Scan.offsetFree cs).or (readBy? Scan.bareDate cs))

end Instant

end Outreach.Calendar
