import Outreach.Calendar.Date

/-!
# Instants

Points of time in UTC with nanoseconds, over the years that dates are kept for. A leap second is a
second that is counted twice: it is the end of its minute's last second with 10^9 nanoseconds and
more. Instants are ordered by their seconds, then by their nanoseconds.
-/

namespace Outreach.Calendar

/-- The first second that instants are kept for. -/
def firstSecond : Int := -8334601228800

/-- The last second that instants are kept for. -/
def lastSecond : Int := 8210266876799

/-- The nanoseconds fit in their second; only the last of a minute may be a leap second. -/
def NanosFit (secs : Int) (nanos : Nat) : Prop :=
  nanos < 1000000000 ∨ nanos < 2000000000 ∧ secs % 60 = 59

instance (secs : Int) (nanos : Nat) : Decidable (NanosFit secs nanos) :=
  inferInstanceAs (Decidable (_ ∨ _))

/-- A point of time. -/
structure Instant where
  /-- Seconds from the beginning of 1970, leap seconds not counted. -/
  secs : Int
  /-- Nanoseconds within the second, from 10^9 on within a leap second. -/
  nanos : Nat
  first_le : firstSecond ≤ secs
  le_last : secs ≤ lastSecond
  fit : NanosFit secs nanos
deriving DecidableEq

namespace Instant

/-- The instant with the given parts, if there is one. -/
def ofParts? (secs : Int) (nanos : Nat) : Option Instant :=
  if h : firstSecond ≤ secs ∧ secs ≤ lastSecond ∧ NanosFit secs nanos then
    some ⟨secs, nanos, h.1, h.2.1, h.2.2⟩
  else none

def epoch : Instant := ⟨0, 0, by decide, by decide, by decide⟩

/-! ## Order -/

/-- Before another instant, or the same. -/
def le (a b : Instant) : Bool := a.secs < b.secs || a.secs == b.secs && a.nanos ≤ b.nanos

def lt (a b : Instant) : Bool := a.secs < b.secs || a.secs == b.secs && a.nanos < b.nanos

def latest (a b : Instant) : Instant := if a.le b then b else a

/-! ## Arithmetic -/

/-- The instant a number of seconds later, or earlier for a negative number. A leap second is left
as its minute's last second when going forward, and as the next minute's first when going back. -/
def addSeconds? (t : Instant) (n : Int) : Option Instant :=
  if t.nanos < 1000000000 ∨ n = 0 then ofParts? (t.secs + n) t.nanos
  else if 0 < n then ofParts? (t.secs + n) (t.nanos - 1000000000)
  else ofParts? (t.secs + 1 + n) (t.nanos - 1000000000)

def succ? (t : Instant) : Option Instant :=
  if t.nanos = 999999999 ∨ t.nanos = 1999999999 then ofParts? (t.secs + 1) 0
  else ofParts? t.secs (t.nanos + 1)

/-- The instant a number of milliseconds from the beginning of 1970. -/
def ofMillis? (ms : Int) : Option Instant := ofParts? (ms / 1000) ((ms % 1000).toNat * 1000000)

/-- Milliseconds from the beginning of 1970, without their fraction. -/
def millis (t : Instant) : Int := t.secs * 1000 + t.nanos / 1000000

/-! ## Days -/

/-- The number of the day of an instant. A leap second belongs to the day that it ends. -/
def dayNumber (t : Instant) : Int := t.secs / 86400

def date (t : Instant) : Date := Date.ofDayNumber t.dayNumber

def ofDayNumber? (n : Int) : Option Instant := ofParts? (n * 86400) 0

/-- The second of the day, without regard to leap seconds. -/
def secondOfDay (t : Instant) : Nat := (t.secs % 86400).toNat

/-- The same time of day a number of months earlier, on the last day of a shorter month. -/
def minusMonths? (t : Instant) (months : Nat) : Option Instant :=
  ofParts? ((t.date.minusMonths months).dayNumber * 86400 + t.secondOfDay) t.nanos

@[ext] theorem ext {a b : Instant} (hs : a.secs = b.secs) (hn : a.nanos = b.nanos) : a = b := by
  cases a; cases b; simp_all

theorem ofParts?_eq_some_iff {secs : Int} {nanos : Nat} {t : Instant} :
    ofParts? secs nanos = some t ↔ t.secs = secs ∧ t.nanos = nanos := by
  constructor
  · intro h
    unfold ofParts? at h
    split at h
    · cases h; exact ⟨rfl, rfl⟩
    · cases h
  · rintro ⟨rfl, rfl⟩
    simp [ofParts?, t.first_le, t.le_last, t.fit]

end Instant

end Outreach.Calendar
