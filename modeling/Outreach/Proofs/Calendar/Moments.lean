import Outreach.Proofs.Calendar.Spelling

/-!
# One moment at all offsets

A moment is the same at each offset from UTC: it has a date and a time of day there, and these, with
the offset, make the same instant. Its texts at any offset, its text without an offset, at midnight its
date alone and the number of its milliseconds therefore all spell one instant, the one that has its
date and time of day in UTC.
-/

namespace Outreach.Calendar

open Text

variable {m : Moment} {t : Instant} {offset : Int}

/-- The days of the years of four digits. -/
theorem Date.dayNumber_bounds {d : Date} (valid : d.isValid = true)
    (common : 0 ≤ d.year ∧ d.year ≤ 9999) : -719528 ≤ d.dayNumber ∧ d.dayNumber ≤ 2932896 := by
  obtain ⟨-, ⟨low, high⟩, first, last⟩ := isValid_iff.mp valid
  have most := daysInMonth_le d.year d.month
  by_cases late : d.month ≤ 2
  · rw [dayNumber_of_month_le late]
    simp only [yearStart, monthStart, epochShift]
    omega
  · rw [dayNumber_of_lt_month late]
    simp only [yearStart, monthStart, epochShift]
    omega

theorem Zone.natAbs_lt {zone : List Char} (h : Zone offset zone) : offset.natAbs < 86400 := by
  cases h <;> omega

namespace Moment

/-- The second of a moment in UTC. -/
def secs (m : Moment) : Int :=
  m.date.dayNumber * 86400 + m.time.hour * 3600 + m.time.minute * 60 + m.time.second - m.offset

/-- The milliseconds of a moment from the beginning of 1970. -/
def millis (m : Moment) : Int := m.secs * 1000 + m.time.nanos / 1000000

def elsewhere (m : Moment) (offset : Int) : Moment :=
  let second := m.secs + offset
  let ofDay := (second % 86400).toNat
  ⟨.ofDayNumber (second / 86400), ⟨ofDay / 3600, ofDay / 60 % 60, ofDay % 60, m.time.nanos⟩, offset⟩

/-- A moment to the millisecond, in a year of four digits and not in a leap second. -/
structure Common (m : Moment) : Prop extends Moment.Exists m where
  year : 0 ≤ m.date.year ∧ m.date.year ≤ 9999
  usual : m.time.second ≤ 59
  nanos : m.time.nanos < 1000000000
  millis : m.time.nanos % 1000000 = 0

/-! ## Instants of moments -/

namespace Common

theorem toInstant?_eq (h : m.Common) : m.toInstant? = Instant.ofParts? m.secs m.time.nanos := by
  have usual := h.usual
  have second : min m.time.second 59 = m.time.second := by omega
  have noLeap : ¬m.time.second = 60 := by omega
  rw [h.toExists.toInstant?_eq, second, if_neg noLeap, Nat.add_zero, secs]

/-- There are instants at all seconds of the years of four digits, and on the days around them. -/
theorem secs_bounds (h : m.Common) :
    firstSecond + 172800 ≤ m.secs ∧ m.secs ≤ lastSecond - 172800 := by
  obtain ⟨⟨date, ⟨hour, minute, second⟩, offset⟩, common, -, -, -⟩ := h
  have days := Date.dayNumber_bounds date common
  simp only [secs, firstSecond, lastSecond]
  omega

theorem exists_instant (h : m.Common) :
    ∃ t, m.toInstant? = some t ∧ t.secs = m.secs ∧ t.nanos = m.time.nanos := by
  have bounds := h.secs_bounds
  refine ⟨⟨m.secs, m.time.nanos, by omega, by omega, .inl h.nanos⟩, ?_, rfl, rfl⟩
  rw [h.toInstant?_eq]
  exact Instant.ofParts?_eq_some_iff.mpr ⟨rfl, rfl⟩

/-- The instant of a moment in UTC has its date and its time of day. -/
theorem moment_eq (h : m.Common) (utc : m.offset = 0) (value : m.toInstant? = some t) :
    t.moment = m := by
  rw [h.toInstant?_eq, Instant.ofParts?_eq_some_iff] at value
  obtain ⟨secs, nanos⟩ := value
  obtain ⟨⟨valid, ⟨hour, minute, second⟩, -⟩, common, usual, fits, -⟩ := h
  obtain ⟨date, time, offset⟩ := m
  dsimp only [Moment.secs] at *
  have day : t.dayNumber = date.dayNumber := by
    rw [Instant.dayNumber]
    omega
  have named : t.date = date := by
    rw [Instant.date, day, Date.ofDayNumber_dayNumber_of_isValid valid]
  have noLeap : ¬1000000000 ≤ t.nanos := by omega
  have clock : t.timeOfDay = time := by
    obtain ⟨hours, minutes, seconds, rest⟩ := time
    dsimp only at *
    simp only [Instant.timeOfDay, if_neg noLeap, Instant.fraction, Instant.secondOfDay,
      TimeOfDay.mk.injEq]
    omega
  rw [Instant.moment, named, clock, utc]

/-- The number of its milliseconds leads back to the instant. -/
theorem ofMillis?_millis (h : m.Common) : Instant.ofMillis? m.millis = m.toInstant? := by
  have bound := h.nanos
  have whole := h.millis
  have second : m.millis / 1000 = m.secs := by
    rw [Moment.millis]
    omega
  have rest : (m.millis % 1000).toNat * 1000000 = m.time.nanos := by
    rw [Moment.millis]
    omega
  rw [Instant.ofMillis?, second, rest, h.toInstant?_eq]

/-- So does the date of a day to its beginning. -/
theorem ofDayNumber?_dayNumber (h : m.Common) (utc : m.offset = 0) (midnight : m.time = .midnight) :
    Instant.ofDayNumber? m.date.dayNumber = m.toInstant? := by
  have second : m.secs = m.date.dayNumber * 86400 := by
    rw [Moment.secs, midnight, utc]
    dsimp only [TimeOfDay.midnight]
    omega
  rw [h.toInstant?_eq, second, midnight]
  rfl

end Common

/-! ## Other offsets -/

@[simp] theorem secs_elsewhere (m : Moment) (offset : Int) : (m.elsewhere offset).secs = m.secs := by
  simp only [secs, elsewhere, Date.dayNumber_ofDayNumber]
  omega

theorem Zoned.natAbs_offset_lt {cs : List Char} (h : m.Zoned cs) : m.offset.natAbs < 86400 := by
  obtain ⟨-, -, -, zone⟩ := h
  exact zone.natAbs_lt

namespace Common

theorem elsewhere (h : m.Common) (day : offset.natAbs < 86400)
    (year : 0 ≤ (m.elsewhere offset).date.year ∧ (m.elsewhere offset).date.year ≤ 9999) :
    (m.elsewhere offset).Common where
  date := by
    have bounds := h.secs_bounds
    refine Date.isValid_ofDayNumber ?_ ?_
    · omega
    · omega
  time := by
    constructor <;> simp only [Moment.elsewhere] <;> omega
  offset := day
  year := year
  usual := by
    simp only [Moment.elsewhere]
    omega
  nanos := h.nanos
  millis := h.millis

/-- A moment is the same instant at each offset. -/
theorem toInstant?_elsewhere (h : m.Common) (there : (m.elsewhere offset).Common) :
    (m.elsewhere offset).toInstant? = m.toInstant? := by
  rw [there.toInstant?_eq, secs_elsewhere, h.toInstant?_eq]
  rfl

/-- At its own offset a moment is told as it is. -/
theorem elsewhere_offset (h : m.Common) : m.elsewhere m.offset = m := by
  obtain ⟨⟨valid, ⟨hour, minute, second⟩, -⟩, -, usual, -, -⟩ := h
  obtain ⟨date, ⟨hours, minutes, seconds, nanos⟩, offset⟩ := m
  dsimp only at *
  have here : date.dayNumber * 86400 + hours * 3600 + minutes * 60 + seconds - offset + offset =
      date.dayNumber * 86400 + hours * 3600 + minutes * 60 + seconds := by omega
  have day : (date.dayNumber * 86400 + hours * 3600 + minutes * 60 + seconds) / 86400 =
      date.dayNumber := by omega
  simp only [Moment.elsewhere, secs, here, day, Date.ofDayNumber_dayNumber_of_isValid valid,
    Moment.mk.injEq, TimeOfDay.mk.injEq, true_and, and_true]
  omega

end Common

/-! ## Texts to the millisecond -/

/-- Date and time of day of a moment to the millisecond, without an offset. -/
def chars (m : Moment) : List Char :=
  m.date.chars ++ 'T' :: m.time.chars ++ '.' :: padded 3 (m.time.nanos / 1000000)

end Moment

/-- The hours and minutes of an offset behind its sign. -/
def zoneChars (offset : Int) : List Char :=
  (if offset < 0 then '-' else '+') ::
    padded 2 (offset.natAbs / 3600) ++ ':' :: padded 2 (offset.natAbs / 60 % 60)

theorem zone_zoneChars (day : offset.natAbs < 86400) (minutes : offset % 60 = 0) :
    Zone offset (zoneChars offset) := by
  have hours : offset.natAbs / 3600 ≤ 23 := by omega
  have rest : offset.natAbs / 60 % 60 ≤ 59 := by omega
  unfold zoneChars
  split
  · have west := Zone.west '-' (.inl rfl) _ _ hours rest
    have value : -((offset.natAbs / 3600 : Nat) * 3600 + (offset.natAbs / 60 % 60 : Nat) * 60) =
        offset := by omega
    rwa [value] at west
  · have east := Zone.east _ _ hours rest
    have value : ((offset.natAbs / 3600 : Nat) * 3600 + (offset.natAbs / 60 % 60 : Nat) * 60) =
        offset := by omega
    rwa [value] at east

namespace Moment.Common

theorem fraction_millis (h : m.Common) :
    Fraction m.time.nanos ('.' :: padded 3 (m.time.nanos / 1000000)) := by
  have bound := h.nanos
  have whole := h.millis
  refine .digits (padded_ne_nil _ _) (fun c ↦ isDigit_of_mem_padded) ?_
  rw [valueOf_padded, length_padded (by decide) (by omega)]
  omega

theorem offsetFree_chars (h : m.Common) : m.OffsetFree m.chars := .mk h.fraction_millis

theorem zoned_chars (h : m.Common) {zone : List Char} (offset : Zone m.offset zone) :
    m.Zoned (m.chars ++ zone) := .mk 'T' (.inl rfl) h.fraction_millis offset

end Moment.Common

end Outreach.Calendar
