import Outreach.Proofs.Calendar.Order

/-!
# Days of instants

A day is a stretch of instants, from its beginning until the beginning of the next one. Only the last
day has no next one.
-/

namespace Outreach.Calendar.Instant

variable {t u first last : Instant}

/-- The last day that instants are kept for. -/
def lastDate : Date := ⟨Date.lastYear, 12, 31⟩

/-- Instants are on one day if the number of their days is the same. -/
theorem date_eq_iff : t.date = u.date ↔ t.dayNumber = u.dayNumber := by
  constructor
  · intro same
    rw [← Date.dayNumber_ofDayNumber t.dayNumber, ← Date.dayNumber_ofDayNumber u.dayNumber]
    exact congrArg Date.dayNumber same
  · exact congrArg Date.ofDayNumber

theorem date_eq_lastDate_iff : t.date = lastDate ↔ t.dayNumber = lastSecond / 86400 := by
  constructor
  · intro same
    rw [← Date.dayNumber_ofDayNumber t.dayNumber]
    exact (congrArg Date.dayNumber same).trans (by decide)
  · intro same
    rw [date, same]
    decide

/-- Each day has a beginning. -/
theorem exists_dayStart (t : Instant) :
    ∃ first, ofDayNumber? t.dayNumber = some first ∧
      first.secs = t.dayNumber * 86400 ∧ first.nanos = 0 := by
  have lower := t.first_le
  have upper := t.le_last
  have fits : firstSecond ≤ t.dayNumber * 86400 ∧ t.dayNumber * 86400 ≤ lastSecond := by
    simp only [dayNumber, firstSecond, lastSecond] at *
    omega
  refine ⟨⟨t.dayNumber * 86400, 0, fits.1, fits.2, .inl (by decide)⟩, ?_, rfl, rfl⟩
  exact ofParts?_eq_some_iff.mpr ⟨rfl, rfl⟩

/-- Each day but the last has a next one, which begins when it is over. -/
theorem exists_nextDayStart (here : first.secs = t.dayNumber * 86400 ∧ first.nanos = 0)
    (more : t.date ≠ lastDate) :
    ∃ last, first.addSeconds? 86400 = some last ∧
      last.secs = (t.dayNumber + 1) * 86400 ∧ last.nanos = 0 := by
  have lower := t.first_le
  have upper := t.le_last
  rw [Ne, date_eq_lastDate_iff] at more
  have fits : firstSecond ≤ (t.dayNumber + 1) * 86400 ∧
      (t.dayNumber + 1) * 86400 ≤ lastSecond := by
    simp only [dayNumber, firstSecond, lastSecond] at *
    omega
  refine ⟨⟨(t.dayNumber + 1) * 86400, 0, fits.1, fits.2, .inl (by decide)⟩, ?_, rfl, rfl⟩
  rw [addSeconds?, if_pos (.inl (by omega)), ofParts?_eq_some_iff]
  constructor
  · show (t.dayNumber + 1) * 86400 = first.secs + 86400
    omega
  · exact here.2.symm

/-- The last day has no next one. -/
theorem addSeconds?_lastDate (here : first.secs = t.dayNumber * 86400 ∧ first.nanos = 0)
    (last : t.date = lastDate) : first.addSeconds? 86400 = none := by
  rw [date_eq_lastDate_iff] at last
  rw [addSeconds?, if_pos (.inl (by omega)), ofParts?, dif_neg]
  simp only [firstSecond, lastSecond] at *
  omega

/-- An instant is on a day if it is not before its beginning but before that of the next one, be it
in a leap second or not. -/
theorem mem_day_iff (begins : first.secs = u.dayNumber * 86400 ∧ first.nanos = 0)
    (ends : last.secs = (u.dayNumber + 1) * 86400 ∧ last.nanos = 0) :
    first ≤ t ∧ t < last ↔ t.date = u.date := by
  rw [date_eq_iff, ← le_eq_true, ← lt_eq_true, le_iff, lt_iff]
  simp only [dayNumber] at *
  omega

end Outreach.Calendar.Instant
