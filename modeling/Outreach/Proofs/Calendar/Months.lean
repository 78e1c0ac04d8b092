import Outreach.Proofs.Calendar.Dates

/-!
# Months before

The instant a number of months before another one is that at the same time of day in the month so many
months before, on the same day of the month or, where the month is too short for it, on its last day.
It exists unless that month lies before the first one that dates are kept for.
-/

namespace Outreach.Calendar

namespace Date

variable {d e : Date} {months : Nat}

theorem one_le_daysInMonth (year : Int) (month : Nat) : 1 ≤ daysInMonth year month := by
  unfold daysInMonth
  split
  · split <;> decide
  all_goals decide

/-- A date is so many months before another one exactly if its month is, counted through all years,
and its day of the month is the same one or the last. -/
theorem minusMonths_eq_iff (begins : 1 ≤ e.month) (inYear : 1 ≤ d.month ∧ d.month ≤ 12) :
    e.minusMonths months = d ↔ 12 * d.year + d.month + months = 12 * e.year + e.month ∧
      d.day = min e.day (daysInMonth d.year d.month) := by
  obtain ⟨year, month, day⟩ := d
  dsimp only at inYear ⊢
  have place : e.monthBefore months = (year, month) ↔
      12 * year + month + months = 12 * e.year + e.month := by
    simp only [monthBefore, Prod.mk.injEq]
    omega
  rw [← place]
  simp only [minusMonths, Date.mk.injEq]
  constructor
  · rintro ⟨here, there, same⟩
    refine ⟨Prod.ext here there, ?_⟩
    rw [← same, here, there]
  · rintro ⟨here, same⟩
    rw [here]
    exact ⟨rfl, rfl, same.symm⟩

/-- There is no 31st of February. -/
example : (⟨2023, 8, 31⟩ : Date).minusMonths 6 = ⟨2023, 2, 28⟩ := by decide

theorem month_minusMonths (e : Date) (months : Nat) :
    1 ≤ (e.minusMonths months).month ∧ (e.minusMonths months).month ≤ 12 := by
  simp only [minusMonths, monthBefore]
  omega

theorem day_minusMonths (begins : 1 ≤ e.day) : 1 ≤ (e.minusMonths months).day ∧
    (e.minusMonths months).day ≤
      daysInMonth (e.minusMonths months).year (e.minusMonths months).month :=
  ⟨le_min begins (one_le_daysInMonth _ _), min_le_right _ _⟩

/-- There are instants on every day in the years that dates are kept for, from its first second to
its last. -/
theorem seconds_of_isValid (valid : d.isValid = true) :
    firstSecond ≤ d.dayNumber * 86400 ∧ d.dayNumber * 86400 + 86399 ≤ lastSecond := by
  obtain ⟨years, ⟨low, high⟩, first, last⟩ := isValid_iff.mp valid
  have most := daysInMonth_le d.year d.month
  simp only [firstYear, lastYear] at years
  simp only [firstSecond, lastSecond]
  by_cases late : d.month ≤ 2
  · rw [dayNumber_of_month_le late]
    simp only [yearStart, monthStart, epochShift]
    omega
  · rw [dayNumber_of_lt_month late]
    simp only [yearStart, monthStart, epochShift]
    omega

end Date

namespace Instant

variable {t now : Instant} {months : Nat}

/-- One instant lies a number of calendar months before another. -/
structure MonthsBefore (months : Nat) (t now : Instant) : Prop where
  /-- Its month lies so many months before, counted through all years. -/
  month : 12 * t.date.year + t.date.month + months = 12 * now.date.year + now.date.month
  /-- It is the same day of the month, or the last one of a shorter month. -/
  day : t.date.day = min now.date.day (Date.daysInMonth t.date.year t.date.month)
  time : t.secondOfDay = now.secondOfDay
  nanos : t.nanos = now.nanos

/-- The second of an instant is told by its date and the second of the day. -/
theorem secs_eq_iff {d : Date} {second : Nat} (inYear : 1 ≤ d.month ∧ d.month ≤ 12)
    (inMonth : 1 ≤ d.day ∧ d.day ≤ Date.daysInMonth d.year d.month) (inDay : second < 86400) :
    t.secs = d.dayNumber * 86400 + second ↔ t.date = d ∧ t.secondOfDay = second := by
  have split : t.secs = d.dayNumber * 86400 + second ↔
      t.dayNumber = d.dayNumber ∧ t.secondOfDay = second := by
    simp only [dayNumber, secondOfDay]
    omega
  rw [split]
  refine and_congr_left fun _ ↦ ?_
  constructor
  · intro same
    rw [date, same, Date.ofDayNumber_dayNumber inYear inMonth]
  · rintro rfl
    exact (Date.dayNumber_ofDayNumber t.dayNumber).symm

theorem minusMonths?_eq_some_iff :
    now.minusMonths? months = some t ↔ t.MonthsBefore months now := by
  obtain ⟨-, ⟨begins, -⟩, first, -⟩ := Date.isValid_iff.mp now.isValid_date
  obtain ⟨-, inYear, -⟩ := Date.isValid_iff.mp t.isValid_date
  rw [minusMonths?, ofParts?_eq_some_iff,
    secs_eq_iff (Date.month_minusMonths _ _) (Date.day_minusMonths first) now.secondOfDay_lt,
    eq_comm, Date.minusMonths_eq_iff begins inYear]
  constructor
  · rintro ⟨⟨⟨month, day⟩, time⟩, nanos⟩
    exact ⟨month, day, time, nanos⟩
  · rintro ⟨month, day, time, nanos⟩
    exact ⟨⟨⟨month, day⟩, time⟩, nanos⟩

/-- There is an instant so many months before if its month is not before the first one of all. -/
theorem exists_monthsBefore_iff : (∃ t, MonthsBefore months t now) ↔
    12 * Date.firstYear + 1 + months ≤ 12 * now.date.year + now.date.month := by
  obtain ⟨⟨-, lastYear⟩, ⟨begins, ends⟩, first, -⟩ := Date.isValid_iff.mp now.isValid_date
  constructor
  · rintro ⟨t, month, -, -, -⟩
    obtain ⟨⟨firstYear, -⟩, ⟨low, -⟩, -⟩ := Date.isValid_iff.mp t.isValid_date
    omega
  · intro after
    have inYear := Date.month_minusMonths now.date months
    have month := ((Date.minusMonths_eq_iff begins inYear).mp rfl).1
    have valid : (now.date.minusMonths months).isValid = true :=
      Date.isValid_iff.mpr ⟨⟨by omega, by omega⟩, inYear, Date.day_minusMonths first⟩
    obtain ⟨notBefore, notBehind⟩ := Date.seconds_of_isValid valid
    have inDay := now.secondOfDay_lt
    -- whole minutes lie between the two, so that a leap second stays at the end of its minute
    have fit : NanosFit ((now.date.minusMonths months).dayNumber * 86400 + now.secondOfDay)
        now.nanos := by
      have fits := now.fit
      simp only [NanosFit, secondOfDay] at fits ⊢
      omega
    exact ⟨⟨_, _, by omega, by omega, fit⟩,
      minusMonths?_eq_some_iff.mp (ofParts?_eq_some_iff.mpr ⟨rfl, rfl⟩)⟩

end Instant

end Outreach.Calendar
