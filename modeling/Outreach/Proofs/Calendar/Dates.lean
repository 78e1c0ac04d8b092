import Mathlib.Tactic.IntervalCases
import Outreach.Calendar.Instant

/-!
# Dates of days

The day with a number is a day of the calendar: its month is one of the twelve, and it is not behind
the last day of its month, which for February depends on the year. A day on which there is an instant
also lies in the years that dates are kept for. Every day of the calendar is the day with its number.
-/

namespace Outreach.Calendar

namespace Date

theorem isValid_iff {d : Date} :
    d.isValid = true ↔ (firstYear ≤ d.year ∧ d.year ≤ lastYear) ∧ (1 ≤ d.month ∧ d.month ≤ 12) ∧
      1 ≤ d.day ∧ d.day ≤ daysInMonth d.year d.month := by
  simp [isValid, and_assoc]

theorem daysInMonth_le (year : Int) (month : Nat) : daysInMonth year month ≤ 31 := by
  unfold daysInMonth
  split
  · split <;> decide
  all_goals decide

variable {year inYear : Int}

/-- A year from March is longer by a day if its February belongs to a leap year. -/
theorem yearStart_succ (year : Int) :
    yearStart (year + 1) = yearStart year + if isLeapYear (year + 1) then 366 else 365 := by
  by_cases leap : isLeapYear (year + 1) = true
  · rw [if_pos leap]
    simp only [isLeapYear, Bool.and_eq_true, Bool.or_eq_true, beq_iff_eq, bne_iff_ne] at leap
    simp only [yearStart]
    omega
  · rw [if_neg leap]
    simp only [isLeapYear, Bool.and_eq_true, Bool.or_eq_true, beq_iff_eq, bne_iff_ne] at leap
    simp only [yearStart]
    omega

/-! ## Days of a year from March -/

/-- From March to December the year is the one that began in March. -/
theorem ofMarch_of_lt (h : inYear < 306) :
    ofMarch year inYear = ⟨year, (marchMonth inYear + 3).toNat,
      (inYear - monthStart (marchMonth inYear) + 1).toNat⟩ :=
  if_pos (by simp only [marchMonth]; omega)

/-- January and February belong to the next year. -/
theorem ofMarch_of_le (h : 306 ≤ inYear) :
    ofMarch year inYear = ⟨year + 1, (marchMonth inYear - 9).toNat,
      (inYear - monthStart (marchMonth inYear) + 1).toNat⟩ :=
  if_neg (by simp only [marchMonth]; omega)

theorem month_ofMarch (h : 0 ≤ inYear ∧ inYear < 366) :
    1 ≤ (ofMarch year inYear).month ∧ (ofMarch year inYear).month ≤ 12 := by
  have months : 0 ≤ marchMonth inYear ∧ marchMonth inYear ≤ 11 := by
    simp only [marchMonth]
    omega
  rcases Int.lt_or_le inYear 306 with early | late
  · have before : marchMonth inYear < 10 := by
      simp only [marchMonth]
      omega
    rw [ofMarch_of_lt early]
    dsimp only
    omega
  · have behind : 10 ≤ marchMonth inYear := by
      simp only [marchMonth]
      omega
    rw [ofMarch_of_le late]
    dsimp only
    omega

theorem one_le_day_ofMarch (year inYear : Int) : 1 ≤ (ofMarch year inYear).day := by
  have begun : monthStart (marchMonth inYear) ≤ inYear := by
    simp only [monthStart, marchMonth]
    omega
  rcases Int.lt_or_le inYear 306 with early | late
  · rw [ofMarch_of_lt early]
    dsimp only
    omega
  · rw [ofMarch_of_le late]
    dsimp only
    omega

/-- A day of a year from March is not behind the last day of its month. -/
theorem day_ofMarch_le (h : 0 ≤ inYear) (ends : yearStart year + inYear < yearStart (year + 1)) :
    (ofMarch year inYear).day ≤
      daysInMonth (ofMarch year inYear).year (ofMarch year inYear).month := by
  rw [yearStart_succ] at ends
  obtain ⟨month, here⟩ : ∃ m, m = marchMonth inYear := ⟨_, rfl⟩
  have span : 153 * month ≤ 5 * inYear + 2 ∧ 5 * inYear + 2 < 153 * (month + 1) := by
    simp only [here, marchMonth]
    omega
  -- all months but February have a fixed length, which the days in front of them tell
  rcases Int.lt_or_le inYear 306 with early | late
  · have bounds : 0 ≤ month ∧ month < 10 := by omega
    obtain ⟨low, high⟩ := bounds
    rw [ofMarch_of_lt early, ← here]
    interval_cases month <;> simp [daysInMonth, monthStart] <;> omega
  · have bounds : 10 ≤ month ∧ month < 12 := by
      by_cases leap : isLeapYear (year + 1) = true
      · rw [if_pos leap] at ends
        omega
      · rw [if_neg leap] at ends
        omega
    obtain ⟨low, high⟩ := bounds
    rw [ofMarch_of_le late, ← here]
    interval_cases month
    · simp [daysInMonth, monthStart]
      omega
    · by_cases leap : isLeapYear (year + 1) = true
      · rw [if_pos leap] at ends
        simp [daysInMonth, monthStart, leap]
        omega
      · rw [if_neg leap] at ends
        simp [daysInMonth, monthStart, leap]
        omega

/-! ## Days with instants -/

/-- A year that begins before another one has begun a year earlier. -/
theorem yearStart_lt {y z : Int} (h : y < z) : yearStart (y + 1) ≤ yearStart z := by
  rcases Int.lt_or_eq_of_le (Int.add_one_le_of_lt h) with before | same
  · simp only [yearStart]
    omega
  · rw [same]

/-- A day in the years that dates are kept for is in one of them. -/
theorem year_ofMarch (h : 0 ≤ inYear) (ends : yearStart year + inYear < yearStart (year + 1))
    (first : yearStart (firstYear - 1) + 306 ≤ yearStart year + inYear)
    (last : yearStart year + inYear < yearStart lastYear + 306) :
    firstYear ≤ (ofMarch year inYear).year ∧ (ofMarch year inYear).year ≤ lastYear := by
  have notBefore : firstYear - 1 ≤ year := by
    by_contra before
    have := yearStart_lt (Int.not_le.mp before)
    omega
  have notBehind : year ≤ lastYear := by
    by_contra behind
    have := yearStart_lt (Int.not_le.mp behind)
    have := yearStart_succ lastYear
    split at this <;> omega
  rcases Int.lt_or_le inYear 306 with early | late
  · have other : year ≠ firstYear - 1 := by
      rintro rfl
      omega
    rw [ofMarch_of_lt early]
    dsimp only
    omega
  · have other : year ≠ lastYear := by
      rintro rfl
      omega
    rw [ofMarch_of_le late]
    dsimp only
    omega

/-- The date of a day on which there are instants exists. -/
theorem isValid_ofDayNumber {n : Int} (first : firstSecond ≤ n * 86400)
    (last : n * 86400 ≤ lastSecond) : (ofDayNumber n).isValid = true := by
  obtain ⟨begun, ends⟩ := marchYear_spans (n + epochShift)
  have length := yearStart_succ_le (marchYear (n + epochShift))
  have bounds : yearStart (firstYear - 1) + 306 ≤ n + epochShift ∧
      n + epochShift < yearStart lastYear + 306 := by
    simp only [firstSecond, lastSecond, epochShift, yearStart, firstYear, lastYear] at *
    omega
  rw [ofDayNumber]
  exact isValid_iff.mpr ⟨year_ofMarch (by omega) (by omega) (by omega) (by omega),
    month_ofMarch (by omega), one_le_day_ofMarch _ _, day_ofMarch_le (by omega) (by omega)⟩

/-! ## Naming undoes numbering -/

/-- A day lies in one year from March only. -/
theorem marchYear_eq (begins : 0 ≤ inYear) (ends : yearStart year + inYear < yearStart (year + 1)) :
    marchYear (yearStart year + inYear) = year := by
  obtain ⟨begun, more⟩ := marchYear_spans (yearStart year + inYear)
  rcases Int.lt_trichotomy (marchYear (yearStart year + inYear)) year with before | here | behind
  · have := yearStart_lt before
    omega
  · exact here
  · have := yearStart_lt behind
    omega

theorem ofDayNumber_ofMarch (begins : 0 ≤ inYear)
    (ends : yearStart year + inYear < yearStart (year + 1)) :
    ofDayNumber (yearStart year + inYear - epochShift) = ofMarch year inYear := by
  have number : yearStart year + inYear - epochShift + epochShift = yearStart year + inYear := by
    omega
  have rest : yearStart year + inYear - yearStart year = inYear := by omega
  simp only [ofDayNumber, number, marchYear_eq begins ends, rest]

theorem marchMonth_eq {month : Int} (begun : monthStart month ≤ inYear)
    (more : inYear < monthStart (month + 1)) : marchMonth inYear = month := by
  simp only [monthStart] at begun more
  simp only [marchMonth]
  omega

/-- From March to December a date is the day of the year from March that it is numbered by. -/
theorem ofMarch_early {month day : Nat} (early : 3 ≤ month ∧ month ≤ 12)
    (here : 1 ≤ day ∧ (day : Int) ≤ monthStart (month - 3 + 1) - monthStart (month - 3)) :
    ofMarch year (monthStart (month - 3) + (day - 1)) = ⟨year, month, day⟩ := by
  have last : monthStart (month - 3 + 1) ≤ 306 := by
    simp only [monthStart]
    omega
  have same : marchMonth (monthStart (month - 3) + (day - 1)) = month - 3 :=
    marchMonth_eq (by omega) (by omega)
  rw [ofMarch_of_lt (by omega), same, Date.mk.injEq]
  omega

/-- In January and February a date is a day of the year from March before. -/
theorem ofMarch_late {month day : Nat} (late : 1 ≤ month ∧ month ≤ 2)
    (here : 1 ≤ day ∧ (day : Int) ≤ monthStart (month + 9 + 1) - monthStart (month + 9)) :
    ofMarch (year - 1) (monthStart (month + 9) + (day - 1)) = ⟨year, month, day⟩ := by
  have first : 306 ≤ monthStart (month + 9) := by
    simp only [monthStart]
    omega
  have same : marchMonth (monthStart (month + 9) + (day - 1)) = month + 9 :=
    marchMonth_eq (by omega) (by omega)
  rw [ofMarch_of_le (by omega), same, Date.mk.injEq]
  omega

/-- A day of the calendar is one of a year from March. -/
theorem exists_ofMarch {d : Date} (months : 1 ≤ d.month ∧ d.month ≤ 12)
    (days : 1 ≤ d.day ∧ d.day ≤ daysInMonth d.year d.month) :
    ∃ year inYear, 0 ≤ inYear ∧ yearStart year + inYear < yearStart (year + 1) ∧
      ofMarch year inYear = d := by
  obtain ⟨low, high⟩ := months
  obtain ⟨first, last⟩ := days
  obtain ⟨year, month, day⟩ := d
  dsimp only at low high first last
  by_cases late : month ≤ 2
  · have here : year - 1 + 1 = year := by omega
    have length := yearStart_succ (year - 1)
    rw [here] at length
    -- only the length of February depends on the year
    have fits : (day : Int) ≤ monthStart (month + 9 + 1) - monthStart (month + 9) ∧
        monthStart (month + 9) + day ≤ if isLeapYear year then 366 else 365 := by
      by_cases leap : isLeapYear year = true <;> interval_cases month <;>
        simp [daysInMonth, leap] at last <;> simp [monthStart, leap] <;> omega
    refine ⟨year - 1, monthStart (month + 9) + (day - 1), ?_, ?_,
      ofMarch_late ⟨low, late⟩ ⟨first, fits.1⟩⟩
    · simp only [monthStart]
      omega
    · rw [here]
      omega
  · have length := yearStart_succ year
    have fits : (day : Int) ≤ monthStart (month - 3 + 1) - monthStart (month - 3) ∧
        monthStart (month - 3) + day ≤ 306 := by
      interval_cases month <;> simp [daysInMonth] at last <;> simp [monthStart] <;> omega
    refine ⟨year, monthStart (month - 3) + (day - 1), ?_, ?_,
      ofMarch_early ⟨by omega, high⟩ ⟨first, fits.1⟩⟩
    · simp only [monthStart]
      omega
    · split at length <;> omega

/-- Naming undoes numbering, in all years. -/
theorem ofDayNumber_dayNumber {d : Date} (months : 1 ≤ d.month ∧ d.month ≤ 12)
    (days : 1 ≤ d.day ∧ d.day ≤ daysInMonth d.year d.month) : ofDayNumber d.dayNumber = d := by
  obtain ⟨year, inYear, begins, ends, rfl⟩ := exists_ofMarch months days
  have length := yearStart_succ_le year
  rw [dayNumber_ofMarch ⟨begins, by omega⟩, ofDayNumber_ofMarch begins ends]

theorem ofDayNumber_dayNumber_of_isValid {d : Date} (valid : d.isValid = true) :
    ofDayNumber d.dayNumber = d := by
  obtain ⟨-, months, days⟩ := isValid_iff.mp valid
  exact ofDayNumber_dayNumber months days

end Date

namespace Instant

theorem secondOfDay_lt (t : Instant) : t.secondOfDay < 86400 := by
  rw [secondOfDay]
  omega

/-- Each day with an instant has a date. -/
theorem isValid_date (t : Instant) : t.date.isValid = true := by
  have lower := t.first_le
  have upper := t.le_last
  refine Date.isValid_ofDayNumber ?_ ?_ <;>
    simp only [dayNumber, firstSecond, lastSecond] at *
  · omega
  · omega

end Instant

end Outreach.Calendar
