/-!
# Days

The Gregorian calendar, carried on backwards and forwards, and the numbering of its days from the
first of January 1970. A year is counted from March, so that the leap day is its last: the days in
front of a month are then the same in every year.
-/

namespace Outreach.Calendar

/-- A day by year, month and day of the month. -/
structure Date where
  /-- The year; the year before year one is year zero. -/
  year : Int
  /-- The month, from one. -/
  month : Nat
  /-- The day of the month, from one. -/
  day : Nat
deriving DecidableEq, Repr

namespace Date

/-- The first year that dates are kept for. -/
def firstYear : Int := -262143

/-- The last year that dates are kept for. -/
def lastYear : Int := 262142

def isLeapYear (year : Int) : Bool := year % 4 == 0 && (year % 100 != 0 || year % 400 == 0)

/-- The number of days of a month. -/
def daysInMonth (year : Int) : Nat → Nat
  | 2 => if isLeapYear year then 29 else 28
  | 4 | 6 | 9 | 11 => 30
  | _ => 31

/-- The day exists and lies in the years that dates are kept for. -/
def isValid (d : Date) : Bool :=
  firstYear ≤ d.year && d.year ≤ lastYear && 1 ≤ d.month && d.month ≤ 12 &&
    1 ≤ d.day && d.day ≤ daysInMonth d.year d.month

/-! ## Numbering -/

/-- Days from the first of March of year zero to the first of January 1970. -/
def epochShift : Int := 719468

/-- Days from the first of March of year zero to the first of March of a year. -/
def yearStart (year : Int) : Int := 365 * year + year / 4 - year / 100 + year / 400

/-- Days in front of a month in a year that begins in March; March is month zero. -/
def monthStart (month : Int) : Int := (153 * month + 2) / 5

/-- The number of a day, counted from the first of January 1970. -/
def dayNumber (d : Date) : Int :=
  let start :=
    if d.month ≤ 2 then yearStart (d.year - 1) + monthStart (d.month + 9)
    else yearStart d.year + monthStart (d.month - 3)
  start + (d.day - 1) - epochShift

/-- The year from March that holds a day, which is counted from the first of March of year zero.
The calendar repeats itself after 400 years; the last century of these, and the last year of four,
has a day more than the others. -/
def marchYear (n : Int) : Int :=
  let inCycle := n % 146097
  let century := min (inCycle / 36524) 3
  let inCentury := inCycle - 36524 * century
  let leaps := inCentury / 1461
  let single := min ((inCentury - 1461 * leaps) / 365) 3
  400 * (n / 146097) + 100 * century + 4 * leaps + single

/-- The month, from March as month zero, that holds a day of a year. -/
def marchMonth (inYear : Int) : Int := (5 * inYear + 2) / 153

/-- The date of a day in a year from March. -/
def ofMarch (year inYear : Int) : Date :=
  let month := marchMonth inYear
  let day := (inYear - monthStart month + 1).toNat
  if month < 10 then ⟨year, (month + 3).toNat, day⟩ else ⟨year + 1, (month - 9).toNat, day⟩

def ofDayNumber (n : Int) : Date :=
  let year := marchYear (n + epochShift)
  ofMarch year (n + epochShift - yearStart year)

/-- The start of a year from its place in the cycle. -/
theorem yearStart_split (cycle century leaps single : Int)
    (hc : 0 ≤ century ∧ century ≤ 3) (hl : 0 ≤ leaps ∧ leaps ≤ 24) (hs : 0 ≤ single ∧ single ≤ 3) :
    yearStart (400 * cycle + 100 * century + 4 * leaps + single) =
      146097 * cycle + 36524 * century + 1461 * leaps + 365 * single := by
  have h4 : (400 * cycle + 100 * century + 4 * leaps + single) / 4 =
      100 * cycle + 25 * century + leaps := by omega
  have h100 : (400 * cycle + 100 * century + 4 * leaps + single) / 100 =
      4 * cycle + century := by omega
  have h400 : (400 * cycle + 100 * century + 4 * leaps + single) / 400 = cycle := by omega
  simp only [yearStart, h4, h100, h400]
  omega

/-- Every day lies in the year that it is assigned to. -/
theorem marchYear_spans (n : Int) :
    yearStart (marchYear n) ≤ n ∧ n < yearStart (marchYear n + 1) := by
  obtain ⟨cycle, hcycle⟩ : ∃ c, c = n / 146097 := ⟨_, rfl⟩
  obtain ⟨century, hcentury⟩ : ∃ c, c = min (n % 146097 / 36524) 3 := ⟨_, rfl⟩
  obtain ⟨leaps, hleaps⟩ : ∃ c, c = (n % 146097 - 36524 * century) / 1461 := ⟨_, rfl⟩
  obtain ⟨single, hsingle⟩ : ∃ c, c = min ((n % 146097 - 36524 * century - 1461 * leaps) / 365) 3 :=
    ⟨_, rfl⟩
  have hc : 0 ≤ century ∧ century ≤ 3 := by omega
  have hl : 0 ≤ leaps ∧ leaps ≤ 24 := by omega
  have hs : 0 ≤ single ∧ single ≤ 3 := by omega
  have hy : marchYear n = 400 * cycle + 100 * century + 4 * leaps + single := by
    simp only [marchYear, hcycle, hcentury, hleaps, hsingle]
  have hn : n = 146097 * cycle + n % 146097 := by omega
  refine ⟨?_, ?_⟩
  · rw [hy, yearStart_split _ _ _ _ hc hl hs]; omega
  · rw [hy]
    by_cases hs3 : single < 3
    · have := yearStart_split cycle century leaps (single + 1) hc hl (by omega)
      rw [← Int.add_assoc] at this; rw [this]; omega
    · by_cases hl24 : leaps < 24
      · have := yearStart_split cycle century (leaps + 1) 0 hc (by omega) (by omega)
        rw [show 400 * cycle + 100 * century + 4 * leaps + single + 1 =
          400 * cycle + 100 * century + 4 * (leaps + 1) + 0 by omega, this]; omega
      · by_cases hc3 : century < 3
        · have := yearStart_split cycle (century + 1) 0 0
            (by omega) (by omega) (by omega)
          rw [show 400 * cycle + 100 * century + 4 * leaps + single + 1 =
            400 * cycle + 100 * (century + 1) + 4 * 0 + 0 by omega, this]; omega
        · have := yearStart_split (cycle + 1) 0 0 0
            (by omega) (by omega) (by omega)
          rw [show 400 * cycle + 100 * century + 4 * leaps + single + 1 =
            400 * (cycle + 1) + 100 * 0 + 4 * 0 + 0 by omega, this]; omega

/-- A year has at most 366 days. -/
theorem yearStart_succ_le (y : Int) : yearStart (y + 1) ≤ yearStart y + 366 := by
  simp only [yearStart]; omega

theorem dayNumber_of_month_le {d : Date} (h : d.month ≤ 2) :
    d.dayNumber = yearStart (d.year - 1) + monthStart (d.month + 9) + (d.day - 1) - epochShift := by
  simp [dayNumber, h]

theorem dayNumber_of_lt_month {d : Date} (h : ¬ d.month ≤ 2) :
    d.dayNumber = yearStart d.year + monthStart (d.month - 3) + (d.day - 1) - epochShift := by
  simp [dayNumber, h]

/-- The number of a date that is given by its year from March and the day in it. -/
theorem dayNumber_ofMarch {year inYear : Int} (h : 0 ≤ inYear ∧ inYear < 366) :
    (ofMarch year inYear).dayNumber = yearStart year + inYear - epochShift := by
  have hm : 0 ≤ marchMonth inYear ∧ marchMonth inYear < 12 := by simp only [marchMonth]; omega
  have hd : 0 ≤ inYear - monthStart (marchMonth inYear) := by
    simp only [monthStart, marchMonth]; omega
  by_cases hs : marchMonth inYear < 10
  · simp only [ofMarch, if_pos hs]
    rw [dayNumber_of_lt_month (by simp only; omega)]
    simp only
    rw [show ((marchMonth inYear + 3).toNat : Int) - 3 = marchMonth inYear by omega]
    omega
  · simp only [ofMarch, if_neg hs]
    rw [dayNumber_of_month_le (by simp only; omega)]
    simp only [Int.add_sub_cancel]
    rw [show ((marchMonth inYear - 9).toNat : Int) + 9 = marchMonth inYear by omega]
    omega

/-- Numbering undoes naming. -/
theorem dayNumber_ofDayNumber (n : Int) : (ofDayNumber n).dayNumber = n := by
  obtain ⟨hl, hu⟩ := marchYear_spans (n + epochShift)
  have hs := yearStart_succ_le (marchYear (n + epochShift))
  simp only [ofDayNumber]
  rw [dayNumber_ofMarch (by omega)]
  omega

/-- The month that lies a number of months before that of a date, as year and month. -/
def monthBefore (d : Date) (months : Nat) : Int × Nat :=
  let index := 12 * d.year + (d.month - 1 : Nat) - months
  (index / 12, (index % 12).toNat + 1)

/-- The date a number of months earlier, moved to the last day of a shorter month. -/
def minusMonths (d : Date) (months : Nat) : Date :=
  let (year, month) := d.monthBefore months
  ⟨year, month, min d.day (daysInMonth year month)⟩

end Date

end Outreach.Calendar
