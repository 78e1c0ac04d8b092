import Outreach.Calendar.Writing
import Outreach.Proofs.Calendar.Dates
import Outreach.Proofs.Text.Numeral

/-!
# Texts of instants read back

The text of an instant is read as that instant: in a year of any sign and number of digits, with a
fraction of any length, and in a leap second. The relaxed grammar, which admits white space between
all parts, meets none and takes each part as it was written.
-/

namespace Outreach.Calendar

open Text Text.Scan

variable {cs : List Char}

/-! ## Parts -/

namespace Scan

theorem blanks_takes (h : Stops isBlank cs) : Takes blanks cs () cs :=
  (takeWhile_takes (List.forall_mem_nil _) h).bind (.pure _ _)

/-- There is no white space in front of a number. -/
theorem blanks_takes_padded (width n : Nat) (cs : List Char) :
    Takes blanks (padded width n ++ cs) () (padded width n ++ cs) :=
  blanks_takes (stops_padded (fun _ ↦ isBlank_of_isDigit) width n cs)

theorem short_takes {n : Nat} (h : n < 100) (cs : List Char) :
    Takes short (padded 2 n ++ cs) n cs :=
  (blanks_takes_padded 2 n cs).bind (nat_takes 1 (by decide) (by decide) h cs)

/-- A gap in which nothing stands, and a character. -/
theorem gap_takes {gap : Scan Unit} {c : Char} (empty : Takes gap (c :: cs) () (c :: cs)) {α : Type}
    {f : Scan α} {a : α} {rest : List Char} (behind : Takes f cs a rest) :
    Takes (do gap; char c; f) (c :: cs) a rest :=
  empty.bind ((char_takes c cs).bind behind)

/-- A year is taken up to the hyphen behind it, be it signed or not. -/
theorem year_takes (y : Int) (cs : List Char) :
    Takes year (yearChars y ++ '-' :: cs) y ('-' :: cs) := by
  have stop : Stops isDigit ('-' :: cs) := stops_cons.mpr (by decide)
  have noSign {c : Char} (h : isDigit c = false) (n : Nat) :
      Stops (· == c) (padded 4 n ++ '-' :: cs) := by
    refine stops_padded (fun d digit ↦ ?_) 4 n _
    refine beq_eq_false_iff_ne.mpr fun same ↦ ?_
    rw [same, h] at digit
    cases digit
  by_cases common : 0 ≤ y ∧ y ≤ 9999
  · have four : y.toNat < 10 ^ 4 := by omega
    have value : (y.toNat : Int) = y := Int.toNat_of_nonneg common.1
    rw [yearChars, if_pos common]
    refine (blanks_takes_padded 4 _ _).bind ?_
    refine (optional_takes_none (noSign (by decide) _)).bind ?_
    refine (optional_takes_none (noSign (by decide) _)).bind ?_
    have taken := (nat_takes 1 (by decide) (by decide) four ('-' :: cs)).map fun n : Nat ↦ (n : Int)
    rwa [value] at taken
  · rw [yearChars, if_neg common]
    by_cases negative : y < 0
    · have value : -(y.natAbs : Int) = y := by omega
      rw [if_pos negative, List.cons_append]
      refine (blanks_takes (stops_cons.mpr (by decide))).bind ?_
      refine (optional_takes (by decide)).bind ?_
      have taken := (anyNat_takes 4 y.natAbs stop).map fun n : Nat ↦ -(n : Int)
      rwa [value] at taken
    · have value : (y.natAbs : Int) = y := by omega
      rw [if_neg negative, List.cons_append]
      refine (blanks_takes (stops_cons.mpr (by decide))).bind ?_
      refine (optional_takes_none (stops_cons.mpr (by decide))).bind ?_
      refine (optional_takes (by decide)).bind ?_
      have taken := (anyNat_takes 4 y.natAbs stop).map fun n : Nat ↦ (n : Int)
      rwa [value] at taken

/-- A date whose month and day have at most two digits is taken as it is written, whatever may stand
in front of its hyphens. -/
theorem date_takes {gap : Scan Unit} (empty : ∀ cs, Takes gap ('-' :: cs) () ('-' :: cs)) {d : Date}
    (valid : d.isValid = true) (cs : List Char) : Takes (date gap) (d.chars ++ cs) d cs := by
  obtain ⟨-, ⟨-, month⟩, -, day⟩ := Date.isValid_iff.mp valid
  have most := Date.daysInMonth_le d.year d.month
  simp only [Date.chars, List.append_assoc, List.cons_append]
  refine (year_takes d.year _).bind ?_
  refine gap_takes (empty _) ?_
  refine (short_takes (by omega) _).bind ?_
  refine gap_takes (empty _) ?_
  exact (short_takes (by omega) _).map _

end Scan

/-- A number of nanoseconds as a fraction of a second: nothing, or a point and digits, of which there
may be more than nine. -/
inductive Fraction (nanos : Nat) : List Char → Prop where
  | none (whole : nanos = 0) : Fraction nanos []
  /-- A point and digits that make the fraction. -/
  | digits {ds : List Char} (some : ds ≠ []) (all : ∀ d ∈ ds, isDigit d = true)
      (value : valueOf ds * 10 ^ 9 = nanos * 10 ^ ds.length) : Fraction nanos ('.' :: ds)

/-- The first nine digits of a fraction make its nanoseconds. -/
theorem valueOf_take {ds : List Char} {nanos : Nat} (all : ∀ d ∈ ds, isDigit d = true)
    (value : valueOf ds * 10 ^ 9 = nanos * 10 ^ ds.length) :
    valueOf (ds.take 9) * 10 ^ (9 - (ds.take 9).length) = nanos := by
  rcases Nat.le_total ds.length 9 with short | long
  · rw [List.take_of_length_le short]
    refine Nat.eq_of_mul_eq_mul_right (Nat.pow_pos (n := ds.length) (by decide : 0 < 10)) ?_
    rw [Nat.mul_assoc, ← Nat.pow_add, Nat.sub_add_cancel short, value]
  · have nine : (ds.take 9).length = 9 := List.length_take_of_le long
    have rest : valueOf (ds.drop 9) < 10 ^ (ds.length - 9) := by
      have digits : ∀ d ∈ ds.drop 9, isDigit d = true := fun d hd ↦ all d (List.mem_of_mem_drop hd)
      have bound := valueOf_lt digits
      rwa [List.length_drop] at bound
    have split : valueOf ds = 10 ^ (ds.length - 9) * valueOf (ds.take 9) + valueOf (ds.drop 9) := by
      rw [← List.length_drop, ← valueOf_append, List.take_append_drop]
    have scaled : valueOf ds = 10 ^ (ds.length - 9) * nanos := by
      refine Nat.eq_of_mul_eq_mul_right (by decide : 0 < 10 ^ 9) ?_
      rw [value, Nat.mul_comm _ nanos, Nat.mul_assoc, ← Nat.pow_add, Nat.sub_add_cancel long]
    -- what the digits behind the ninth add is less than one nanosecond
    have unit : 0 < 10 ^ (ds.length - 9) := Nat.pow_pos (by decide)
    have whole := congrArg (· / 10 ^ (ds.length - 9)) (split.symm.trans scaled)
    simp only [Nat.mul_add_div unit, Nat.div_eq_of_lt rest, Nat.mul_div_cancel_left _ unit] at whole
    rw [nine, Nat.sub_self, Nat.pow_zero, Nat.mul_one]
    exact whole

/-- A fraction is taken up to what follows it, which is no digit, nor a point. -/
theorem Scan.fraction_takes {nanos : Nat} {ds : List Char} (h : Fraction nanos ds)
    (stop : Stops (fun c ↦ isDigit c || c == '.') cs) : Takes Scan.fraction (ds ++ cs) nanos cs := by
  have noDigit : Stops isDigit cs := fun c hc ↦ (Bool.or_eq_false_iff.mp (stop c hc)).1
  have noPoint : Stops (· == '.') cs := fun c hc ↦ (Bool.or_eq_false_iff.mp (stop c hc)).2
  cases h with
  | none whole =>
    rw [whole, List.nil_append]
    exact (optional_takes_none noPoint).bind (.pure _ _)
  | @digits ds some all value =>
    have something : ds.isEmpty = false := List.isEmpty_eq_false_iff.mpr some
    refine (optional_takes (by decide)).bind ?_
    refine (takeWhile_takes all noDigit).bind ?_
    have scaled : valueOf (ds.take 9) * Nat.pow 10 (9 - (ds.take 9).length) = nanos :=
      valueOf_take all value
    simp only [something, scaled]
    exact .pure _ _

/-- Hour, minute and second of a time of day with colons between. -/
def TimeOfDay.chars (t : TimeOfDay) : List Char :=
  padded 2 t.hour ++ ':' :: padded 2 t.minute ++ ':' :: padded 2 t.second

/-- A time of day that there is, be it in a leap second. -/
structure TimeOfDay.Exists (t : TimeOfDay) : Prop where
  hour : t.hour ≤ 23
  minute : t.minute ≤ 59
  second : t.second ≤ 60

/-- A time of day is taken up to what follows its fraction, whatever may stand in front of its
colons. -/
theorem Scan.time_takes {gap : Scan Unit} (empty : ∀ cs, Takes gap (':' :: cs) () (':' :: cs))
    {t : TimeOfDay} (exists' : t.Exists) {ds : List Char} (fraction : Fraction t.nanos ds)
    (stop : Stops (fun c ↦ isDigit c || c == '.') cs) :
    Takes (Scan.time gap) (t.chars ++ (ds ++ cs)) t cs := by
  obtain ⟨hour, minute, second⟩ := exists'
  simp only [TimeOfDay.chars, List.append_assoc, List.cons_append]
  refine (short_takes (by omega) _).bind ?_
  refine gap_takes (empty _) ?_
  refine (short_takes (by omega) _).bind ?_
  refine gap_takes (empty _) ?_
  refine (short_takes (by omega) _).bind ?_
  exact (fraction_takes fraction stop).map _

/-- The fraction of an instant is written in as many groups of three digits as it has. -/
theorem Instant.fraction_fractionChars (t : Instant) : Fraction t.fraction t.fractionChars := by
  have below : t.fraction < 1000000000 := Nat.mod_lt _ (by decide)
  have digits {width n : Nat} (positive : 0 < width) (h : n < 10 ^ width)
      (scaled : n * 10 ^ 9 = t.fraction * 10 ^ width) :
      Fraction t.fraction ('.' :: padded width n) := by
    refine .digits (padded_ne_nil width n) (fun c hc ↦ isDigit_of_mem_padded hc) ?_
    rw [valueOf_padded, length_padded positive h, scaled]
  unfold Instant.fractionChars
  by_cases whole : t.fraction = 0
  · rw [if_pos whole]
    exact .none whole
  · rw [if_neg whole]
    by_cases millis : t.fraction % 1000000 = 0
    · rw [if_pos millis]
      exact digits (by decide) (by omega) (by omega)
    · rw [if_neg millis]
      by_cases micros : t.fraction % 1000 = 0
      · rw [if_pos micros]
        exact digits (by decide) (by omega) (by omega)
      · rw [if_neg micros]
        exact digits (by decide) (by omega) rfl

/-! ## Moments -/

/-- A moment that there is: a day of the calendar, a time of day and an offset below a day. -/
structure Moment.Exists (m : Moment) : Prop where
  date : m.date.isValid = true
  time : m.time.Exists
  offset : m.offset.natAbs < 86400

/-- The instant of a moment that there is. -/
theorem Moment.Exists.toInstant?_eq {m : Moment} (h : m.Exists) : m.toInstant? =
    Instant.ofParts?
      (m.date.dayNumber * 86400 + m.time.hour * 3600 + m.time.minute * 60 +
        min m.time.second 59 - m.offset)
      (m.time.nanos + if m.time.second = 60 then 1000000000 else 0) := by
  have all : (m.date.isValid && m.time.hour ≤ 23 && m.time.minute ≤ 59 && m.time.second ≤ 60 &&
      m.offset.natAbs < 86400) = true := by
    simp [h.date, h.time.hour, h.time.minute, h.time.second, h.offset]
  rw [Moment.toInstant?, if_pos all]

/-! ## Whole texts -/

namespace Instant

/-- The time of day of an instant in UTC. -/
def timeOfDay (t : Instant) : TimeOfDay where
  hour := t.secondOfDay / 3600
  minute := t.secondOfDay / 60 % 60
  second := if 1000000000 ≤ t.nanos then 60 else t.secondOfDay % 60
  nanos := t.fraction

theorem exists_timeOfDay (t : Instant) : t.timeOfDay.Exists := by
  have day := t.secondOfDay_lt
  constructor <;> simp only [timeOfDay]
  · omega
  · omega
  · split <;> omega

/-- The date and the time of day of an instant in UTC. -/
def moment (t : Instant) : Moment := ⟨t.date, t.timeOfDay, 0⟩

theorem exists_moment (t : Instant) : t.moment.Exists where
  date := t.isValid_date
  time := t.exists_timeOfDay
  offset := (by decide : (0 : Int).natAbs < 86400)

/-- The moment of an instant in UTC is that of the instant. -/
theorem toInstant?_moment (t : Instant) : t.moment.toInstant? = some t := by
  have day := t.secondOfDay_lt
  have number : t.date.dayNumber = t.dayNumber := Date.dayNumber_ofDayNumber _
  rw [t.exists_moment.toInstant?_eq, ofParts?_eq_some_iff]
  have fit := t.fit
  simp only [moment, timeOfDay, number, fraction, NanosFit, dayNumber, secondOfDay] at *
  -- a leap second is written as second sixty, and is only there behind second fifty-nine
  by_cases leap : 1000000000 ≤ t.nanos
  · simp only [if_pos leap, if_true]
    omega
  · simp only [if_neg leap]
    rw [if_neg (by omega)]
    omega

/-- The relaxed grammar reads the text of an instant as its moment in UTC. -/
theorem relaxed_takes (t : Instant) : Takes Scan.relaxed t.text.toList t.moment [] := by
  have colon (cs : List Char) : Takes Scan.blanks (':' :: cs) () (':' :: cs) :=
    Scan.blanks_takes (stops_cons.mpr (by decide))
  have hyphen (cs : List Char) : Takes Scan.blanks ('-' :: cs) () ('-' :: cs) :=
    Scan.blanks_takes (stops_cons.mpr (by decide))
  have time {cs : List Char} :
      Takes (Scan.time Scan.blanks) (t.clockChars ++ (t.fractionChars ++ 'Z' :: cs)) t.timeOfDay
        ('Z' :: cs) :=
    Scan.time_takes colon t.exists_timeOfDay t.fraction_fractionChars (stops_cons.mpr (by decide))
  have utc : Takes (Text.Scan.orElse Scan.utcName (Scan.offset Scan.colonsOrBlanks)) ['Z'] 0 [] := rfl
  rw [text, String.toList_ofList]
  simp only [List.append_assoc, List.cons_append]
  refine (Scan.date_takes hyphen t.isValid_date _).bind ?_
  refine (Takes.bind (next_takes (by decide)) (.pure () _)).bind ?_
  refine time.bind ?_
  refine (Scan.blanks_takes (stops_cons.mpr (by decide))).bind ?_
  refine utc.bind ?_
  exact (Scan.blanks_takes (by simp [Stops])).bind (.pure _ _)

/-- The text of an instant is read as the instant. -/
theorem ofText?_text (t : Instant) : ofText? t.text = some t := by
  rw [ofText?, readBy?, all?_of_takes t.relaxed_takes]
  exact t.toInstant?_moment

end Instant

end Outreach.Calendar
