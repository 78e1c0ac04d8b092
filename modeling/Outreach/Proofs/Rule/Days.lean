import Outreach.Proofs.Calendar.Spelling
import Outreach.Proofs.Decimal.Whole
import Outreach.Proofs.Rule.Reading

/-!
# The day of the last order

A rule that asks for the date of the last order asks for a day of the calendar in UTC: whoever ordered
on the day of the value satisfies it, from its first instant to its last, and be this in a leap second.
So all values on one day make the same condition, and nobody satisfies those of two days. On every day
but the last one, customers are found by the date of their own last order, as it may be written: by the
date alone, by the text that records have, or by the number of its milliseconds.
-/

namespace Outreach

open Calendar Text

/-! ## Values of an instant -/

namespace Calendar.Instant

/-- The milliseconds of an instant have no more than 53 binary digits. -/
theorem natAbs_millis_lt (t : Instant) : t.millis.natAbs < 2 ^ 53 := by
  have lower := t.first_le
  have upper := t.le_last
  have nanos : t.nanos < 2000000000 := t.fit.elim (fun h ↦ by omega) And.left
  simp only [millis, firstSecond, lastSecond] at *
  omega

/-- Outside of leap seconds, the milliseconds of an instant lead back to its day. -/
theorem exists_ofMillis? {t : Instant} (usual : t.nanos < 1000000000) :
    ∃ u, ofMillis? t.millis = some u ∧ u.date = t.date := by
  have second : t.millis / 1000 = t.secs := by
    simp only [millis]
    omega
  have fits : NanosFit (t.millis / 1000) ((t.millis % 1000).toNat * 1000000) := .inl (by omega)
  rw [second] at fits
  refine ⟨⟨t.secs, _, t.first_le, t.le_last, fits⟩, ?_, rfl⟩
  exact ofParts?_eq_some_iff.mpr ⟨second.symm, rfl⟩

end Calendar.Instant

namespace Rule

namespace Value

theorem instant?_ofList {cs : List Char} (trimmed : Trimmed cs) :
    instant? (.text (String.ofList cs)) = Instant.ofSpelling? cs := by
  rw [instant?, String.toList_ofList, trimmed.trimChars_eq]

theorem instant?_date (t : Instant) :
    instant? (.text (String.ofList t.date.chars)) = Instant.ofDayNumber? t.dayNumber := by
  rw [instant?_ofList t.date.trimmed_chars, t.ofSpelling?_date]

theorem instant?_text {t : Instant} (common : 0 ≤ t.date.year ∧ t.date.year ≤ 9999) :
    instant? (.text t.text) = some t := by
  rw [instant?, t.trimmed_text.trimChars_eq, Instant.ofSpelling?_text common]

theorem instant?_millis (t : Instant) :
    instant? (.number (Decimal.whole t.millis)) = Instant.ofMillis? t.millis := by
  have read := Decimal.truncate_whole t.natAbs_millis_lt
  obtain ⟨b, found, whole⟩ := Option.map_eq_some_iff.mp read
  rw [instant?, found, Option.bind_some, whole]

end Value

/-! ## Orders of a day -/

/-- Instants on one day have the same test. -/
theorem sameDay?_congr {t u : Instant} (h : t.date = u.date) : sameDay? t = sameDay? u := by
  rw [sameDay?, Instant.date_eq_iff.mp h, sameDay?]

/-- The rule that the last order was placed on the day of a value. -/
def orderedOn (v : Value) (l : Logic) : Rule := ⟨"lastPurchaseDate", .equal, v, l⟩

variable {v w : Value} {l l' : Logic} {t u u' : Instant} {c : Customer}

theorem compile_orderedOn (v : Value) (l : Logic) :
    (orderedOn v l).compile = some ⟨.lastPurchaseDate, (v.instant?.bind sameDay?).getD .never⟩ := rfl

/-- The rule holds of those who last ordered on the day of the value, unless this is the last day. -/
theorem holds_orderedOn_iff (value : v.instant? = some u) :
    (orderedOn v l).Holds c ↔
      ∃ t, c.lastPurchaseDate = some t ∧ t.date = u.date ∧ u.date ≠ Instant.lastDate := by
  have read : (Field.ofName "lastPurchaseDate").read? c = some (.instant c.lastPurchaseDate) := rfl
  have date : Field.ofName "lastPurchaseDate" = .lastPurchaseDate := rfl
  rw [holds_iff_answers read rfl]
  simp [orderedOn, Field.Content.Answers, date, Field.Content.FallsOn, value]

/-- A value on a day finds those who last ordered on it. -/
theorem holds_orderedOn (value : v.instant? = some u) (ordered : c.lastPurchaseDate = some t)
    (day : u.date = t.date) (more : t.date ≠ Instant.lastDate) : (orderedOn v l).Holds c :=
  (holds_orderedOn_iff value).mpr ⟨t, ordered, day.symm, day ▸ more⟩

/-- Of a value on any day but the last, the rule holds of exactly those who last ordered on this day.
Values on one day make the same condition, and no customer satisfies those of values on different days.
A customer who last ordered on any day but the last is found by the date of this day, by the text of
the instant in a year of four digits, and by its milliseconds outside of leap seconds. -/
theorem orderedOn_exact :
    (∀ v l u, v.instant? = some u → u.date ≠ Instant.lastDate → ∀ c,
      (orderedOn v l).Holds c ↔ ∃ t, c.lastPurchaseDate = some t ∧ t.date = u.date) ∧
    (∀ v l u w l' u', v.instant? = some u → w.instant? = some u' →
      (u.date = u'.date → (orderedOn v l).compile = (orderedOn w l').compile) ∧
      (u.date ≠ u'.date → ∀ c, ¬((orderedOn v l).Holds c ∧ (orderedOn w l').Holds c))) ∧
    ∀ c t l, c.lastPurchaseDate = some t → t.date ≠ Instant.lastDate →
      (orderedOn (.text (String.ofList t.date.chars)) l).Holds c ∧
      (0 ≤ t.date.year ∧ t.date.year ≤ 9999 → (orderedOn (.text t.text) l).Holds c) ∧
      (t.nanos < 1000000000 → (orderedOn (.number (Decimal.whole t.millis)) l).Holds c) := by
  refine ⟨?_, ?_, ?_⟩
  · intro v l u value more c
    rw [holds_orderedOn_iff value]
    simp only [more, ne_eq, not_false_eq_true, and_true]
  · intro v l u w l' u' value value'
    constructor
    · intro day
      rw [compile_orderedOn, compile_orderedOn, value, value', Option.bind_some, Option.bind_some,
        sameDay?_congr day]
    · rintro apart c ⟨here, there⟩
      obtain ⟨t, ordered, day, -⟩ := (holds_orderedOn_iff value).mp here
      obtain ⟨t', ordered', day', -⟩ := (holds_orderedOn_iff value').mp there
      obtain rfl : t = t' := Option.some.inj (ordered.symm.trans ordered')
      exact apart (day.symm.trans day')
  · intro c t l ordered more
    refine ⟨?_, fun common ↦ ?_, fun usual ↦ ?_⟩
    · obtain ⟨first, begins, here, -⟩ := t.exists_dayStart
      have day : first.date = t.date := by
        rw [Instant.date_eq_iff, Instant.dayNumber, here]
        omega
      exact holds_orderedOn ((Value.instant?_date t).trans begins) ordered day more
    · exact holds_orderedOn (Value.instant?_text common) ordered rfl more
    · obtain ⟨u, found, day⟩ := t.exists_ofMillis? usual
      exact holds_orderedOn ((Value.instant?_millis t).trans found) ordered day more

def leapSecond : Instant := (Instant.ofParts? 1483228799 1500000000).getD .epoch

def lateBuyer : Customer := { buyer with lastPurchaseDate := some leapSecond }

/-- The leap second belongs to the last day of the year, also where the value names the minute before
it by the next morning of another place. -/
theorem orderedOn_exact_leapSecond :
    let elsewhere : Value := .text "2017-01-01T05:29:00+05:30"
    elsewhere.instant? = Instant.ofParts? 1483228740 0 ∧ leapSecond.date ≠ Instant.lastDate ∧
      (orderedOn elsewhere .and).Holds lateBuyer ∧
      (orderedOn (.text "2016-12-31") .or).Holds lateBuyer ∧
      (orderedOn elsewhere .and).compile = (orderedOn (.text "2016-12-31") .or).compile := by
  intro elsewhere
  obtain ⟨exactly, days, own⟩ := orderedOn_exact
  have minute : elsewhere.instant? = Instant.ofParts? 1483228740 0 := by decide
  have bare : (Value.text "2016-12-31").instant? = Instant.ofParts? 1483142400 0 := by decide
  have date : String.ofList leapSecond.date.chars = "2016-12-31" := by decide
  have more : leapSecond.date ≠ Instant.lastDate := by decide
  refine ⟨minute, more, ?_, ?_, ?_⟩
  · exact (exactly elsewhere .and _ minute (by decide) lateBuyer).mpr ⟨leapSecond, rfl, by decide⟩
  · rw [← date]
    exact (own lateBuyer leapSecond .or rfl more).1
  · exact (days elsewhere .and _ _ .or _ minute bare).1 (by decide)

end Rule

end Outreach
