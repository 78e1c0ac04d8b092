import Outreach.Proofs.Rule.Reading

/-!
# Rules and their negations

Two operators are there to negate another one. What a field does not contain, and what it is not, is
told of every record by one of the two rules and not by the other, also where the field is missing or
the value cannot be read as what the field holds.

The date of the last order is different, since it is compared with a day where it is to be the value,
but with an instant where it is not to be: of an order on that day but at another time both rules hold.
-/

namespace Outreach.Rule

open Calendar

/-- What differs from a value is what is not the value. -/
theorem Field.Content.differs_iff (v : Value) (content : Content) :
    content.Differs v ↔ ¬content.Is v := by
  cases content with
  | number x =>
    cases read : v.number? with
    | none => simp [Differs, Is, read]
    | some y => simp [Differs, Is, read, Value.isFinite_of_number? read]
  | instant at? =>
    cases read : v.instant? with
    | none => simp [Differs, Is, read]
    | some u => cases at? <;> simp [Differs, Is, read, eq_comm]
  | text s => cases s <;> simp [Differs, Is]
  | textList items => simp [Differs, Is, List.forall_mem_ne']

variable {r : Rule} {c : Customer}

/-- Every customer has a field that is known. -/
theorem exists_content (known : (Field.ofName r.field).kind? ≠ none) (c : Customer) :
    ∃ content, (Field.ofName r.field).read? c = some content := by
  rw [← Option.ne_none_iff_exists']
  rwa [← Field.kind_read? _ c, Ne, Option.map_eq_none_iff] at known

/-- Of every customer and for every value, either a rule about a known field that asks for a text or
the one that asks for its absence holds, and either the rule that asks for the value or the one that
asks for another, unless the field is the date of the last order. Of that date, both hold if the order
was placed on the day of the value but at another time, and one of them does in any case; this is so
on all days but the last. -/
theorem negations_exact (r : Rule) (c : Customer) (known : (Field.ofName r.field).kind? ≠ none) :
    ({ r with operator := .notContains }.Holds c ↔ ¬{ r with operator := .contains }.Holds c) ∧
    (Field.ofName r.field ≠ .lastPurchaseDate →
      ({ r with operator := .notEqual }.Holds c ↔ ¬{ r with operator := .equal }.Holds c)) ∧
    (Field.ofName r.field = .lastPurchaseDate → ∀ u, r.value.instant? = some u →
      u.date ≠ Instant.lastDate →
      ({ r with operator := .equal }.Holds c ∨ { r with operator := .notEqual }.Holds c) ∧
      ({ r with operator := .equal }.Holds c ∧ { r with operator := .notEqual }.Holds c ↔
        ∃ t, c.lastPurchaseDate = some t ∧ t.date = u.date ∧ t ≠ u)) := by
  obtain ⟨content, read⟩ := exists_content known c
  refine ⟨?_, fun other ↦ ?_, fun date u value more ↦ ?_⟩
  · rw [holds_operator_iff .notContains read rfl, holds_operator_iff .contains read rfl]
    exact Iff.rfl
  · rw [holds_operator_iff .notEqual read rfl, holds_operator_iff .equal read rfl]
    simp only [Field.Content.Answers, if_neg other]
    exact content.differs_iff r.value
  · obtain rfl : .instant c.lastPurchaseDate = content := by
      rw [date] at read
      exact Option.some.inj read
    rw [holds_operator_iff .notEqual read rfl, holds_operator_iff .equal read rfl]
    simp only [Field.Content.Answers, if_pos date, Field.Content.FallsOn, Field.Content.Differs, value]
    cases c.lastPurchaseDate with
    | none => simp
    | some t =>
      -- an order at the instant of the value was placed on its day
      have placed : t.date = u.date ∨ t ≠ u :=
        or_iff_not_imp_right.mpr fun same ↦ congrArg Instant.date (not_not.mp same)
      simpa [more] using placed

/-- Who ordered in the first minute of a day has ordered on that day, and not in its evening; and
there is no evening in the text of this date. -/
theorem negations_exact_thatEvening :
    (Field.ofName thatEvening.field).kind? ≠ none ∧
      Field.ofName thatEvening.field = .lastPurchaseDate ∧
      thatEvening.value.instant? = Instant.ofParts? 77400 0 ∧
      (thatEvening.Holds buyer ∧ { thatEvening with operator := .notEqual }.Holds buyer) ∧
      { thatEvening with operator := .notContains }.Holds buyer := by
  have known : (Field.ofName thatEvening.field).kind? ≠ none := by decide
  have date : Field.ofName thatEvening.field = .lastPurchaseDate := by decide
  have evening : thatEvening.value.instant? = Instant.ofParts? 77400 0 := by decide
  obtain ⟨contains, -, day⟩ := negations_exact thatEvening buyer known
  obtain ⟨-, both⟩ := day date _ evening (by decide)
  refine ⟨known, date, evening, both.mpr ⟨_, rfl, by decide, by decide⟩, contains.mpr ?_⟩
  decide +kernel

end Outreach.Rule
