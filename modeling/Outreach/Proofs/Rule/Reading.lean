import Outreach.Proofs.Calendar.Days
import Outreach.Proofs.Rule.Acceptance

/-!
# What a rule asks for

The condition of a rule is compared with a direct reading of the rule, in which neither tests nor
operands occur: for each operator, what the content of the field has to be for the rule to hold of
a customer. A rule about a field that no customer has holds of nobody.

The eight operators ask five questions: whether the content stands in an ordering to the value,
whether it is the value, whether it differs from it, whether it mentions it, and, for the date of the
last order only, whether it falls on the day of the value.
-/

namespace Outreach.Rule

open Calendar Text

/-! ## The direct reading -/

/-- The ordering in terms of an order. -/
def Comparison.Relates {α : Type} [LT α] [LE α] (k : Comparison) (actual expected : α) : Prop :=
  match k with
  | .greater => actual > expected
  | .less => actual < expected
  | .atLeast => actual ≥ expected
  | .atMost => actual ≤ expected

namespace Field.Content

/-- The content stands in an ordering to the value: a number to the finite number of the value, an
instant, if there is one, to the instant of the value; a text to nothing. -/
def Stands (k : Comparison) (v : Value) : Content → Prop
  | .number x => ∃ y, v.number? = some y ∧ y.isFinite = true ∧ k.Relates x y
  | .instant at? => ∃ t u, at? = some t ∧ v.instant? = some u ∧ k.Relates t u
  | .text _ => False
  | .textList _ => False

/-- The content is there and is the value, or one of its texts is. -/
def Is (v : Value) : Content → Prop
  | .number x => ∃ y, v.number? = some y ∧ y.isFinite = true ∧ (x == y) = true
  | .instant at? => ∃ t u, at? = some t ∧ v.instant? = some u ∧ t = u
  | .text s => s = some v.asText
  | .textList items => ∃ s ∈ items, s = v.asText

/-- The content is missing or is not the value, and none of its texts is. From a value that cannot
be read as what the field holds, everything differs. -/
def Differs (v : Value) : Content → Prop
  | .number x => v.number? = none ∨ ∃ y, v.number? = some y ∧ (x == y) = false
  | .instant at? => v.instant? = none ∨ at? = none ∨
      ∃ t u, at? = some t ∧ v.instant? = some u ∧ t ≠ u
  | .text s => s = none ∨ ∃ t, s = some t ∧ t ≠ v.asText
  | .textList items => ∀ s ∈ items, s ≠ v.asText

/-- The texts in which the value is searched: a number as it is shown, an instant with its
milliseconds, and all texts that are there. -/
def texts : Content → List String
  | .number x => [Decimal.numberText x]
  | .instant at? => at?.toList.map Instant.millisText
  | .text s => s.toList
  | .textList items => items

/-- The text of the value occurs in one of the texts of the content, letter case aside. -/
def Mentions (v : Value) (content : Content) : Prop :=
  ∃ s ∈ content.texts, (lower v.asText).toList <:+: (lower s).toList

/-- The content is an instant on the day of the value, which is not the last of all days. -/
def FallsOn (v : Value) : Content → Prop
  | .instant at? => ∃ t u, at? = some t ∧ v.instant? = some u ∧ t.date = u.date ∧
      u.date ≠ Instant.lastDate
  | _ => False

/-- What an operator asks of the content of a field. -/
def Answers (field : Field) (op : Operator) (v : Value) (content : Content) : Prop :=
  match op with
  | .greater => content.Stands .greater v
  | .less => content.Stands .less v
  | .atLeast => content.Stands .atLeast v
  | .atMost => content.Stands .atMost v
  | .equal => if field = .lastPurchaseDate then content.FallsOn v else content.Is v
  | .notEqual => content.Differs v
  | .contains => content.Mentions v
  | .notContains => ¬content.Mentions v
  | .unrecognized _ => False

end Field.Content

/-- The direct reading: the customer has the field, and its content is what the operator asks for. -/
def Reads (r : Rule) (c : Customer) : Prop :=
  ∃ content, (Field.ofName r.field).read? c = some content ∧
    content.Answers (Field.ofName r.field) r.operator r.value

/-! ## Values -/

/-- A value is read as a finite number or not at all. -/
theorem Value.isFinite_of_number? {v : Value} {y : Float} (h : v.number? = some y) :
    y.isFinite = true := by
  cases v with
  | number x =>
    simp only [Value.number?] at h
    split at h
    · cases h
      assumption
    · cases h
  | text s => exact (Option.filter_eq_some_iff.mp h).2

/-- A test for an ordering decides it if its parts decide the order. -/
theorem Comparison.holds_iff {α : Type} [LT α] [LE α] {lt le : α → α → Bool} {a b : α}
    (strict : ∀ a b, lt a b = true ↔ a < b) (wide : ∀ a b, le a b = true ↔ a ≤ b)
    (k : Comparison) : k.holds lt le a b = true ↔ k.Relates a b := by
  cases k with
  | greater => exact strict b a
  | less => exact strict a b
  | atLeast => exact wide b a
  | atMost => exact wide a b

theorem containsLower_iff (s needle : String) :
    containsLower s (lower needle) = true ↔ (lower needle).toList <:+: (lower s).toList := by
  rw [containsLower, occursIn_iff, toList_lower s]

/-! ## Tests -/

/-- The content of a field satisfies the test, which may be one that everything satisfies. -/
def Test.Passes (t : Test) (content : Field.Content) : Prop :=
  t = .always ∨ t.onContent content = true

section Passes

open Rule.Field (Content)

-- each test is computed on each kind of content, where these functions reduce
attribute [local simp] Content.kind Test.onContent Test.onNumber Test.onInstant Test.onText
  Test.onTextList

variable (v : Value) (content : Content)

theorem not_passes_never : ¬Test.never.Passes content := by
  cases content with
  | instant at? => cases at? <;> simp [Test.Passes]
  | text s => cases s <;> simp [Test.Passes]
  | _ => simp [Test.Passes]

theorem passes_ordering (k : Comparison) :
    Test.Passes ((v.ordering? k content.kind).getD .never) content ↔ content.Stands k v := by
  cases content with
  | number x =>
    cases read : v.number? with
    | none => simp [Value.ordering?, Content.Stands, read, not_passes_never]
    | some y =>
      have decides := Comparison.holds_iff (a := x) (b := y) (fun a b ↦ decide_eq_true_iff)
        (fun a b ↦ decide_eq_true_iff) k
      have finite := Value.isFinite_of_number? read
      simp [Value.ordering?, Content.Stands, Test.Passes, read, finite, decides]
  | instant at? =>
    cases read : v.instant? with
    | none => simp [Value.ordering?, Content.Stands, read, not_passes_never]
    | some u =>
      cases at? with
      | none => simp [Value.ordering?, Content.Stands, Test.Passes, read]
      | some t =>
        have decides := Comparison.holds_iff (a := t) (b := u) (fun a b ↦ Instant.lt_eq_true)
          (fun a b ↦ Instant.le_eq_true) k
        simp [Value.ordering?, Content.Stands, Test.Passes, read, decides]
  | text s => simp [Value.ordering?, Content.Stands, not_passes_never]
  | textList items => simp [Value.ordering?, Content.Stands, not_passes_never]

theorem passes_equality :
    Test.Passes (((v.operand? content.kind).map .equals).getD .never) content ↔ content.Is v := by
  cases content with
  | number x =>
    cases read : v.number? with
    | none => simp [Value.operand?, Content.Is, read, not_passes_never]
    | some y =>
      have finite := Value.isFinite_of_number? read
      simp [Value.operand?, Content.Is, Test.Passes, read, finite]
  | instant at? =>
    cases read : v.instant? with
    | none => simp [Value.operand?, Content.Is, read, not_passes_never]
    | some u =>
      cases at? with
      | none => simp [Value.operand?, Content.Is, Test.Passes, read]
      | some t => simp [Value.operand?, Content.Is, Test.Passes, read, eq_comm (a := t) (b := u)]
  | text s => cases s <;> simp [Value.operand?, Content.Is, Test.Passes]
  | textList items => simp [Value.operand?, Content.Is, Test.Passes]

theorem passes_inequality :
    Test.Passes (((v.operand? content.kind).map .notEquals).getD .always) content ↔
      content.Differs v := by
  cases content with
  | number x =>
    cases read : v.number? with
    | none => simp [Value.operand?, Content.Differs, Test.Passes, read]
    | some y => simp [Value.operand?, Content.Differs, Test.Passes, read, bne]
  | instant at? =>
    cases read : v.instant? with
    | none => simp [Value.operand?, Content.Differs, Test.Passes, read]
    | some u => cases at? <;> simp [Value.operand?, Content.Differs, Test.Passes, read]
  | text s => cases s <;> simp [Value.operand?, Content.Differs, Test.Passes]
  | textList items => simp [Value.operand?, Content.Differs, Test.Passes]

theorem passes_contains :
    (Test.contains (lower v.asText)).Passes content ↔ content.Mentions v := by
  cases content with
  | number x => simp [Test.Passes, Content.Mentions, Content.texts, containsLower_iff]
  | instant at? =>
    cases at? <;> simp [Test.Passes, Content.Mentions, Content.texts, containsLower_iff]
  | text s => cases s <;> simp [Test.Passes, Content.Mentions, Content.texts, containsLower_iff]
  | textList items => simp [Test.Passes, Content.Mentions, Content.texts, containsLower_iff]

theorem passes_notContains :
    (Test.notContains (lower v.asText)).Passes content ↔ ¬content.Mentions v := by
  rw [← passes_contains]
  cases content with
  | instant at? => cases at? <;> simp [Test.Passes]
  | text s => cases s <;> simp [Test.Passes]
  | _ => simp [Test.Passes]

/-- The last day has no test; on any other the test tells the day. -/
theorem passes_sameDay (u : Instant) (at? : Option Instant) :
    Test.Passes ((sameDay? u).getD .never) (.instant at?) ↔
      ∃ t, at? = some t ∧ t.date = u.date ∧ u.date ≠ Instant.lastDate := by
  -- the day of the value has a beginning, but an end only if it is not the last
  obtain ⟨first, begins, here⟩ := u.exists_dayStart
  by_cases last : u.date = Instant.lastDate
  · have untested : sameDay? u = none := by
      simp [sameDay?, begins, Instant.addSeconds?_lastDate here last]
    simp [untested, last, not_passes_never]
  · obtain ⟨next, ends, there⟩ := Instant.exists_nextDayStart here last
    have test : sameDay? u = some (.within first next) := by
      simp [sameDay?, begins, ends]
    cases at? with
    | none => simp [test, Test.Passes]
    | some t =>
      have day := Instant.mem_day_iff (t := t) here there
      simp [test, Test.Passes, day, last]

theorem passes_day (h : content.kind = .instant) :
    Test.Passes ((v.instant?.bind sameDay?).getD .never) content ↔ content.FallsOn v := by
  cases content with
  | instant at? =>
    cases read : v.instant? with
    | none => simp [Content.FallsOn, read, not_passes_never]
    | some u => simp [Content.FallsOn, read, passes_sameDay]
  | _ => cases h

end Passes

/-! ## Rules -/

section Rules

variable {r : Rule} {d : Condition} {c : Customer}

/-- The test of an operator tells whether the content of the field is what it asks for. -/
theorem passes_test? {field : Field} {op : Operator} {content : Field.Content}
    (h : field.kind? = some content.kind) (v : Value) (recognized : op.isRecognized = true) :
    Test.Passes ((test? field content.kind v op).getD .never) content ↔
      content.Answers field op v := by
  cases op with
  | greater => exact passes_ordering v content .greater
  | less => exact passes_ordering v content .less
  | atLeast => exact passes_ordering v content .atLeast
  | atMost => exact passes_ordering v content .atMost
  | equal =>
    simp only [test?, Field.Content.Answers]
    by_cases date : field = .lastPurchaseDate
    · subst date
      simp only [if_true]
      exact passes_day v content (Option.some.inj h).symm
    · simp only [if_neg date]
      exact passes_equality v content
  | notEqual => exact passes_inequality v content
  | contains => exact passes_contains v content
  | notContains => exact passes_notContains v content
  | unrecognized raw => cases recognized

/-- A condition is satisfied if the field is there and its content passes the test. -/
theorem accepts_of_read? {content : Field.Content} (h : d.field.read? c = some content) :
    d.accepts c = true ↔ d.test.Passes content := by
  unfold Condition.accepts
  split
  · next never =>
    rw [never]
    exact iff_of_false Bool.false_ne_true (not_passes_never content)
  · next always => exact iff_of_true rfl (.inl always)
  · next other =>
    have other' : d.test ≠ .always := other
    simp [Test.Passes, h, other']

/-- The condition of a rule is satisfied by those of whom the direct reading of the rule holds. -/
theorem accepts_compile (h : r.compile = some d) : d.accepts c = true ↔ r.Reads c := by
  unfold compile at h
  cases recognized : r.operator.isRecognized with
  | false => simp [recognized] at h
  | true =>
    have kinds := Field.kind_read? (Field.ofName r.field) c
    cases content? : (Field.ofName r.field).read? c with
    | none =>
      rw [content?, Option.map_none] at kinds
      simp only [recognized, ← kinds] at h
      cases h
      simp [Reads, content?, Condition.accepts]
    | some content =>
      rw [content?, Option.map_some] at kinds
      simp only [recognized, ← kinds] at h
      cases h
      rw [accepts_of_read? content?, passes_test? kinds.symm r.value recognized]
      simp [Reads, content?]

/-- A rule with an operator holds of those of whom its direct reading holds. -/
theorem holds_iff_reads (recognized : r.operator.isRecognized = true) : r.Holds c ↔ r.Reads c := by
  obtain ⟨d, compiled⟩ := exists_compile recognized
  rw [holds_iff compiled, accepts_compile compiled]

/-- A rule holds if the content of its field is what the operator asks for. -/
theorem holds_iff_answers {content : Field.Content}
    (read : (Field.ofName r.field).read? c = some content)
    (recognized : r.operator.isRecognized = true) :
    r.Holds c ↔ content.Answers (Field.ofName r.field) r.operator r.value := by
  rw [holds_iff_reads recognized, Reads, read]
  simp

/-- Of rules about a field and a value, the operator decides what is asked for. -/
theorem holds_operator_iff (op : Operator) {content : Field.Content}
    (read : (Field.ofName r.field).read? c = some content) (recognized : op.isRecognized = true) :
    { r with operator := op }.Holds c ↔ content.Answers (Field.ofName r.field) op r.value :=
  holds_iff_answers read recognized

end Rules

/-- A rule with an operator has a condition, and the customers who satisfy it are those of whom the
direct reading of the rule holds. -/
theorem compile_reads (r : Rule) (recognized : r.operator.isRecognized = true) :
    ∃ d, r.compile = some d ∧ ∀ c, d.accepts c = true ↔ r.Reads c := by
  obtain ⟨d, compiled⟩ := exists_compile recognized
  exact ⟨d, compiled, fun c ↦ accepts_compile compiled⟩

/-- A customer who has ordered once, a second after the beginning of 1970. -/
def buyer : Customer :=
  ⟨⟨1⟩, "Ann", "ann@xeno.in", none, 250.0, 1, Instant.ofParts? 1 0, .epoch, .active, ["Premium"],
    .empty, .usual, .epoch, .epoch⟩

/-- A rule that names a time in the evening of that day. -/
def thatEvening : Rule := ⟨"lastPurchaseDate", .equal, .text "1970-01-01T21:30:00Z", .and⟩

/-- The time of day does not matter. -/
theorem compile_reads_thatEvening :
    thatEvening.operator.isRecognized = true ∧
      ∃ d, thatEvening.compile = some d ∧ d.accepts buyer = true := by
  have recognized : thatEvening.operator.isRecognized = true := by decide
  obtain ⟨d, compiled, reads⟩ := compile_reads thatEvening recognized
  have evening : thatEvening.value.instant? = Instant.ofParts? 77400 0 := by decide
  have reading : thatEvening.Reads buyer :=
    ⟨.instant (Instant.ofParts? 1 0), rfl, _, _, rfl, evening, by decide, by decide⟩
  exact ⟨recognized, d, compiled, (reads buyer).mpr reading⟩

end Outreach.Rule
