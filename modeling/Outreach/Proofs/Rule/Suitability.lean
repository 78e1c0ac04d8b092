import Outreach.Proofs.Rule.Reading
import Outreach.Proofs.Text.Lowercase

/-!
# Tests that suit their fields

A test is applied to whatever content the field of its condition has, and where an operand is of
another kind than the content, the test just fails. This never happens to the test of a rule, since
the operand is read as the kind of the field in the first place. So on a field that is known, a test
of a rule is decided by what the content is and what the operand is, unless the content is missing.

Which tests suit a field of some kind is an inductive predicate (`Test.Suits`), and the verdict of a
test is once more written down without the case that takes in all others (`Test.verdict?`).
-/

namespace Outreach.Rule

open Calendar Text

/-! ## Suitable tests -/

/-- The operand is of the kind of a field; a number is a finite one. -/
inductive Operand.Suits : Operand → Field.Kind → Prop
  | number {x : Float} (finite : x.isFinite = true) : Suits (.number x) .number
  | instant (t : Instant) : Suits (.instant t) .instant
  | text (s : String) : Suits (.text s) .text
  | textList (s : String) : Suits (.text s) .textList

/-- The test is one for a field of a kind. -/
inductive Test.Suits (field : Field) (kind : Field.Kind) : Test → Prop
  | never : Suits field kind .never
  | always : Suits field kind .always
  | compare (k : Comparison) {operand : Operand} (suits : operand.Suits kind)
    (ordered : kind = .number ∨ kind = .instant) : Suits field kind (.compare k operand)
  | equals {operand : Operand} (suits : operand.Suits kind) : Suits field kind (.equals operand)
  | notEquals {operand : Operand} (suits : operand.Suits kind) :
    Suits field kind (.notEquals operand)
  /-- Only the date of the last order is compared with a day, which ends when the next one begins. -/
  | within {first last : Instant} (date : field = .lastPurchaseDate) (instant : kind = .instant)
    (day : last.secs = first.secs + 86400) (begins : first.nanos = 0) (ends : last.nanos = 0) :
    Suits field kind (.within first last)
  /-- What is to occur is in small letters. -/
  | contains {needle : String} (small : lower needle = needle) : Suits field kind (.contains needle)
  | notContains {needle : String} (small : lower needle = needle) :
    Suits field kind (.notContains needle)

/-- The value cannot be read as what a field of the kind holds. -/
def Value.Unreadable (v : Value) : Field.Kind → Prop
  | .number => v.number? = none
  | .instant => v.instant? = none
  | .text | .textList => False

section Suits

variable {field : Field} {kind : Field.Kind} (v : Value)

theorem Value.operand?_eq_none_iff : v.operand? kind = none ↔ v.Unreadable kind := by
  cases kind <;> simp [Value.operand?, Value.Unreadable]

/-- A value is read as the kind of the field. -/
theorem Value.operand?_suits {operand : Operand} (h : v.operand? kind = some operand) :
    operand.Suits kind := by
  cases kind with
  | number =>
    obtain ⟨x, read, rfl⟩ := Option.map_eq_some_iff.mp h
    exact .number (isFinite_of_number? read)
  | instant =>
    obtain ⟨t, -, rfl⟩ := Option.map_eq_some_iff.mp h
    exact .instant t
  | text =>
    cases h
    exact .text _
  | textList =>
    cases h
    exact .textList _

/-- How the test of an operator and a value comes about. -/
inductive Value.Asks (field : Field) (kind : Field.Kind) : Operator → Test → Prop
  /-- The operator has no test for this value on this field. -/
  | nothing {op : Operator} : Asks field kind op .never
  /-- The content is to stand in an ordering to the value. -/
  | ordering {op : Operator} (k : Comparison) {operand : Operand}
    (read : v.operand? kind = some operand) (ordered : kind = .number ∨ kind = .instant) :
    Asks field kind op (.compare k operand)
  /-- The content is to fall on the day of the value. -/
  | day {first last : Instant} {u : Instant} (date : field = .lastPurchaseDate)
    (test : sameDay? u = some (.within first last)) : Asks field kind .equal (.within first last)
  | same {operand : Operand} (read : v.operand? kind = some operand) :
    Asks field kind .equal (.equals operand)
  /-- The content is to be another one than the value. -/
  | other {operand : Operand} (read : v.operand? kind = some operand) :
    Asks field kind .notEqual (.notEquals operand)
  /-- From a value that cannot be read, everything differs. -/
  | all (unread : v.operand? kind = none) : Asks field kind .notEqual .always
  | occurs : Asks field kind .contains (.contains (lower v.asText))
  | lacks : Asks field kind .notContains (.notContains (lower v.asText))

theorem Value.asks_ordering (op : Operator) (k : Comparison) :
    v.Asks field kind op ((v.ordering? k kind).getD .never) := by
  cases kind with
  | number =>
    cases read : v.number? with
    | none =>
      rw [ordering?, read]
      exact .nothing
    | some x =>
      rw [ordering?, read]
      exact .ordering k (by rw [operand?, read]; rfl) (.inl rfl)
  | instant =>
    cases read : v.instant? with
    | none =>
      rw [ordering?, read]
      exact .nothing
    | some u =>
      rw [ordering?, read]
      exact .ordering k (by rw [operand?, read]; rfl) (.inr rfl)
  | text | textList => exact .nothing

/-- The test for a day has a beginning and an end. -/
theorem exists_within {u : Instant} {t : Test} (h : sameDay? u = some t) :
    ∃ first last, t = .within first last ∧ Instant.ofDayNumber? u.dayNumber = some first ∧
      first.addSeconds? 86400 = some last := by
  simp only [sameDay?, Option.bind_eq_bind, Option.bind_eq_some_iff, Option.pure_def,
    Option.some.injEq] at h
  obtain ⟨first, begins, last, ends, rfl⟩ := h
  exact ⟨first, last, rfl, begins, ends⟩

theorem Value.asks_equality :
    v.Asks field kind .equal ((test? field kind v .equal).getD .never) := by
  simp only [test?]
  split
  · next date =>
    cases made : v.instant?.bind sameDay? with
    | none => exact .nothing
    | some t =>
      obtain ⟨u, -, day⟩ := Option.bind_eq_some_iff.mp made
      obtain ⟨first, last, rfl, -⟩ := exists_within day
      exact .day date day
  · cases read : v.operand? kind with
    | none => exact .nothing
    | some operand => exact .same read

/-- The test of an operator comes about in one of these ways. -/
theorem Value.asks_test? (field : Field) (op : Operator) :
    v.Asks field kind op ((test? field kind v op).getD .never) := by
  cases op with
  | greater | less | atLeast | atMost => exact v.asks_ordering _ _
  | equal => exact v.asks_equality
  | notEqual =>
    cases read : v.operand? kind with
    | none =>
      simp only [test?, read]
      exact .all read
    | some operand =>
      simp only [test?, read]
      exact .other read
  | contains => exact .occurs
  | notContains => exact .lacks
  | unrecognized raw => exact .nothing

namespace Value.Asks

variable {v : Value} {op : Operator} {t : Test}

/-- The test of an operator suits the field. -/
theorem suits (h : v.Asks field kind op t) (known : field.kind? = some kind) :
    t.Suits field kind := by
  cases h with
  | nothing => exact .never
  | ordering k read ordered => exact .compare k (v.operand?_suits read) ordered
  | @day first last u date test =>
    subst date
    cases known
    obtain ⟨_, _, same, begins, ends⟩ := exists_within test
    cases same
    have start := Instant.ofParts?_eq_some_iff.mp begins
    rw [Instant.addSeconds?, if_pos (.inl (by omega))] at ends
    have stop := Instant.ofParts?_eq_some_iff.mp ends
    exact .within rfl rfl stop.1 start.2 (stop.2.trans start.2)
  | same read => exact .equals (v.operand?_suits read)
  | other read => exact .notEquals (v.operand?_suits read)
  | all => exact .always
  | occurs => exact .contains (lower_lower _)
  | lacks => exact .notContains (lower_lower _)

/-- Everything satisfies the test only if something is to differ from what cannot be read. -/
theorem of_always (h : v.Asks field kind op .always) : op = .notEqual ∧ v.Unreadable kind := by
  cases h with
  | all unread => exact ⟨rfl, v.operand?_eq_none_iff.mp unread⟩

/-- What is to occur, or not to occur, is the value in small letters. -/
theorem of_needle {needle : String} (h : v.Asks field kind op t)
    (occurs : t = .contains needle ∨ t = .notContains needle) : needle = lower v.asText := by
  cases h with
  | occurs | lacks =>
    rcases occurs with same | same <;> cases same
    rfl
  | _ => rcases occurs with same | same <;> cases same

end Value.Asks

end Suits

/-! ## Verdicts -/

namespace Field.Content

def Missing : Content → Prop
  | .instant at? => at? = none
  | .text s => s = none
  | _ => False

end Field.Content

/-- What a test says of the content of a field, case by case; of cases that are not foreseen it says
nothing. -/
def Test.verdict? : Field.Content → Test → Option Bool
  | .number x, .compare k (.number y) => some (k.holds (fun a b ↦ a < b) (fun a b ↦ a ≤ b) x y)
  | .number x, .equals (.number y) => some (x == y)
  | .number x, .notEquals (.number y) => some (x != y)
  | .number x, .contains needle => some (containsLower (Decimal.numberText x) needle)
  | .number x, .notContains needle => some (!containsLower (Decimal.numberText x) needle)
  | .instant (some t), .compare k (.instant u) => some (k.holds Instant.lt Instant.le t u)
  | .instant (some t), .equals (.instant u) => some (t == u)
  | .instant none, .notEquals (.instant _) => some true
  | .instant (some t), .notEquals (.instant u) => some (t != u)
  | .instant (some t), .within first last => some (first.le t && t.lt last)
  | .instant (some t), .contains needle => some (containsLower t.millisText needle)
  | .instant none, .notContains _ => some true
  | .instant (some t), .notContains needle => some (!containsLower t.millisText needle)
  | .text (some s), .equals (.text t) => some (s == t)
  | .text none, .notEquals (.text _) => some true
  | .text (some s), .notEquals (.text t) => some (s != t)
  | .text (some s), .contains needle => some (containsLower s needle)
  | .text none, .notContains _ => some true
  | .text (some s), .notContains needle => some (!containsLower s needle)
  | .textList items, .equals (.text t) => some (items.any (· == t))
  | .textList items, .notEquals (.text t) => some (items.all (· != t))
  | .textList items, .contains needle => some (items.any (containsLower · needle))
  | .textList items, .notContains needle => some (!items.any (containsLower · needle))
  | _, _ => none

/-- The verdict is what the test comes to; without one it fails. -/
theorem Test.onContent_eq (content : Field.Content) (t : Test) :
    t.onContent content = (t.verdict? content).getD false := by
  cases content with
  | number x | textList items =>
    cases t with
    | compare _ o | equals o | notEquals o =>
      cases o <;> simp [verdict?, onContent, onNumber, onTextList]
    | _ => simp [verdict?, onContent, onNumber, onTextList]
  | instant content | text content =>
    cases content <;> cases t with
    | compare _ o | equals o | notEquals o =>
      cases o <;> simp [verdict?, onContent, onInstant, onText]
    | _ => simp [verdict?, onContent, onInstant, onText]

section Verdicts

variable {field : Field} {t : Test} {content : Field.Content}

/-- The content of a kind that is there is one that an operand of the kind is compared with. -/
theorem Operand.Suits.exists_verdict {o : Operand} (suits : o.Suits content.kind)
    (there : ¬content.Missing) : (∃ b, (Test.equals o).verdict? content = some b) ∧
      (∃ b, (Test.notEquals o).verdict? content = some b) ∧
      ∀ k, content.kind = .number ∨ content.kind = .instant →
        ∃ b, (Test.compare k o).verdict? content = some b := by
  cases content with
  | number x =>
    cases suits
    exact ⟨⟨_, rfl⟩, ⟨_, rfl⟩, fun _ _ ↦ ⟨_, rfl⟩⟩
  | instant at? =>
    cases suits
    cases at? with
    | none => exact absurd rfl there
    | some u => exact ⟨⟨_, rfl⟩, ⟨_, rfl⟩, fun _ _ ↦ ⟨_, rfl⟩⟩
  | text s =>
    cases suits
    cases s with
    | none => exact absurd rfl there
    | some s => exact ⟨⟨_, rfl⟩, ⟨_, rfl⟩, fun _ h ↦ by rcases h with h | h <;> cases h⟩
  | textList items =>
    cases suits
    exact ⟨⟨_, rfl⟩, ⟨_, rfl⟩, fun _ h ↦ by rcases h with h | h <;> cases h⟩

/-- A test that suits a field has a verdict on any content that is there. -/
theorem Test.Suits.exists_verdict (suits : t.Suits field content.kind) (there : ¬content.Missing)
    (never : t ≠ .never) (always : t ≠ .always) : ∃ b, t.verdict? content = some b := by
  cases suits with
  | never => exact absurd rfl never
  | always => exact absurd rfl always
  | compare k suits ordered => exact (suits.exists_verdict there).2.2 k ordered
  | equals suits => exact (suits.exists_verdict there).1
  | notEquals suits => exact (suits.exists_verdict there).2.1
  | within date instant =>
    cases content with
    | instant at? =>
      cases at? with
      | none => exact absurd rfl there
      | some u => exact ⟨_, rfl⟩
    | _ => cases instant
  | contains | notContains =>
    cases content with
    | number | textList => exact ⟨_, rfl⟩
    | instant content | text content =>
      cases content with
      | none => exact absurd rfl there
      | some content => exact ⟨_, rfl⟩

end Verdicts

/-! ## Conditions of rules -/

variable {r : Rule} {d : Condition} {kind : Field.Kind}

/-- The condition of a rule about a known field, with its parts. -/
theorem compile_of_known (compiled : r.compile = some d) (known : d.field.kind? = some kind) :
    d = ⟨Field.ofName r.field,
      (test? (Field.ofName r.field) kind r.value r.operator).getD .never⟩ := by
  unfold compile at compiled
  cases recognized : r.operator.isRecognized with
  | false => simp [recognized] at compiled
  | true =>
    simp only [recognized] at compiled
    cases kind? : (Field.ofName r.field).kind? with
    | none =>
      simp only [kind?] at compiled
      cases compiled
      rw [kind?] at known
      cases known
    | some kind' =>
      simp only [kind?] at compiled
      cases compiled
      rw [kind?] at known
      cases known
      rfl

/-- The test of a rule about a known field suits the field. Everybody satisfies it if and only if the
rule asks for something else than a value that cannot be read as what the field holds, and whatever is
to occur is the text of the value in small letters. Unless the test is one that everybody or nobody
satisfies, it has a verdict on all customers of whom the field is not missing, and the verdict is
whether they satisfy the condition. -/
theorem compile_suits (compiled : r.compile = some d) (known : d.field.kind? = some kind) :
    d.test.Suits d.field kind ∧
    (d.test = .always ↔ r.operator = .notEqual ∧ r.value.Unreadable kind) ∧
    (∀ needle, d.test = .contains needle ∨ d.test = .notContains needle →
      needle = lower r.value.asText) ∧
    ∀ c content, d.field.read? c = some content → ¬content.Missing → d.test ≠ .never →
      d.test ≠ .always → d.test.verdict? content = some (d.accepts c) := by
  have parts := compile_of_known compiled known
  have asks : r.value.Asks d.field kind r.operator d.test := by
    rw [parts]
    exact r.value.asks_test? _ _
  have suits := asks.suits known
  refine ⟨suits, ⟨fun always ↦ (always ▸ asks).of_always, ?_⟩, fun needle ↦ asks.of_needle, ?_⟩
  · rintro ⟨differs, unread⟩
    rw [parts]
    simp [test?, differs, r.value.operand?_eq_none_iff.mpr unread]
  · intro c content read there never always
    have kinds := Field.kind_read? d.field c
    rw [read, known, Option.map_some] at kinds
    cases kinds
    obtain ⟨b, verdict⟩ := suits.exists_verdict there never always
    have accepts : d.accepts c = b := by
      rw [Bool.eq_iff_iff, accepts_of_read? read, Test.Passes, or_iff_right always,
        Test.onContent_eq, verdict, Option.getD_some]
    rw [verdict, accepts]

/-- The customer who has ordered on the day of the rule gets a verdict. -/
theorem compile_suits_thatEvening :
    ∃ d, thatEvening.compile = some d ∧ d.field.kind? = some .instant ∧
      d.test.Suits d.field .instant ∧
      d.test.verdict? (.instant buyer.lastPurchaseDate) = some (d.accepts buyer) := by
  obtain ⟨d, compiled⟩ := exists_compile (r := thatEvening) rfl
  have made : thatEvening.compile.map (fun d ↦ (d.field, d.test == .never, d.test == .always)) =
      some (.lastPurchaseDate, false, false) := by decide +kernel
  rw [compiled, Option.map_some, Option.some.injEq, Prod.mk.injEq, Prod.mk.injEq] at made
  obtain ⟨field, never, always⟩ := made
  have known : d.field.kind? = some .instant := by rw [field]; rfl
  have read : d.field.read? buyer = some (.instant buyer.lastPurchaseDate) := by rw [field]; rfl
  have there : buyer.lastPurchaseDate ≠ none := by decide
  obtain ⟨suits, -, -, verdict⟩ := compile_suits compiled known
  refine ⟨d, compiled, known, suits, verdict buyer _ read there ?_ ?_⟩
  · exact beq_eq_false_iff_ne.mp never
  · exact beq_eq_false_iff_ne.mp always

end Outreach.Rule
