import Outreach.Proofs.Decimal.Numerals
import Outreach.Proofs.Rule.Acceptance
import Outreach.Proofs.Text.Blank

/-!
# Values that are written in several ways

What a rule asks for does not depend on how its value is written, as long as the value is read as the
same by the kind of the field. A whole number may be given as a number or as the text of its digits.
-/

namespace Outreach.Rule

open Decimal Text

variable {v w : Value} {n : Int}

/-! ## What a condition depends on -/

/-- Of a value, the test of a number or of texts takes the number and the text. -/
theorem test?_congr {field : Field} {kind : Field.Kind} (known : field.kind? = some kind)
    (undated : kind ≠ .instant) (number : v.number? = w.number?) (text : v.asText = w.asText)
    (op : Operator) : test? field kind v op = test? field kind w op := by
  have other : field ≠ .lastPurchaseDate := by
    rintro rfl
    exact undated (Option.some.inj known).symm
  have operand : v.operand? kind = w.operand? kind := by
    cases kind with
    | instant => exact absurd rfl undated
    | number => rw [Value.operand?, number, Value.operand?]
    | text | textList => rw [Value.operand?, text, Value.operand?]
  have ordering (c : Comparison) : v.ordering? c kind = w.ordering? c kind := by
    cases kind with
    | instant => exact absurd rfl undated
    | number => rw [Value.ordering?, number, Value.ordering?]
    | text | textList => rfl
  cases op <;> simp only [test?, if_neg other, operand, ordering, text]

/-- Values that are the same number and the same text make the same condition on every field that
is no date. -/
theorem compile_congr {field : String} (undated : (Field.ofName field).kind? ≠ some .instant)
    (number : v.number? = w.number?) (text : v.asText = w.asText) (op : Operator) (l : Logic) :
    compile ⟨field, op, v, l⟩ = compile ⟨field, op, w, l⟩ := by
  simp only [compile]
  split
  · rfl
  · split
    · rfl
    · next kind known =>
      rw [test?_congr known (fun instant ↦ undated (known.trans (congrArg some instant))) number text]

/-- Of a value, the orderings and the equality of instants take the instant. -/
theorem test?_congr_instant (same : v.instant? = w.instant?) (field : Field) {op : Operator}
    (contains : op ≠ .contains) (notContains : op ≠ .notContains) :
    test? field .instant v op = test? field .instant w op := by
  cases op with
  | contains => exact absurd rfl contains
  | notContains => exact absurd rfl notContains
  | _ => simp only [test?, Value.operand?, Value.ordering?, same]

/-- Values that are the same instant make the same condition on a date, unless it is searched for a
text. -/
theorem compile_congr_instant {field : String} (dated : (Field.ofName field).kind? = some .instant)
    (same : v.instant? = w.instant?) {op : Operator} (contains : op ≠ .contains)
    (notContains : op ≠ .notContains) (l l' : Logic) :
    compile ⟨field, op, v, l⟩ = compile ⟨field, op, w, l'⟩ := by
  simp only [compile, dated, test?_congr_instant same _ contains notContains]

/-- The fields that hold instants have these two names. -/
theorem kind?_ofName_ne_instant {field : String} (last : field ≠ "lastPurchaseDate")
    (registration : field ≠ "registrationDate") :
    (Field.ofName field).kind? ≠ some .instant := by
  unfold Field.ofName
  split
  all_goals first
    | contradiction
    | exact fun kind ↦ nomatch kind

/-! ## Whole numbers -/

namespace Value

theorem asText_whole (small : n.natAbs < 10 ^ 15) :
    (Value.number (whole n)).asText = toString n := by
  obtain ⟨b, read, isWhole, value⟩ := isWhole_whole (n := n) (by omega)
  rw [asText_number, numberText_of_isWhole read isWhole (value ▸ small), value]

theorem number?_whole (small : n.natAbs < 10 ^ 15) :
    (Value.number (whole n)).number? = some (whole n) :=
  if_pos (isFinite_whole (by omega))

/-- The text of an integer has no white space at its ends. -/
theorem trimmed_decimalInt (n : Int) : Trimmed (decimalInt n) := by
  refine .of_forall fun c hc ↦ ?_
  unfold decimalInt at hc
  split at hc
  · rcases List.mem_cons.mp hc with rfl | digit
    · decide
    · exact isBlank_of_isDigit (isDigit_of_mem_decimal digit)
  · exact isBlank_of_isDigit (isDigit_of_mem_decimal hc)

theorem number?_toString (small : n.natAbs < 10 ^ 15) :
    (Value.text (toString n)).number? = some (whole n) := by
  rw [number?, ← decimalInt_eq, (trimmed_decimalInt n).trimChars_eq, float?_decimalInt (by omega),
    Option.filter_some, if_pos (isFinite_whole (by omega))]

end Value

/-- A whole number of less than 16 digits may be given as a number or as a text. Under every operator,
and on every field that is no date, both make the same condition, and so they hold of the same
customers. Every double of this value is shown in the digits of the number, behind a sign only where it
is negative, and these digits are read as the double of exactly this value. -/
theorem compile_whole_eq_compile_toString (n : Int) (small : n.natAbs < 10 ^ 15) :
    (∀ field op l, field ≠ "lastPurchaseDate" → field ≠ "registrationDate" →
      compile ⟨field, op, .number (whole n), l⟩ = compile ⟨field, op, .text (toString n), l⟩ ∧
      ∀ c, Holds ⟨field, op, .number (whole n), l⟩ c ↔ Holds ⟨field, op, .text (toString n), l⟩ c) ∧
    (∀ x b, Binary.ofFloat? x = some b → b.isWhole = true → b.truncate = n →
      (Value.number x).asText = toString n) ∧
    (∃ ds, ds ≠ [] ∧ (∀ d ∈ ds, isDigit d = true) ∧
      (toString n).toList = if n < 0 then '-' :: ds else ds) ∧
    ∃ x b, (Value.text (toString n)).number? = some x ∧ (Value.number x).number? = some x ∧
      Binary.ofFloat? x = some b ∧ b.isWhole = true ∧ b.truncate = n := by
  refine ⟨?_, ?_, ?_, ?_⟩
  · intro field op l last registration
    have same := compile_congr (kind?_ofName_ne_instant last registration)
      ((Value.number?_whole small).trans (Value.number?_toString small).symm)
      (Value.asText_whole small) op l
    refine ⟨same, fun c ↦ ?_⟩
    rw [Holds, same, Holds]
  · intro x b read isWhole value
    rw [Value.asText_number, numberText_of_isWhole read isWhole (value ▸ small), value]
  · refine ⟨decimal n.natAbs, Nat.toDigits_ne_nil, fun d ↦ isDigit_of_mem_decimal, ?_⟩
    rw [← decimalInt_eq, decimalInt]
  · obtain ⟨b, read, isWhole, value⟩ := isWhole_whole (n := n) (by omega)
    exact ⟨whole n, b, Value.number?_toString small, Value.number?_whole small, read, isWhole, value⟩

/-- A rule about a text takes a negative number of two digits as it is written. -/
theorem compile_whole_eq_compile_toString_negative :
    (-12 : Int).natAbs < 10 ^ 15 ∧
      compile ⟨"name", .contains, .number (whole (-12)), .or⟩ =
        compile ⟨"name", .contains, .text "-12", .or⟩ ∧
      compile ⟨"visits", .atMost, .number (whole (-12)), .and⟩ =
        compile ⟨"visits", .atMost, .text "-12", .and⟩ ∧
      (Value.number (whole (-12))).asText = "-12" := by
  have small : (-12 : Int).natAbs < 10 ^ 15 := by decide
  obtain ⟨same, shown, -, -⟩ :=
    compile_whole_eq_compile_toString (-12) small
  have digits : toString (-12 : Int) = "-12" := by decide
  rw [digits] at same shown
  obtain ⟨b', read', isWhole', value'⟩ := isWhole_whole (n := -12) (by decide)
  exact ⟨small, (same "name" .contains .or (by decide) (by decide)).1,
    (same "visits" .atMost .and (by decide) (by decide)).1, shown _ b' read' isWhole' value'⟩

end Outreach.Rule
