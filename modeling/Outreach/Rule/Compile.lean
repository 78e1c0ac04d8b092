import Outreach.Decimal.Notation
import Outreach.Decimal.Reading
import Outreach.Rule.Condition

/-!
# From rules to conditions

The value of a rule is read as the kind of its field demands: as a number, as an instant or as a
text. A number is an instant by its milliseconds; a text is either by its spelling, white space
around it aside.

A rule without an operator has no condition. A rule about an unknown field, or with a value that
cannot be read as the kind of the field, is one that no customer satisfies, except that a value that
cannot be read differs from everything.
-/

namespace Outreach.Rule

open Calendar Decimal Text

/-! ## Readings of a value -/

namespace Value

def number? : Value → Option Float
  | .number x => if x.isFinite then some x else none
  | .text s => (float? (trimChars s.toList)).filter Float.isFinite

def instant? : Value → Option Instant
  | .number x => (Binary.ofFloat? x).bind fun b ↦ Instant.ofMillis? b.truncate
  | .text s => Instant.ofSpelling? (trimChars s.toList)

def asText : Value → String
  | .number x => numberText x
  | .text s => s

@[simp] theorem asText_text (s : String) : asText (.text s) = s := rfl
@[simp] theorem asText_number (x : Float) : asText (.number x) = numberText x := rfl

end Value

/-! ## Conditions -/

/-- The value as the kind of a field, for the question whether they are equal. -/
def Value.operand? (v : Value) : Field.Kind → Option Operand
  | .number => v.number?.map .number
  | .instant => v.instant?.map .instant
  | .text | .textList => some (.text v.asText)

/-- The test for an ordering; texts have none. -/
def Value.ordering? (v : Value) (c : Comparison) : Field.Kind → Option Test
  | .number => v.number?.map fun x ↦ .compare c (.number x)
  | .instant => v.instant?.map fun t ↦ .compare c (.instant t)
  | .text | .textList => none

/-- The test whether an instant lies on the day of another. The day after the last has no
beginning, so the last day has no such test. -/
def sameDay? (t : Instant) : Option Test := do
  let first ← Instant.ofDayNumber? t.dayNumber
  return .within first (← first.addSeconds? 86400)

/-- The test of an operator and a value on a field of some kind, if the value can be read. -/
def test? (field : Field) (kind : Field.Kind) (v : Value) : Operator → Option Test
  | .greater => v.ordering? .greater kind
  | .less => v.ordering? .less kind
  | .atLeast => v.ordering? .atLeast kind
  | .atMost => v.ordering? .atMost kind
  | .equal =>
    if field = .lastPurchaseDate then v.instant?.bind sameDay? else (v.operand? kind).map .equals
  | .notEqual => some (((v.operand? kind).map .notEquals).getD .always)
  | .contains => some (.contains (lower v.asText))
  | .notContains => some (.notContains (lower v.asText))
  | .unrecognized _ => none

/-- The condition of a rule, if its operator is one. -/
def compile (r : Rule) : Option Condition :=
  let field := Field.ofName r.field
  if !r.operator.isRecognized then none
  else match field.kind? with
    | none => some ⟨field, .never⟩
    | some kind => some ⟨field, (test? field kind r.value r.operator).getD .never⟩

end Outreach.Rule
