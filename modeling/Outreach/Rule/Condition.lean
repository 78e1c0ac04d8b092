import Outreach.Calendar.Writing
import Outreach.Decimal.Notation
import Outreach.Rule.Field
import Outreach.Text.Lowercase

/-!
# Conditions

A condition is a rule made ready for testing: its field is known, and its value has been read as the
kind of the field. A field with several texts satisfies a positive test if one of them does, and a
negative one if none of them contradicts it.
-/

namespace Outreach.Rule

open Calendar Text

/-- An ordering between what a field holds and a value. -/
inductive Comparison where
  | greater
  | less
  | atLeast
  | atMost
deriving DecidableEq, Repr

/-- The ordering holds, in terms of a strict and a wide order. -/
def Comparison.holds {α : Type} (lt le : α → α → Bool) (c : Comparison) (actual expected : α) :
    Bool :=
  match c with
  | .greater => lt expected actual
  | .less => lt actual expected
  | .atLeast => le expected actual
  | .atMost => le actual expected

/-- A value of the kind of a field. -/
inductive Operand where
  | number (x : Float)
  | instant (t : Instant)
  | text (s : String)
deriving DecidableEq

/-- What is asked of a field. -/
inductive Test where
  | never
  | always
  /-- The field stands in an ordering to the operand. -/
  | compare (c : Comparison) (operand : Operand)
  | equals (operand : Operand)
  | notEquals (operand : Operand)
  /-- The field lies from the first instant on and before the second. -/
  | within (first last : Instant)
  /-- The needle, in small letters, occurs in the field. -/
  | contains (needle : String)
  /-- The needle, in small letters, does not occur in the field. -/
  | notContains (needle : String)
deriving DecidableEq

/-- A test of a field. -/
structure Condition where
  field : Field
  test : Test
deriving DecidableEq

namespace Test

def onNumber (x : Float) : Test → Bool
  | .compare c (.number y) => c.holds (fun a b ↦ a < b) (fun a b ↦ a ≤ b) x y
  | .equals (.number y) => x == y
  | .notEquals (.number y) => x != y
  | .contains needle => containsLower (Decimal.numberText x) needle
  | .notContains needle => !containsLower (Decimal.numberText x) needle
  | _ => false

/-- An instant, which may be missing, satisfies the test. -/
def onInstant : Option Instant → Test → Bool
  | some t, .compare c (.instant u) => c.holds Instant.lt Instant.le t u
  | some t, .equals (.instant u) => t == u
  | none, .notEquals (.instant _) => true
  | some t, .notEquals (.instant u) => t != u
  | some t, .within first last => first.le t && t.lt last
  | some t, .contains needle => containsLower t.millisText needle
  | none, .notContains _ => true
  | some t, .notContains needle => !containsLower t.millisText needle
  | _, _ => false

/-- A text, which may be missing, satisfies the test. -/
def onText : Option String → Test → Bool
  | some s, .equals (.text t) => s == t
  | none, .notEquals (.text _) => true
  | some s, .notEquals (.text t) => s != t
  | some s, .contains needle => containsLower s needle
  | none, .notContains _ => true
  | some s, .notContains needle => !containsLower s needle
  | _, _ => false

/-- The texts of a list satisfy the test. -/
def onTextList (items : List String) : Test → Bool
  | .equals (.text t) => items.any (· == t)
  | .notEquals (.text t) => items.all (· != t)
  | .contains needle => items.any (containsLower · needle)
  | .notContains needle => !items.any (containsLower · needle)
  | _ => false

/-- The content of a field satisfies the test. -/
def onContent : Field.Content → Test → Bool
  | .number x, t => onNumber x t
  | .instant at?, t => onInstant at? t
  | .text s, t => onText s t
  | .textList items, t => onTextList items t

end Test

def Condition.accepts (c : Condition) (customer : Customer) : Bool :=
  match c.test with
  | .never => false
  | .always => true
  | t => match c.field.read? customer with
    | some content => t.onContent content
    | none => false

end Outreach.Rule
