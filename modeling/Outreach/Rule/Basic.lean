import Outreach.Json.Record

/-!
# Audience rules

A rule compares one field of a customer with a value. Rules come as they are posted: the name of the
field may be unknown, the operator may be no operator, and the value may not suit the field. Rule
lists can also be built, from the front to the back: each step appends one rule.
-/

namespace Outreach

/-- How a rule compares. -/
inductive Rule.Operator where
  | greater
  | less
  | atLeast
  | atMost
  | equal
  | notEqual
  | contains
  | notContains
  /-- A text that is no operator; a rule with it says nothing. -/
  | unrecognized (raw : String)
deriving DecidableEq, Repr

/-- How a rule is combined with the rules before it. -/
inductive Rule.Logic where
  | and
  | or
deriving DecidableEq, Repr

/-- What a rule compares with. -/
inductive Rule.Value where
  | number (x : Float)
  /-- A text, which may be the text of a number or of a date. -/
  | text (s : String)
deriving DecidableEq

structure Rule where
  field : String
  operator : Rule.Operator
  value : Rule.Value
  /-- How the rule is combined with those before it. -/
  logic : Rule.Logic
deriving DecidableEq

namespace Rule

namespace Operator

def text : Operator → String
  | .greater => ">"
  | .less => "<"
  | .atLeast => ">="
  | .atMost => "<="
  | .equal => "="
  | .notEqual => "!="
  | .contains => "contains"
  | .notContains => "not_contains"
  | .unrecognized raw => raw

def ofText : String → Operator
  | ">" => .greater
  | "<" => .less
  | ">=" => .atLeast
  | "<=" => .atMost
  | "=" => .equal
  | "!=" => .notEqual
  | "contains" => .contains
  | "not_contains" => .notContains
  | raw => .unrecognized raw

def isRecognized : Operator → Bool
  | .unrecognized _ => false
  | _ => true

end Operator

namespace Logic

def text : Logic → String
  | .and => "AND"
  | .or => "OR"

/-- The tag of a text; everything but the one word means "and". -/
def ofText (s : String) : Logic := if s = "OR" then .or else .and

@[simp] theorem ofText_text (l : Logic) : ofText l.text = l := by cases l <;> simp [ofText, text]

end Logic

/-! ## Rules as values -/

open Json Json.Fields

def Value.toJson : Value → Json
  | .number x => ofFloat x
  | .text s => .text s

def Value.ofJson? : Json → Option Value
  | .text s => some (.text s)
  | j => j.float?.map .number

def toJson (r : Rule) : Json :=
  .object [("field", .text r.field), ("operator", .text r.operator.text),
    ("value", r.value.toJson), ("logic", .text r.logic.text)]

def ofJson? : Json → Option Rule := record? do
  return { field := ← required "field" text?
           operator := ← required "operator" fun j ↦ j.text?.map .ofText
           value := ← required "value" Value.ofJson?
           logic := ← withDefault "logic" .and fun j ↦ j.text?.map .ofText }

/-! ## Building rule lists -/

namespace Builder

/-- Append a rule that has to hold. -/
def rule (rules : List Rule) (field operator : String) (value : Value) : List Rule :=
  rules ++ [⟨field, .ofText operator, value, .and⟩]

/-- Append a rule of which one has to hold. -/
def orRule (rules : List Rule) (field operator : String) (value : Value) : List Rule :=
  rules ++ [⟨field, .ofText operator, value, .or⟩]

/-- Append: more than an amount has been spent. -/
def spendingAbove (rules : List Rule) (amount : Float) : List Rule :=
  rule rules "totalSpending" ">" (.number amount)

/-- A whole number of 64 bits with a sign as a double. -/
def signedFloat (n : UInt64) : Float :=
  if n.toNat < 0x8000000000000000 then n.toFloat else -(0 - n).toFloat

/-- Append: there were at least a number of visits. The number goes through 64 bits with a sign. -/
def visitsAtLeast (rules : List Rule) (visits : UInt64) : List Rule :=
  rule rules "visits" ">=" (.number (signedFloat visits))

/-- Append: the customer lives in a city. -/
def inCity (rules : List Rule) (city : String) : List Rule :=
  rule rules "address.city" "=" (.text city)

/-- Append: a label contains a text. -/
def withTag (rules : List Rule) (tag : String) : List Rule :=
  rule rules "tags" "contains" (.text tag)

end Builder

end Rule

end Outreach
