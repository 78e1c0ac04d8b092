/-!
# JSON values

Values as they are exchanged. A number keeps the form in which it is written, since a count may be
read from an integer only; an object keeps its entries in the order of the text, with the repeated
ones.
-/

namespace Outreach

/-- A number by the form of its literal. -/
inductive Json.Number where
  | natural (n : UInt64)
  /-- An integer below zero, by its magnitude. -/
  | negative (magnitude : UInt64)
  /-- A number with a fraction or an exponent, or an integer of another size. -/
  | real (x : Float)
deriving DecidableEq, Inhabited

inductive Json where
  | null
  | bool (b : Bool)
  | number (n : Json.Number)
  | text (s : String)
  | array (items : List Json)
  | object (entries : List (String × Json))
  /-- A literal of the right form that denotes nothing: a number beyond all doubles, or a text with
  half of a pair of surrogates. It can be passed over but not read. -/
  | unreadable
deriving Inhabited

namespace Json

/-! ## Making values -/

def ofCount (n : UInt64) : Json := .number (.natural n)

def ofSize (n : Nat) : Json := .number (.natural n.toUInt64)

/-- A double; what is not finite is absent. -/
def ofFloat (x : Float) : Json := if x.isFinite then .number (.real x) else .null

def ofOption {α : Type} (f : α → Json) : Option α → Json
  | some a => f a
  | none => .null

def ofList {α : Type} (f : α → Json) (xs : List α) : Json := .array (xs.map f)

def ofText? : Option String → Json := ofOption .text

@[simp] theorem ofOption_none {α : Type} (f : α → Json) : ofOption f none = .null := rfl
@[simp] theorem ofOption_some {α : Type} (f : α → Json) (a : α) : ofOption f (some a) = f a := rfl

/-! ## Looking into values -/

/-- The value under a name: of the first entry that has it. -/
def get? (name : String) : Json → Option Json
  | .object entries => entries.lookup name
  | _ => none

/-- The value under a name, absent if there is none. -/
def get (name : String) (j : Json) : Json := (j.get? name).getD .null

/-! ## Entries by name alone -/

/-- An entry replaces an earlier one of its name, in whose place it stands. -/
def putEntry (entry : String × Json) : List (String × Json) → List (String × Json)
  | [] => [entry]
  | e :: es => if e.1 = entry.1 then entry :: es else e :: putEntry entry es

mutual

/-- The value in which no object repeats a name; the last entry of a name counts. -/
def collapse : Json → Json
  | .array items => .array (collapseItems items)
  | .object entries => .object (collapseEntries [] entries)
  | j => j

/-- `collapse` on every item. -/
def collapseItems : List Json → List Json
  | [] => []
  | j :: js => j.collapse :: collapseItems js

/-- `collapse` on every entry, the names before them being those of `done`. -/
def collapseEntries (done : List (String × Json)) : List (String × Json) → List (String × Json)
  | [] => done
  | (name, j) :: es => collapseEntries (putEntry (name, j.collapse) done) es

end

end Json

end Outreach
