import Outreach.Json.Basic

/-!
# Reading records

How values become data. A record is read from an object, whose unknown entries do not matter and
whose known ones stand once, or from an array that lists its fields in order. `Fields` is the
computation that takes one field after the other from either.
-/

namespace Outreach.Json

variable {α : Type}

/-! ## Single values -/

def text? : Json → Option String
  | .text s => some s
  | _ => none

def bool? : Json → Option Bool
  | .bool b => some b
  | _ => none

/-- A double, from a number of any form. -/
def float? : Json → Option Float
  | .number (.natural n) => some n.toFloat
  | .number (.negative m) => some (-m.toFloat)
  | .number (.real x) => some x
  | _ => none

/-- A count, from an integer literal that is not negative. -/
def count? : Json → Option UInt64
  | .number (.natural n) => some n
  | _ => none

/-- A count of at most `most`. -/
def countUpTo? (most : Nat) (j : Json) : Option Nat := do
  let n ← j.count?
  guard (n.toNat ≤ most)
  return n.toNat

/-- A whole number of 64 bits with a sign, from an integer literal. -/
def whole? : Json → Option Int
  | .number (.natural n) => if n.toNat < 0x8000000000000000 then some n.toNat else none
  | .number (.negative m) => some (-(m.toNat : Int))
  | _ => none

/-- A list whose items are all read by `read`. -/
def list? (read : Json → Option α) : Json → Option (List α)
  | .array items => items.mapM read
  | _ => none

/-- A name out of a fixed choice, alone or as the single entry of an object with nothing in it. -/
def choice? (ofName? : String → Option α) : Json → Option α
  | .text s => ofName? s
  | .object [(name, .null)] => ofName? name
  | _ => none

def optional? (read : Json → Option α) : Json → Option (Option α)
  | .null => some none
  | j => (read j).map some

@[simp] theorem optional?_ofOption {f : α → Json} {read : Json → Option α} (o : Option α)
    (h : ∀ a, read (f a) = some a) (hf : ∀ a, f a ≠ .null) :
    optional? read (ofOption f o) = some o := by
  cases o with
  | none => rfl
  | some a =>
    simp only [ofOption_some]
    unfold optional?
    split
    · next he => exact absurd he (hf a)
    · simp [h]

/-! ## Fields -/

/-- What is left of a record while its fields are read. -/
inductive Source where
  | named (entries : List (String × Json))
  /-- The values of the fields that are still to come. -/
  | listed (items : List Json)

abbrev Fields (α : Type) := StateT Source Option α

namespace Fields

/-- The value of the next field, which has the given name; `none` where it is missing, and a refusal
where it is there twice. -/
def take (name : String) : Fields (Option Json) := fun
  | .named entries =>
    match entries.filter (·.1 == name) with
    | [] => some (none, .named entries)
    | [e] => some (some e.2, .named entries)
    | _ => none
  | .listed [] => some (none, .listed [])
  | .listed (j :: js) => some (some j, .listed js)

def isListed : Fields Bool := fun
  | .named es => some (false, .named es)
  | .listed js => some (true, .listed js)

/-- A field that has to be there. -/
def required (name : String) (read : Json → Option α) : Fields α := do
  match ← take name with
  | some j => StateT.lift (read j)
  | none => failure

/-- A field with a value for where it is missing. -/
def withDefault (name : String) (default : α) (read : Json → Option α) : Fields α := do
  match ← take name with
  | some j => StateT.lift (read j)
  | none => return default

/-- A field that may be absent or missing, but not from the end of an array. -/
def optional (name : String) (read : Json → Option α) : Fields (Option α) := do
  match ← take name with
  | some j => StateT.lift (optional? read j)
  | none => if ← isListed then failure else return none

/-- A field that may be absent or missing. -/
def optionalD (name : String) (read : Json → Option α) : Fields (Option α) :=
  withDefault name none (optional? read)

end Fields

/-- A record from its fields; an array must not hold more than these. -/
def record? (fields : Fields α) : Json → Option α
  | .object entries => (fields (.named entries)).map (·.1)
  | .array items =>
    match fields (.listed items) with
    | some (a, .listed []) => some a
    | _ => none
  | _ => none

end Outreach.Json
