import Outreach.Decimal.Reading
import Outreach.Json.Basic

/-!
# Reading JSON

The grammar of JSON over characters. A value is read by recursion on a bound for its size, which the
length of the text always is. `Json.ofLine?` reads a text that is one value; `Json.leading?` reads
the value at the beginning of a text and does not look further.
-/

namespace Outreach.Json

open Text Text.Scan

def isGap (c : Char) : Bool := c == ' ' || c == '\t' || c == '\n' || c == '\r'

def gap : Scan Unit := do let _ ← takeWhile isGap

/-- The next character, which is not taken. -/
def peek : Scan Char := fun
  | c :: cs => some (c, c :: cs)
  | [] => none

/-! ## Texts -/

/-- A piece of a text: a character, or half of a pair of surrogates. -/
inductive Piece where
  | char (c : Char)
  | high (unit : Nat)
  | low (unit : Nat)

/-- The characters of a list of pieces, if all halves are paired. -/
def joinPieces : List Piece → Option (List Char)
  | [] => some []
  | .char c :: ps => (joinPieces ps).map (c :: ·)
  | .high h :: .low l :: ps =>
    (joinPieces ps).map (Char.ofNat (0x10000 + (h - 0xD800) * 0x400 + (l - 0xDC00)) :: ·)
  | _ :: _ => none

/-- The piece that a code unit is. -/
def pieceOfUnit (n : Nat) : Piece :=
  if 0xD800 ≤ n && n < 0xDC00 then .high n
  else if 0xDC00 ≤ n && n < 0xE000 then .low n
  else .char (Char.ofNat n)

def escape : Scan Piece := do
  match ← next fun _ ↦ true with
  | '"' => return .char '"'
  | '\\' => return .char '\\'
  | '/' => return .char '/'
  | 'b' => return .char '\x08'
  | 'f' => return .char '\x0c'
  | 'n' => return .char '\n'
  | 'r' => return .char '\r'
  | 't' => return .char '\t'
  | 'u' =>
    let ds ← fun cs ↦ if cs.length < 4 then none else some (cs.take 4, cs.drop 4)
    match hexValueOf? ds with
    | some n => return pieceOfUnit n
    | none => failure
  | _ => failure

/-- The pieces up to the closing quotation mark. -/
def pieces : Nat → Scan (List Piece)
  | 0 => failure
  | fuel + 1 => do
    match ← next fun c ↦ 0x20 ≤ c.toNat with
    | '"' => return []
    | '\\' =>
      let p ← escape
      return p :: (← pieces fuel)
    | c => return .char c :: (← pieces fuel)

/-- A text behind its opening quotation mark; nothing if a half of a pair stands alone in it. -/
def quoted (fuel : Nat) : Scan (Option String) := do
  return (joinPieces (← pieces fuel)).map String.ofList

/-! ## Numbers -/

/-- Digits with no zero in front of others. -/
def wholeDigits : Scan (List Char) := do
  let ds ← takeWhile isDigit
  match ds with
  | [] => failure
  | '0' :: _ :: _ => failure
  | _ => return ds

/-- A point and digits, or nothing. -/
def fractionDigits : Scan (List Char) := do
  if ← optional (· == '.') then
    let ds ← takeWhile isDigit
    if ds.isEmpty then failure
    return ds
  else return []

/-- An exponent, or nothing. -/
def exponent? : Scan (Option Int) := do
  if ← optional fun c ↦ c == 'e' || c == 'E' then
    if ← optional (· == '-') then return some (-((← anyNat : Nat) : Int))
    let _ ← optional (· == '+')
    return some ((← anyNat : Nat) : Int)
  else return none

/-- A significand, grown by digits as long as 64 bits have room for it, and how many digits are left
over. -/
def grow (n : Nat) : List Char → Nat × Nat
  | [] => (n, 0)
  | d :: ds =>
    let next := 10 * n + digitValue d
    if next < UInt64.size then grow next ds else (n, ds.length + 1)

def tenTo (n : Nat) : Float := Decimal.nearest 1 n

/-- A double divided by a power of ten, and before that by the highest one some times. -/
def shrink (x : Float) (n : Nat) : Nat → Float
  | 0 => x / tenTo n
  | times + 1 => if x == 0.0 then x else shrink (x / tenTo 308) n times

/-- The double for a significand and a power of ten. The significand is rounded to a double before it
is multiplied or divided; what is beyond all doubles has none. -/
def scaled? (n : Nat) (exponent : Int) : Option Float :=
  let x := Decimal.ofCount n
  let size := exponent.natAbs
  let y :=
    if exponent < 0 then shrink x (size - 308 * ((size - 1) / 308)) ((size - 1) / 308)
    else if size ≤ 308 then x * tenTo size
    else if n = 0 then x
    else 1.0 / 0.0
  if y.isFinite then some y else none

/-- The number with a sign, digits before and after the point and an exponent, if there is one. It is
an integer if nothing but digits is written and 64 bits have room for it. -/
def number? (minus : Bool) (whole fraction : List Char) (exponent : Option Int) : Option Number :=
  let (n, left) := grow 0 whole
  let (n', left') := grow n fraction
  let size :=
    scaled? n' (left - (fraction.length - left' : Nat) + exponent.getD 0)
  if left = 0 ∧ fraction = [] ∧ exponent = none ∧ (minus = false ∨ 0 < n ∧ n ≤ 0x8000000000000000) then
    some (if minus then .negative n.toUInt64 else .natural n.toUInt64)
  else size.map fun x ↦ .real (if minus then -x else x)

/-- A number; one beyond all doubles cannot be read. -/
def numeral : Scan Json := do
  let minus ← optional (· == '-')
  let whole ← wholeDigits
  let fraction ← fractionDigits
  let e ← exponent?
  return ((number? minus whole fraction e).map .number).getD .unreadable

/-! ## Values -/

def word : List Char → Scan Unit
  | [] => pure ()
  | c :: cs => do char c; word cs

mutual

/-- A value with white space in front or none. -/
def value : Nat → Scan Json
  | 0 => failure
  | fuel + 1 => do
    gap
    match ← peek with
    | 'n' => word ['n', 'u', 'l', 'l']; return .null
    | 't' => word ['t', 'r', 'u', 'e']; return .bool true
    | 'f' => word ['f', 'a', 'l', 's', 'e']; return .bool false
    | '"' =>
      char '"'
      match ← quoted (fuel + 1) with
      | some s => return .text s
      | none => return .unreadable
    | '[' =>
      char '['
      gap
      if (← peek) = ']' then char ']'; return .array []
      return .array (← items fuel)
    | '{' =>
      char '{'
      gap
      if (← peek) = '}' then char '}'; return .object []
      match ← entries fuel with
      | some es => return .object es
      | none => return .unreadable
    | _ => numeral

/-- The items of an array and its end. -/
def items : Nat → Scan (List Json)
  | 0 => failure
  | fuel + 1 => do
    let j ← value fuel
    gap
    if ← optional (· == ',') then return j :: (← items fuel)
    char ']'
    return [j]

/-- The entries of an object and its end; nothing if a name cannot be read. -/
def entries : Nat → Scan (Option (List (String × Json)))
  | 0 => failure
  | fuel + 1 => do
    gap
    char '"'
    let name ← quoted fuel
    gap
    char ':'
    let j ← value fuel
    let entry := name.map (·, j)
    gap
    if ← optional (· == ',') then
      let es ← entries fuel
      return entry.bind fun e ↦ es.map (e :: ·)
    char '}'
    return entry.map ([·])

end

/-! ## Whole texts -/

mutual

/-- Every literal in the value denotes something, and arrays and objects are nested in each other at
most `depth` times. -/
def isPlain (depth : Nat) : Json → Bool
  | .unreadable => false
  | .array items => match depth with
    | 0 => false
    | depth + 1 => plainItems depth items
  | .object entries => match depth with
    | 0 => false
    | depth + 1 => plainEntries depth entries
  | _ => true

/-- `isPlain` of every item. -/
def plainItems (depth : Nat) : List Json → Bool
  | [] => true
  | j :: js => j.isPlain depth && plainItems depth js

/-- `isPlain` of every entry. -/
def plainEntries (depth : Nat) : List (String × Json) → Bool
  | [] => true
  | (_, j) :: es => j.isPlain depth && plainEntries depth es

end

/-- How deep arrays and objects may be nested. -/
def depthLimit : Nat := 127

/-- The value at the beginning of a text. -/
def leading? (s : String) : Option Json :=
  (value (s.toList.length + 1) s.toList).map (·.1)

/-- The value that a text is, with white space around it; no name of an object is repeated in it. -/
def ofLine? (s : String) : Option Json := do
  let j ← (do let j ← value (s.toList.length + 1); gap; return j : Scan Json).all? s.toList
  guard (j.isPlain depthLimit)
  return j.collapse

end Outreach.Json
