import Outreach.Http.Request
import Outreach.Text.Scan

/-!
# Media types

The header that says what a body is: a type and a subtype, and parameters that do not matter here. A
body is JSON if its subtype is, or the suffix of its subtype.
-/

namespace Outreach.Http.MediaType

open Text Text.Scan

/-- A character of a name, in a type or a parameter. -/
def isNameChar (c : Char) : Bool := Method.isTokenChar c

def name : Scan (List Char) := do
  let cs ← takeWhile isNameChar
  if cs.isEmpty then failure
  return cs

/-- A character that may stand between quotation marks. -/
def isQuotedChar (c : Char) : Bool := 0x1F < c.toNat && c.toNat != 0x7F

/-- A value behind its opening quotation mark; the first character is taken as it is. -/
def quotedValue : Scan Unit := do
  let _ ← next isQuotedChar
  let _ ← takeWhile fun c ↦ isQuotedChar c && c != '"'
  char '"'
  let _ ← takeWhile (· == ' ')

/-- The value of a parameter up to the next semicolon or the end. -/
def parameterValue : Scan Unit := do
  if ← optional (· == '"') then quotedValue
  else
    let cs ← takeWhile isNameChar
    let rest ← rest
    if cs.isEmpty && !rest.isEmpty then failure
    set rest

/-- Parameters; each is behind a semicolon, the last of which may stand alone. The argument bounds
their number. -/
def parameters : Nat → Scan Unit
  | 0 => failure
  | fuel + 1 => do
    if ← optional (· == ';') then
      let _ ← takeWhile (· == ' ')
      let cs ← rest
      if cs.isEmpty then return ()
      set cs
      let _ ← name
      char '='
      parameterValue
      parameters fuel
    else return ()

/-- The type and the subtype of a header. -/
def types (length : Nat) : Scan (List Char × List Char) := do
  let a ← name
  char '/'
  let b ← name
  parameters (length + 1)
  return (a, b)

/-- The part of a subtype in front of its last plus sign, and the part behind it. -/
def splitSuffix (cs : List Char) : List Char × Option (List Char) :=
  let behind := cs.reverse.takeWhile (· != '+')
  let before := (cs.reverse.drop (behind.length + 1)).reverse
  if behind.length = cs.length ∨ before.isEmpty then (cs, none) else (before, some behind.reverse)

def json : List Char := ['j', 's', 'o', 'n']

/-- The header says that the body is JSON. -/
def isJson (header : String) : Bool :=
  let cs := header.toList.map Char.toLower
  match (types cs.length).all? cs with
  | some (a, b) =>
    let (sub, suffix) := splitSuffix b
    a == ['a', 'p', 'p', 'l', 'i', 'c', 'a', 't', 'i', 'o', 'n'] && (sub == json || suffix == some json)
  | none => false

end Outreach.Http.MediaType
