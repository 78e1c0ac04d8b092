import Outreach.Json.Record
import Outreach.Text.Numeral

/-!
# Identifiers

Universally unique identifiers: 128 bits, written as 32 hexadecimal digits in five groups with
hyphens between. Reading also takes the digits without hyphens, the groups in braces and the groups
behind the prefix of the URN scheme.
-/

namespace Outreach

/-- The identity of a record. -/
structure Id where
  bits : BitVec 128
deriving DecidableEq

namespace Id

open Text

def le (a b : Id) : Bool := a.bits.toNat ≤ b.bits.toNat

/-! ## Writing -/

/-- The groups of a list of 32 digits with hyphens between. -/
def grouped (ds : List Char) : List Char :=
  ds.take 8 ++ '-' :: (ds.drop 8).take 4 ++ '-' :: (ds.drop 12).take 4 ++
    '-' :: (ds.drop 16).take 4 ++ '-' :: ds.drop 20

def chars (id : Id) : List Char := grouped (hexDigits 32 id.bits.toNat)

def text (id : Id) : String := String.ofList id.chars

/-! ## Reading -/

def ofDigits? (ds : List Char) : Option Id :=
  if ds.length = 32 then (hexValueOf? ds).map fun n ↦ ⟨BitVec.ofNat 128 n⟩ else none

/-- The digits of five groups, if the hyphens stand where they should. -/
def ungrouped? (cs : List Char) : Option (List Char) :=
  let ds := cs.take 8 ++ (cs.drop 9).take 4 ++ (cs.drop 14).take 4 ++ (cs.drop 19).take 4 ++
    cs.drop 24
  if grouped ds = cs then some ds else none

def ofGroups? (cs : List Char) : Option Id := (ungrouped? cs).bind ofDigits?

def urnPrefix : List Char := ['u', 'r', 'n', ':', 'u', 'u', 'i', 'd', ':']

/-- The identifier that the characters of a text denote. -/
def ofChars? (cs : List Char) : Option Id :=
  if cs.length = 32 then ofDigits? cs
  else if cs.length = 36 then ofGroups? cs
  else if cs.length = 38 then
    match cs with
    | '\x7b' :: r => if r.getLast? = some '\x7d' then ofGroups? r.dropLast else none
    | _ => none
  else if cs.length = 45 then (dropPrefix? urnPrefix cs).bind ofGroups?
  else none

def ofText? (s : String) : Option Id := ofChars? s.toList

/-! ## Exchange -/

def toJson (id : Id) : Json := .text id.text

def ofJson? (j : Json) : Option Id := j.text?.bind ofText?

end Id

end Outreach
