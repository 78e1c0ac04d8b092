import Outreach.Decimal.Notation
import Outreach.Decimal.Reading
import Outreach.Settings.Basic
import Outreach.Text.Lowercase

/-!
# Settings from the environment

Variables whose names begin with a common prefix set one setting each; two underscores in a name
lead into a section. The text of a variable is first taken for what it looks like, a truth value, a
number or a text, and then turned into what the setting asks for.
-/

namespace Outreach.Settings

open Decimal Text

/-! ## Entries -/

/-- What a variable says, or a section of such. -/
inductive Entry where
  | flag (b : Bool)
  /-- A whole number of 64 bits with a sign. -/
  | whole (n : Int)
  | real (x : Float)
  | text (s : String)
  | section (entries : List (String × Entry))
deriving Inhabited

namespace Entry

/-- The least whole number of 64 bits with a sign. -/
def minWhole : Int := -9223372036854775808

/-- The greatest whole number of 64 bits with a sign. -/
def maxWhole : Int := 9223372036854775807

def ofText (s : String) : Entry :=
  match lower s with
  | "true" => .flag true
  | "false" => .flag false
  | _ =>
    match int? s.toList with
    | some n => if minWhole ≤ n ∧ n ≤ maxWhole then .whole n else .real (Option.getD (float? s.toList) 0.0)
    | none => match float? s.toList with
      | some x => .real x
      | none => .text s

/-- The entries of a section; what is no section has none. -/
def entries : Entry → List (String × Entry)
  | .section es => es
  | _ => []

/-- Put an entry under a name, in place of one that is there. -/
def put (name : String) (e : Entry) (es : List (String × Entry)) : List (String × Entry) :=
  (name, e) :: es.filter (·.1 != name)

/-- Put an entry at the end of a path of names, making the sections on the way. -/
def putAt (e : Entry) : List String → List (String × Entry) → List (String × Entry)
  | [], es => es
  | [name], es => put name e es
  | name :: path, es =>
    put name (.section (putAt e path (((es.lookup name).map entries).getD []))) es

/-! ## Conversions -/

/-- The words that stand for yes and no. -/
def word? (s : String) : Option Bool :=
  match lower s with
  | "true" | "on" | "yes" => some true
  | "false" | "off" | "no" => some false
  | _ => none

/-- The nearest whole number, halves going away from zero; zero for what is not a number. -/
def rounded (x : Float) : Int :=
  match Binary.ofFloat? x with
  | some b => if b.negative then -(b.roundMagnitude : Int) else b.roundMagnitude
  | none => if x.isNaN then 0 else if x < 0.0 then minWhole else 0x10000000000000000

def toBool? : Entry → Option Bool
  | .flag b => some b
  | .whole n => some (n != 0)
  | .real x => some (x != 0.0)
  | .text s => word? s
  | .section _ => none

def toInt? : Entry → Option Int
  | .flag b => some (if b then 1 else 0)
  | .whole n => some n
  | .real x => some (max minWhole (min (rounded x) maxWhole))
  | .text s => (word? s).map fun b ↦ if b then 1 else 0
  | .section _ => none

def toNat? : Entry → Option Nat
  | .flag b => some (if b then 1 else 0)
  | .whole n => if 0 ≤ n then some n.toNat else none
  | .real x => some (min (rounded x).toNat 0xffffffffffffffff)
  | .text s => (word? s).map fun b ↦ if b then 1 else 0
  | .section _ => none

def toFloat? : Entry → Option Float
  | .flag b => some (if b then 1.0 else 0.0)
  | .whole n => some (if n < 0 then -ofCount n.natAbs else ofCount n.natAbs)
  | .real x => some x
  | .text s => (word? s).map fun b ↦ if b then 1.0 else 0.0
  | .section _ => none

def toText? : Entry → Option String
  | .flag b => some (if b then "true" else "false")
  | .whole n => some (String.ofList (decimalInt n))
  | .real x => some (display x)
  | .text s => some s
  | .section _ => none

def toNatBelow? (bound : Nat) (e : Entry) : Option Nat := e.toNat?.filter (· < bound)

def toSocket? (e : Entry) : Option UInt16 := (e.toNatBelow? 0x10000).map (·.toUInt16)

def toSection? : Entry → Option (List (String × Entry))
  | .section es => some es
  | _ => none

end Entry

/-! ## Names -/

/-- The text with every pair of underscores, from left to right, made a point. -/
def pointed : List Char → List Char
  | '_' :: '_' :: cs => '.' :: pointed cs
  | c :: cs => c :: pointed cs
  | [] => []

/-- The path of names that a variable leads along, unless it is none of ours. -/
def path? (name : String) : Option (List String) := do
  let rest ← dropPrefix? ['c', 'r', 'm', '_', '_'] (lowerChars name.toList)
  let names := ((pointed rest).splitOn '.').map String.ofList
  guard (names.all (· != ""))
  return names

/-! ## Sections -/

/-- A setting under a name, or its usual value if there is none. -/
def orUsual {α : Type} (es : List (String × Entry)) (name : String) (usual : α)
    (read : Entry → Option α) : Option α :=
  match es.lookup name with
  | some e => read e
  | none => some usual

def Api.ofEntry? (e : Entry) : Option Api := do
  let es ← e.toSection?
  return { host := ← orUsual es "host" Usual.host Entry.toText?
           httpSocket := ← orUsual es "http_port" Usual.httpSocket Entry.toSocket?
           frontendOrigin := ← orUsual es "frontend_origin" Usual.frontendOrigin Entry.toText? }

def Metrics.ofEntry? (e : Entry) : Option Metrics := do
  let es ← e.toSection?
  return { enabled := ← orUsual es "enabled" Usual.metricsEnabled Entry.toBool?
           socket := ← orUsual es "port" Usual.metricsSocket Entry.toSocket? }

def Campaigns.ofEntry? (e : Entry) : Option Campaigns := do
  let es ← e.toSection?
  let delay ← orUsual es "completion_delay_ms" Usual.completionDelay.toNat Entry.toNat?
  return { completionDelay := delay.toUInt64
           rates := ⟨← orUsual es "delivery_rate" Usual.delivery Entry.toFloat?,
             ← orUsual es "open_rate" Usual.opening Entry.toFloat?,
             ← orUsual es "click_rate" Usual.click Entry.toFloat?⟩
           samples := ⟨← orUsual es "preview_sample_size" Usual.preview Entry.toNat?,
             ← orUsual es "insights_sample_size" Usual.insights Entry.toNat?⟩ }

def Auth.ofEntry? (e : Entry) : Option Auth := do
  let es ← e.toSection?
  return { adminName := ← orUsual es "admin_name" Usual.adminName Entry.toText?
           adminEmail := ← orUsual es "admin_email" Usual.adminEmail Entry.toText?
           adminPassword := ← orUsual es "admin_password" Usual.adminPassword Entry.toText?
           tokenHours := ← orUsual es "token_ttl_hours" Usual.tokenHours Entry.toInt? }

/-- Whether there is demonstration data, by a section. -/
def seedOfEntry? (e : Entry) : Option Bool := do
  orUsual (← e.toSection?) "enabled" Usual.seed Entry.toBool?

def ofEntries? (es : List (String × Entry)) : Option Settings := do
  return { nodeId := ← orUsual es "node_id" Usual.nodeId Entry.toText?
           api := ← orUsual es "api" .usual Api.ofEntry?
           metrics := ← orUsual es "metrics" .usual Metrics.ofEntry?
           campaigns := ← orUsual es "campaigns" .usual Campaigns.ofEntry?
           auth := ← orUsual es "auth" .usual Auth.ofEntry?
           seed := ← orUsual es "seed" Usual.seed seedOfEntry? }

def entriesOf (env : List (String × String)) : List (String × Entry) :=
  env.foldl
    (fun es v ↦ match path? v.1 with
      | some path => Entry.putAt (.ofText v.2) path es
      | none => es) []

def ofEnvironment (env : List (String × String)) : Except Fault Settings :=
  match ofEntries? (entriesOf env) with
  | some s => s.check.map fun _ ↦ s
  | none => .error .unreadable

end Outreach.Settings
