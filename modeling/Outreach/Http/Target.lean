import Outreach.Text.Scan
import Outreach.Text.Utf8

/-!
# Targets

What a request is for: a path and a query. A target is written in one of four forms. It begins with
its path; or a scheme and an authority stand in front of the path; or it is an authority alone, or a
star alone, neither of which names a resource.
-/

namespace Outreach.Http

open Text

/-- A path and a query. -/
structure Target where
  /-- The path, percent-coded; it begins with a slash if it may name a resource. -/
  path : List Char
  /-- What stands behind the question mark, percent-coded; empty if there is none. -/
  query : List Char
deriving DecidableEq

/-! ## Authorities -/

/-- What has been seen of an authority so far. -/
structure Authority.Scanned where
  /-- How many colons there were behind the user and the bracketed address. -/
  colons : Nat
  opened : Bool
  closed : Bool
  /-- A percent sign behind the user and the bracketed address. -/
  percent : Bool

namespace Authority

/-- A character that may stand anywhere in an authority. -/
def isPlainChar (c : Char) : Bool :=
  c.isAlphanum || ['!', '$', '&', '\'', '(', ')', '*', '+', ',', '-', '.', ';', '=', '_', '~'].contains c

/-- At most so many colons are looked at. -/
def maxColons : Nat := 8

def step (s : Scanned) (c : Char) : Option Scanned :=
  match c with
  | ':' => if s.colons < maxColons then some { s with colons := s.colons + 1 } else none
  | '[' => if s.percent || s.opened then none else some { s with opened := true }
  | ']' =>
    if s.opened && !s.closed then some { s with closed := true, colons := 0, percent := false }
    else none
  | '@' => some { s with colons := 0, percent := false }
  | '%' => some { s with percent := true }
  | c => if isPlainChar c then some s else none

/-- A user or none, then a host, then a number or none. -/
def accepts (cs : List Char) : Bool :=
  match cs.foldlM step ⟨0, false, false, false⟩ with
  | some s => s.opened == s.closed && s.colons ≤ 1 && !s.percent && cs.getLast? != some '@'
  | none => false

end Authority

namespace Target

/-- The most bytes that a target has. -/
def maxBytes : Nat := 65534

/-- The most characters that a scheme has. -/
def maxSchemeLength : Nat := 64

/-- A character that may stand in a path. -/
def isPathChar (c : Char) : Bool :=
  0x20 < c.toNat && !(['#', '<', '>', '?', '\x60'].contains c)

/-- A character that may stand in a query. -/
def isQueryChar (c : Char) : Bool := 0x20 < c.toNat && !(['"', '#', '<', '>'].contains c)

/-- The target of a path and a query. What stands behind a hash sign does not belong to it. -/
def ofPath? (cs : List Char) : Option Target :=
  let cs := cs.takeWhile (· != '#')
  let path := cs.takeWhile (· != '?')
  let query := (cs.dropWhile (· != '?')).drop 1
  if path.all isPathChar && query.all isQueryChar then some ⟨path, query⟩ else none

/-- A character that may stand in a scheme. -/
def isSchemeChar (c : Char) : Bool := c.isAlphanum || ['+', '-', '.'].contains c

/-- What stands behind a scheme and its colon and slashes, and how long the scheme is. -/
def dropScheme? (cs : List Char) : Option (Nat × List Char) :=
  (dropPrefix? [':', '/', '/'] (cs.dropWhile isSchemeChar)).map ((cs.takeWhile isSchemeChar).length, ·)

def endsAuthority (c : Char) : Bool := c == '/' || c == '?' || c == '#'

/-- The target of an authority, a path or none, and a query or none. -/
def ofAuthority? (cs : List Char) : Option Target := do
  let authority := cs.takeWhile fun c ↦ !endsAuthority c
  guard (authority != [] && Authority.accepts authority)
  let t ← ofPath? (cs.dropWhile fun c ↦ !endsAuthority c)
  return if t.path = [] then { t with path := ['/'] } else t

/-- The target of a text, in any of the forms. -/
def ofChars? (cs : List Char) : Option Target :=
  match cs with
  | '/' :: _ => ofPath? cs
  | ['*'] => some ⟨['*'], []⟩
  | _ => match dropScheme? cs with
    | some (length, rest) => if length ≤ maxSchemeLength then ofAuthority? rest else none
    | none =>
      if cs != [] && cs.all (fun c ↦ !endsAuthority c) && Authority.accepts cs then some ⟨[], []⟩
      else none

/-- The target of a text that is not too long. -/
def ofText? (s : String) : Option Target :=
  if s.utf8ByteSize ≤ maxBytes then ofChars? s.toList else none

/-- The parts of the path between its slashes. -/
def segments (t : Target) : List String := ((t.path.splitOn '/').map String.ofList).drop 1

end Target

end Outreach.Http
