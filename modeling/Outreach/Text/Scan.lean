/-!
# Scanning

Readers that take what they accept off the front of a text. A reader is a stateful optional
computation on the characters that are left, so that readers are sequenced with `do`, and a refusal
anywhere is a refusal of the whole.
-/

namespace Outreach.Text

/-- The part of a text behind another at its front. -/
def dropPrefix? : List Char → List Char → Option (List Char)
  | [], cs => some cs
  | p :: ps, c :: cs => if p = c then dropPrefix? ps cs else none
  | _ :: _, [] => none

/-- A reader: a value and the rest of the text, or a refusal. -/
abbrev Scan (α : Type) := StateT (List Char) Option α

namespace Scan

variable {α : Type}

/-- Read the whole text; anything left over is a refusal. -/
def all? (s : Scan α) (cs : List Char) : Option α :=
  match s cs with
  | some (a, []) => some a
  | _ => none

/-- The next character, of which a reader decides whether it will do. -/
def next (ok : Char → Bool) : Scan Char := fun
  | c :: cs => if ok c then some (c, cs) else none
  | [] => none

def char (c : Char) : Scan Unit := fun
  | d :: cs => if d = c then some ((), cs) else none
  | [] => none

/-- The characters as far as they satisfy `ok`; there may be none. -/
def takeWhile (ok : Char → Bool) : Scan (List Char) := fun cs ↦
  some (cs.takeWhile ok, cs.dropWhile ok)

/-- Take a character if it is one of those that satisfy `ok`, and tell whether it was. -/
def optional (ok : Char → Bool) : Scan Bool := fun
  | c :: cs => some (if ok c then (true, cs) else (false, c :: cs))
  | [] => some (false, [])

/-- The text that is left, taken whole. -/
def rest : Scan (List Char) := fun cs ↦ some (cs, [])

/-- Either reader, the second where the first refuses. -/
def orElse (s t : Scan α) : Scan α := fun cs ↦ (s cs).or (t cs)

end Scan

end Outreach.Text
