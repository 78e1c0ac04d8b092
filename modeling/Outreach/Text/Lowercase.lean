import Outreach.Text.CaseTable

/-!
# Lower-casing

The full Unicode mapping of a text to small letters. Every character is mapped by itself, with two
exceptions: the dotted capital I becomes an i with a dot above, two characters, and a capital sigma
becomes the final sigma where it ends a word. A text is searched by code points, or in small letters
for a needle that is already in small letters.
-/

namespace Outreach.Text

/-! ## Looking a code point up -/

/-- The run that holds a code point, in an ascending table. -/
def findRun (n : Nat) : List CaseRun → Option CaseRun
  | [] => none
  | r :: rs =>
    if n < r.first then none
    else if n ≤ r.last && (n - r.first) % r.step == 0 then some r
    else findRun n rs

/-- Membership of a code point in an ascending table of closed ranges. -/
def inRanges (n : Nat) : List (Nat × Nat) → Bool
  | [] => false
  | r :: rs => if n < r.1 then false else n ≤ r.2 || inRanges n rs

/-- A letter with a case that word-final forms do not look past. -/
def isCased (c : Char) : Bool := inRanges c.toNat casedRanges

/-- A character that word-final forms look past. -/
def isIgnorable (c : Char) : Bool := inRanges c.toNat ignorableRanges

/-! ## Single characters -/

/-- The small form of a character by itself. -/
def lowerChar (c : Char) : List Char :=
  if c = 'İ' then ['i', Char.ofNat 0x307]
  else match findRun c.toNat caseRuns with
    | some r => [Char.ofNat ((c.toNat : Int) + r.shift).toNat]
    | none => [c]

/-! ## Texts -/

/-- The nearest character that is not ignorable has a case. -/
def meetsCased (cs : List Char) : Bool :=
  match cs.dropWhile isIgnorable with
  | c :: _ => isCased c
  | [] => false

/-- A capital sigma after `before` (nearest character first) and in front of `after` ends a word. -/
def endsWord (before after : List Char) : Bool := meetsCased before && !meetsCased after

/-- Lower-casing of the characters that follow `before`, which is held nearest character first. -/
def lowerFrom (before : List Char) : List Char → List Char
  | [] => []
  | c :: cs =>
    (if c = 'Σ' then [if endsWord before cs then 'ς' else 'σ'] else lowerChar c) ++
      lowerFrom (c :: before) cs

/-- The characters of a text in small letters. -/
def lowerChars (cs : List Char) : List Char := lowerFrom [] cs

def lower (s : String) : String := String.ofList (lowerChars s.toList)

@[simp] theorem lowerFrom_nil (before : List Char) : lowerFrom before [] = [] := rfl

@[simp] theorem lowerChars_nil : lowerChars [] = [] := rfl

@[simp] theorem toList_lower (s : String) : (lower s).toList = lowerChars s.toList := by
  simp [lower]

/-! ## Searching -/

/-- The needle stands somewhere in the text without a gap. The empty needle stands everywhere. -/
def occursIn (needle : List Char) : List Char → Bool
  | [] => needle.isEmpty
  | c :: cs => needle.isPrefixOf (c :: cs) || occursIn needle cs

/-- The needle stands somewhere in the text. -/
def contains (text needle : String) : Bool := occursIn needle.toList text.toList

/-- The needle, which is in small letters, stands somewhere in the text put into small letters. -/
def containsLower (text needle : String) : Bool :=
  occursIn needle.toList (lowerChars text.toList)

/-- Occurrence is being an infix. -/
theorem occursIn_iff (needle : List Char) (cs : List Char) : occursIn needle cs ↔ needle <:+: cs := by
  induction cs with
  | nil => simp [occursIn]
  | cons c cs ih => simp [occursIn, ih, List.infix_cons_iff]

end Outreach.Text
