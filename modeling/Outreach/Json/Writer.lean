import Outreach.Decimal.Notation
import Outreach.Json.Basic

/-!
# Writing JSON

The text of a value on one line, without spaces. What JSON cannot hold plainly in a text is escaped:
quotation marks, backslashes and control characters.
-/

namespace Outreach.Json

open Text

/-- A character as it stands in a text. -/
def escaped (c : Char) : List Char :=
  match c with
  | '"' => ['\\', '"']
  | '\\' => ['\\', '\\']
  | '\x08' => ['\\', 'b']
  | '\x0c' => ['\\', 'f']
  | '\n' => ['\\', 'n']
  | '\r' => ['\\', 'r']
  | '\t' => ['\\', 't']
  | c => if c.toNat < 0x20 then '\\' :: 'u' :: hexDigits 4 c.toNat else [c]

def quotedChars (s : String) : List Char := '"' :: s.toList.flatMap escaped ++ ['"']

/-- A double that keeps a point, so that it does not look like a count. -/
def realChars (x : Float) : List Char :=
  let cs := Decimal.displayChars x
  if cs.contains '.' then cs else cs ++ ['.', '0']

def Number.chars : Number → List Char
  | .natural n => decimal n.toNat
  | .negative m => '-' :: decimal m.toNat
  | .real x => if x.isFinite then realChars x else ['n', 'u', 'l', 'l']

mutual

def chars : Json → List Char
  | .null => ['n', 'u', 'l', 'l']
  | .bool true => ['t', 'r', 'u', 'e']
  | .bool false => ['f', 'a', 'l', 's', 'e']
  | .number n => n.chars
  | .text s => quotedChars s
  | .array [] => ['[', ']']
  | .array (j :: js) => '[' :: j.chars ++ itemsChars js
  | .object [] => ['\x7b', '\x7d']
  | .object ((name, j) :: es) => '\x7b' :: quotedChars name ++ ':' :: j.chars ++ entriesChars es
  | .unreadable => ['n', 'u', 'l', 'l']

/-- The items after the first, and the end of the array. -/
def itemsChars : List Json → List Char
  | [] => [']']
  | j :: js => ',' :: j.chars ++ itemsChars js

/-- The entries after the first, and the end of the object. -/
def entriesChars : List (String × Json) → List Char
  | [] => ['\x7d']
  | (name, j) :: es => ',' :: quotedChars name ++ ':' :: j.chars ++ entriesChars es

end

def render (j : Json) : String := String.ofList j.chars

end Outreach.Json
