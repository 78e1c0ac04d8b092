import Outreach.Text.Numeral

/-!
# Bytes and percent-coding

Texts as bytes in UTF-8 and back, and the coding by which any byte can stand in an address: a
percent sign and two hexadecimal digits. Bytes that are no text are either refused or replaced.
-/

namespace Outreach.Text

/-! ## From bytes to characters -/

/-- The rest of a character: as many bytes as are `due`, the first of them within bounds. Without
one of them there is no character, and what is left begins with the byte that did not fit. -/
def continuation : Nat → Nat → Nat → Nat → List UInt8 → Option Char × List UInt8
  | 0, _, _, code, bs => (some (Char.ofNat code), bs)
  | _ + 1, _, _, _, [] => (none, [])
  | due + 1, low, high, code, b :: bs =>
    if low ≤ b.toNat && b.toNat ≤ high then
      continuation due 0x80 0xBF (code * 64 + b.toNat % 64) bs
    else (none, b :: bs)

/-- The character that begins with a byte, or nothing, and the bytes behind it. -/
def character (b : UInt8) (bs : List UInt8) : Option Char × List UInt8 :=
  let n := b.toNat
  if n < 0x80 then (some (Char.ofNat n), bs)
  else if 0xC2 ≤ n && n ≤ 0xDF then continuation 1 0x80 0xBF (n % 32) bs
  else if n = 0xE0 then continuation 2 0xA0 0xBF 0 bs
  else if n = 0xED then continuation 2 0x80 0x9F 13 bs
  else if 0xE1 ≤ n && n ≤ 0xEF then continuation 2 0x80 0xBF (n % 16) bs
  else if n = 0xF0 then continuation 3 0x90 0xBF 0 bs
  else if n = 0xF4 then continuation 3 0x80 0x8F 4 bs
  else if 0xF1 ≤ n && n ≤ 0xF3 then continuation 3 0x80 0xBF (n % 8) bs
  else (none, bs)

/-- The characters of bytes, nothing in place of each piece that is no character. The first
argument bounds the number of characters. -/
def characters : Nat → List UInt8 → List (Option Char)
  | 0, _ => []
  | _ + 1, [] => []
  | fuel + 1, b :: bs =>
    let (c, rest) := character b bs
    c :: characters fuel rest

/-- The text of bytes, if they are one. -/
def ofBytes? (bs : List UInt8) : Option (List Char) := (characters bs.length bs).mapM id

/-- The text of bytes, with a replacement character for each piece that is none. -/
def ofBytesLossy (bs : List UInt8) : List Char :=
  (characters bs.length bs).map fun c ↦ c.getD (Char.ofNat 0xFFFD)

/-! ## Percent-coding -/

/-- The bytes of a text in which a byte may be written as a percent sign and two hexadecimal
digits. A percent sign without these stands for itself. -/
def percentDecoded : List Char → List UInt8
  | '%' :: h :: l :: cs =>
    match hexValue? h, hexValue? l with
    | some a, some b => (16 * a + b).toUInt8 :: percentDecoded cs
    | _, _ => '%'.toUInt8 :: percentDecoded (h :: l :: cs)
  | c :: cs => String.utf8EncodeChar c ++ percentDecoded cs
  | [] => []
termination_by cs => cs.length

end Outreach.Text
