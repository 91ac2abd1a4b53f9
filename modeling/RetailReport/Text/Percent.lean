import RetailReport.Text.Digits

/-!
# Percent-encoded text

In a path, a percent sign and two hexadecimal digits stand for a byte.  Anything else stands for
itself, a percent sign without two digits included.

## Main definitions

* `Text.percentDecode`: the bytes of a path, apart from some that stay encoded.
* `Text.lossyString`: bytes as text.
-/

namespace RetailReport.Text

open Digits

/-- The byte that a percent sign and two digits stand for. -/
def encodedByte? (sign high low : UInt8) : Option UInt8 :=
  if sign = 0x25 then do
    let high ← hexValue? (Char.ofNat high.toNat)
    let low ← hexValue? (Char.ofNat low.toNat)
    return UInt8.ofNat (16 * high + low)
  else none

/-- The bytes that a percent-encoded text stands for; those that `keep` picks out stay encoded. -/
def percentDecode (keep : UInt8 → Bool) : List UInt8 → List UInt8
  | b :: h :: l :: rest =>
    match (encodedByte? b h l).filter fun d => !keep d with
    | some decoded => decoded :: percentDecode keep rest
    | none => b :: percentDecode keep (h :: l :: rest)
  | rest => rest

/-- How many bytes a character has that starts with a byte. -/
def leadWidth (b : UInt8) : Nat :=
  if b < 0x80 then 1
  else if 0xC2 ≤ b && b ≤ 0xDF then 2
  else if 0xE0 ≤ b && b ≤ 0xEF then 3
  else if 0xF0 ≤ b && b ≤ 0xF4 then 4
  else 0

/-- The second bytes that may follow a first one of a character of more than one byte. -/
def secondRange (b : UInt8) : UInt8 × UInt8 :=
  if b = 0xE0 then (0xA0, 0xBF)
  else if b = 0xED then (0x80, 0x9F)
  else if b = 0xF0 then (0x90, 0xBF)
  else if b = 0xF4 then (0x80, 0x8F)
  else (0x80, 0xBF)

/-- The bytes after a first one that belong to the same character: at most `wanted`, as far as they
may follow. -/
def trail (wanted : Nat) (range : UInt8 × UInt8) : List UInt8 → List UInt8
  | [] => []
  | b :: rest =>
    match wanted with
    | 0 => []
    | wanted + 1 =>
      if range.1 ≤ b && b ≤ range.2 then b :: trail wanted (0x80, 0xBF) rest else []

/-- The bits of a first byte that belong to the code of a character of a given width. -/
def leadBits (width : Nat) (b : UInt8) : Nat :=
  match width with
  | 1 => b.toNat
  | 2 => b.toNat % 32
  | 3 => b.toNat % 16
  | _ => b.toNat % 8

/-- The characters of bytes; each longest piece of a character that is not complete becomes one
replacement character. -/
def lossyChars : (fuel : Nat) → List UInt8 → List Char
  | 0, _ => []
  | _, [] => []
  | fuel + 1, b :: rest =>
    let width := leadWidth b
    let more := trail (width - 1) (secondRange b) rest
    if width = more.length + 1 then
      Char.ofNat (more.foldl (fun n c => 64 * n + c.toNat % 64) (leadBits width b)) ::
        lossyChars fuel (rest.drop more.length)
    else '\uFFFD' :: lossyChars fuel (rest.drop more.length)

/-- Bytes as text. -/
def lossyString (bytes : List UInt8) : String := String.ofList (lossyChars bytes.length bytes)

end RetailReport.Text
